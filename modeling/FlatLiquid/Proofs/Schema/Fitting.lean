import FlatLiquid.Proofs.Json.Yielding
import FlatLiquid.Proofs.Schema.Values
import FlatLiquid.Schema.Parsing

/-!
Contract: what every schema that is read from a text is like.

Owns:
- values, settings, block types and presets that fit inside so many brackets;
- the proof that whatever is read inside so many brackets fits there, and so does the schema of a
  template.

Not every schema fits. One that is built by hand may have a type that goes by the name of another, a
limit of more than 32 bits, a default of nil, or JSON that nests too deep.
-/

namespace FlatLiquid

open Json (Codec Field Shape Node)

/-- The name of a type that is read is read as the type. -/
theorem SettingType.ofName_name (name : String) : ofName (ofName name).name = ofName name := by
  have sameName : (ofName name).name = name := by
    rw [ofName]
    cases found : known.find? fun type => type.name == name with
    | none => rfl
    | some type =>
      have named := List.find?_some found
      exact beq_iff_eq.mp named
  rw [sameName]

/-! ## Values -/

/-- The value may be read inside so many brackets. -/
def SettingValue.FitsAt (depth : Nat) (value : SettingValue) : Prop :=
  value.IsSound ∧ depth + value.toJson.nesting < Json.depthLimit

theorem SettingValue.nesting_toJson_ofJson (json : Json) :
    (SettingValue.ofJson json).toJson.nesting = json.nesting := by
  cases json with
  | number number =>
    rw [ofJson, toJson]
    split
    · rfl
    · split <;> rfl
  | _ => rfl

theorem SettingValue.codec_yields {depth : Nat} (within : depth < Json.depthLimit) :
    SettingValue.codec.Yields depth (FitsAt depth) := by
  intro node value read
  refine ⟨isSound_of_read read, ?_⟩
  obtain ⟨json, asJson, rfl⟩ := exists_of_map_eq_ok read
  rw [nesting_toJson_ofJson]
  exact node.nesting_lt_of_read within asJson

/-- Nil is read from null only. -/
theorem SettingValue.ne_nil_of_read {depth : Nat} {node : Node} {value : SettingValue}
    (other : ∀ after, node ≠ .null after) (read : codec.read depth node = .ok value) :
    value ≠ .nil := by
  obtain ⟨json, asJson, rfl⟩ := exists_of_map_eq_ok read
  cases json with
  | null =>
    obtain ⟨after, same⟩ := Json.exists_of_read_null asJson
    exact absurd same (other after)
  | _ => exact SettingValue.noConfusion

/-! ## Settings and block types -/

theorem limitCodec_yields (depth : Nat) : limitCodec.Yields depth (· < Nat.pow 2 32) :=
  Codec.natural_yields 32 "u32"

/-- The setting may be read inside so many brackets. -/
structure Setting.FitsAt (depth : Nat) (setting : Setting) : Prop where
  type : SettingType.ofName setting.type.name = setting.type
  default : ∀ value ∈ setting.default, value.FitsAt (depth + 1) ∧ value ≠ .nil
  limit : ∀ limit ∈ setting.limit, limit < Nat.pow 2 32

theorem Setting.codec_yields {depth : Nat} (within : depth + 1 < Json.depthLimit) :
    Setting.shape.codec.Yields depth (FitsAt depth) := by
  have types : SettingType.codec.Yields (depth + 1) fun type =>
      SettingType.ofName type.name = type := by
    intro node type read
    obtain ⟨name, _, rfl⟩ := exists_of_map_eq_ok read
    exact SettingType.ofName_name name
  refine Shape.codec_yields ⟨by decide, nofun, nofun⟩ ?_
  simp only [Setting.shape, List.forall_mem_cons]
  exact ⟨Field.needed_preserves _ types _ fun _ _ type fits => { fits with type },
    (Field.plain_stores _ _ _ _).preserves fun _ _ fits => { fits with },
    (Field.plain_stores _ _ _ _).preserves fun _ _ fits => { fits with },
    Field.optional_preserves _ (fun node value other read =>
        ⟨SettingValue.codec_yields within node value read, SettingValue.ne_nil_of_read other read⟩) _
      fun _ _ default fits => { fits with default },
    (Field.optional_stores _ _ _ _).preserves fun _ _ fits => { fits with },
    (Field.optional_stores _ _ _ _).preserves fun _ _ fits => { fits with },
    (Field.items_stores _ _ _ _).preserves fun _ _ fits => { fits with },
    (Field.optional_stores _ _ _ _).preserves fun _ _ fits => { fits with },
    (Field.optional_stores _ _ _ _).preserves fun _ _ fits => { fits with },
    (Field.optional_stores _ _ _ _).preserves fun _ _ fits => { fits with },
    (Field.optional_stores _ _ _ _).preserves fun _ _ fits => { fits with },
    (Field.optional_stores _ _ _ _).preserves fun _ _ fits => { fits with },
    (Field.items_stores _ _ _ _).preserves fun _ _ fits => { fits with },
    Field.optional_preserves _ (fun node limit _ => limitCodec_yields _ node limit) _
      fun _ _ limit fits => { fits with limit },
    List.forall_mem_nil _⟩

/-- The block type may be read inside so many brackets. -/
structure BlockType.FitsAt (depth : Nat) (block : BlockType) : Prop where
  settings : ∀ setting ∈ block.settings, setting.FitsAt (depth + 2)
  limit : ∀ limit ∈ block.limit, limit < Nat.pow 2 32

theorem BlockType.codec_yields {depth : Nat} (within : depth + 3 < Json.depthLimit) :
    BlockType.shape.codec.Yields depth (FitsAt depth) := by
  refine Shape.codec_yields ⟨List.forall_mem_nil _, nofun⟩ ?_
  simp only [BlockType.shape, List.forall_mem_cons]
  exact ⟨(Field.needed_stores _ _ _ _).preserves fun _ _ fits => { fits with },
    (Field.plain_stores _ _ _ _).preserves fun _ _ fits => { fits with },
    Field.plain_preserves _ (Setting.codec_yields within).list _
      fun _ _ settings fits => { fits with settings },
    Field.optional_preserves _ (fun node limit _ => limitCodec_yields _ node limit) _
      fun _ _ limit fits => { fits with limit },
    List.forall_mem_nil _⟩

/-! ## Presets -/

/-- The values may be read inside so many brackets. -/
def SettingValues.FitAt (depth : Nat) (values : SettingValues) : Prop :=
  ∀ entry ∈ values.entries, entry.2.FitsAt (depth + 1)

theorem settingValuesCodec_yields {depth : Nat} (within : depth + 1 < Json.depthLimit) :
    settingValuesCodec.Yields depth (SettingValues.FitAt depth) :=
  (SettingValue.codec_yields within).map

/-- The block may be read inside so many brackets. -/
def PresetBlock.FitsAt (depth : Nat) (block : PresetBlock) : Prop :=
  SettingValues.FitAt (depth + 1) block.settings

theorem PresetBlock.codec_yields {depth : Nat} (within : depth + 2 < Json.depthLimit) :
    PresetBlock.shape.codec.Yields depth (FitsAt depth) := by
  refine Shape.codec_yields (List.forall_mem_nil _) ?_
  simp only [PresetBlock.shape, List.forall_mem_cons]
  exact ⟨(Field.needed_stores _ _ _ _).preserves fun _ _ fits => fits,
    Field.plain_preserves _ (settingValuesCodec_yields within) _ fun _ _ settings _ => settings,
    List.forall_mem_nil _⟩

/-- The blocks of a preset fit, whether they stand in a list or under ids. -/
theorem presetBlocksCodec_yields {depth : Nat} (within : depth + 3 < Json.depthLimit) :
    presetBlocksCodec.Yields depth fun blocks => ∀ block ∈ blocks, block.FitsAt (depth + 1) := by
  have each : PresetBlock.shape.codec.Yields (depth + 1) (PresetBlock.FitsAt (depth + 1)) :=
    PresetBlock.codec_yields within
  intro node blocks read
  cases node with
  | null after =>
    obtain rfl := Except.ok.inj read
    exact List.forall_mem_nil _
  | object start fields ending =>
    simp only [presetBlocksCodec] at read
    obtain ⟨_, _, read⟩ := exists_of_bind_eq_ok read
    obtain ⟨map, mapRead, rfl⟩ := exists_of_map_eq_ok (eq_ok_of_mapError_eq_ok read)
    exact List.forall_mem_map.mpr (each.map _ map mapRead)
  | array start items ending =>
    simp only [presetBlocksCodec] at read
    obtain ⟨_, _, read⟩ := exists_of_bind_eq_ok read
    exact each.list _ blocks (eq_ok_of_mapError_eq_ok read)
  | _ =>
    simp only [presetBlocksCodec] at read
    obtain ⟨_, _, read⟩ := exists_of_bind_eq_ok read
    contradiction

/-- The preset may be read inside so many brackets. -/
structure Preset.FitsAt (depth : Nat) (preset : Preset) : Prop where
  settings : SettingValues.FitAt (depth + 1) preset.settings
  blocks : ∀ block ∈ preset.blocks, block.FitsAt (depth + 2)

theorem Preset.codec_yields {depth : Nat} (within : depth + 4 < Json.depthLimit) :
    Preset.shape.codec.Yields depth (FitsAt depth) := by
  refine Shape.codec_yields ⟨List.forall_mem_nil _, List.forall_mem_nil _⟩ ?_
  simp only [Preset.shape, List.forall_mem_cons]
  exact ⟨(Field.plain_stores _ _ _ _).preserves fun _ _ fits => { fits with },
    Field.plain_preserves _ (settingValuesCodec_yields (by omega)) _
      fun _ _ settings fits => { fits with settings },
    Field.plain_preserves _ (presetBlocksCodec_yields within) _
      fun _ _ blocks fits => { fits with blocks },
    List.forall_mem_nil _⟩

/-! ## Schemas -/

/-- The schema may be read from a text. -/
structure Schema.Fits (schema : Schema) : Prop where
  limit : ∀ limit ∈ schema.limit, limit < Nat.pow 2 32
  maxBlocks : ∀ limit ∈ schema.maxBlocks, limit < Nat.pow 2 32
  settings : ∀ setting ∈ schema.settings, setting.FitsAt 2
  blocks : ∀ block ∈ schema.blocks, block.FitsAt 2
  presets : ∀ preset ∈ schema.presets, preset.FitsAt 2
  default : ∀ preset ∈ schema.default, preset.FitsAt 1

theorem Schema.codec_yields : Schema.shape.codec.Yields 0 Fits := by
  have limits := limitCodec_yields 1
  have presets (depth : Nat) (small : depth ≤ 2) :
      Preset.shape.codec.Yields depth (Preset.FitsAt depth) :=
    Preset.codec_yields (show depth + 4 < 128 by omega)
  refine Shape.codec_yields ⟨nofun, nofun, List.forall_mem_nil _, List.forall_mem_nil _,
    List.forall_mem_nil _, nofun⟩ ?_
  simp only [Schema.shape, List.forall_mem_cons]
  exact ⟨(Field.plain_stores _ _ _ _).preserves fun _ _ fits => { fits with },
    (Field.optional_stores _ _ _ _).preserves fun _ _ fits => { fits with },
    (Field.optional_stores _ _ _ _).preserves fun _ _ fits => { fits with },
    Field.optional_preserves _ (fun node limit _ => limits node limit) _
      fun _ _ limit fits => { fits with limit },
    Field.optional_preserves _ (fun node limit _ => limits node limit) _
      fun _ _ maxBlocks fits => { fits with maxBlocks },
    Field.plain_preserves _ (Setting.codec_yields (by decide)).list _
      fun _ _ settings fits => { fits with settings },
    Field.plain_preserves _ (BlockType.codec_yields (by decide)).list _
      fun _ _ blocks fits => { fits with blocks },
    Field.plain_preserves _ (presets 2 (by decide)).list _
      fun _ _ presets fits => { fits with presets },
    Field.optional_preserves _ (fun node preset _ => presets 1 (by decide) node preset) _
      fun _ _ default fits => { fits with default },
    List.forall_mem_nil _⟩

theorem Schema.ofTemplate?_eq_some_iff {template : List Char} {block : SchemaBlock}
    (found : SchemaBlock.find? template = some block) (schema : Schema) :
    Schema.ofTemplate? template = some schema ↔ Schema.ofInterior block.interior = .ok schema := by
  rw [Schema.ofTemplate?, Schema.read, found]
  simp only
  cases Schema.ofInterior block.interior with
  | ok other =>
    change some other = some schema ↔ Except.ok other = Except.ok schema
    rw [Option.some.injEq, Except.ok.injEq]
  | error fault =>
    constructor
    · intro same
      exact nomatch (show none = some schema from same)
    · intro same
      contradiction

theorem Schema.fits_of_ofTemplate? {template : List Char} {schema : Schema}
    (decoded : Schema.ofTemplate? template = some schema) : schema.Fits := by
  cases found : SchemaBlock.find? template with
  | none =>
    rw [ofTemplate?, Schema.read, found] at decoded
    contradiction
  | some block =>
    have interior := (Schema.ofTemplate?_eq_some_iff found schema).mp decoded
    have parsed := eq_ok_of_mapError_eq_ok (eq_ok_of_mapError_eq_ok interior)
    exact Schema.codec_yields _ _ (Json.read_of_readText parsed).1

end FlatLiquid
