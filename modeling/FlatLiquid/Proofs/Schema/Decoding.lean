import FlatLiquid.Proofs.Json.Structures
import FlatLiquid.Schema.Definition

/-!
Contract: schemas and the JSON that they are read from.

Owns:
- the stability of the codecs that a schema is made of;
- what the other fields of a setting leave as it is: the default, the id and the type;
- what the other fields of a schema leave as it is: the settings.
-/

namespace FlatLiquid

open Json (Codec Field Shape Node)

/-! ## Codecs of the parts -/

theorem SettingType.exists_of_reads {value : Json} {type : SettingType}
    (reads : SettingType.codec.Reads value type) :
    ∃ name, Codec.text.Reads value name ∧ type = .ofName name := by
  obtain ⟨depth, node, linked, asJson, read⟩ := reads
  obtain ⟨name, named, same⟩ := exists_of_map_eq_ok read
  exact ⟨name, ⟨depth, node, linked, asJson, named⟩, same.symm⟩

theorem SettingType.codec_stable : SettingType.codec.Stable := by
  intro value type reads
  obtain ⟨name, named, rfl⟩ := SettingType.exists_of_reads reads
  intro depth node spells linked within
  have again := Codec.text_stable value name named depth node spells linked within
  rw [SettingType.codec]
  simp only [again]
  rfl

/-- A value is read from JSON that names no key twice as the value that the JSON stands for. -/
theorem SettingValue.codec_decodes {value : Json} (distinct : value.HasDistinctKeys) :
    SettingValue.codec.Decodes value (.ofJson value) := by
  intro depth node spells linked within
  rw [SettingValue.codec]
  simp only [spells.read distinct within]
  rfl

theorem SettingValue.eq_ofJson_of_reads {value : Json} {a : SettingValue}
    (reads : SettingValue.codec.Reads value a) : a = .ofJson value := by
  obtain ⟨depth, node, _, asJson, read⟩ := reads
  rw [SettingValue.codec] at read
  simp only [asJson] at read
  exact (Except.ok.inj read).symm

theorem SettingValue.codec_stable : SettingValue.codec.Stable := by
  intro value a reads
  rw [SettingValue.eq_ofJson_of_reads reads]
  obtain ⟨depth, node, _, asJson, _⟩ := reads
  exact SettingValue.codec_decodes (Node.hasDistinctKeys_of_read node asJson)

theorem settingValuesCodec_stable : settingValuesCodec.Stable :=
  SettingValue.codec_stable.map

theorem limitCodec_stable : limitCodec.Stable :=
  Codec.natural_stable 32 "u32"

theorem Choice.codec_stable : Choice.shape.codec.Stable := by
  refine Shape.codec_stable (List.cons_ne_nil _ _) ?_
  simp only [Choice.shape, List.forall_mem_cons]
  exact ⟨Field.needed_stable _ _ _ Codec.text_stable, Field.plain_stable _ _ _ Codec.text_stable,
    Field.optional_stable _ Codec.text_stable _ _, List.forall_mem_nil _⟩

theorem Setting.fields_stable : ∀ field ∈ Setting.shape.fields, field.Stable := by
  simp only [Setting.shape, List.forall_mem_cons]
  exact ⟨Field.needed_stable _ _ _ SettingType.codec_stable,
    Field.plain_stable _ _ _ Codec.text_stable,
    Field.plain_stable _ _ _ Codec.text_stable,
    Field.optional_stable _ SettingValue.codec_stable _ _,
    Field.optional_stable _ Codec.text_stable _ _,
    Field.optional_stable _ Codec.text_stable _ _,
    Field.items_stable _ Choice.codec_stable _ _,
    Field.optional_stable _ Codec.real_stable _ _,
    Field.optional_stable _ Codec.real_stable _ _,
    Field.optional_stable _ Codec.real_stable _ _,
    Field.optional_stable _ Codec.text_stable _ _,
    Field.optional_stable _ Codec.text_stable _ _,
    Field.items_stable _ Codec.text_stable _ _,
    Field.optional_stable _ limitCodec_stable _ _,
    List.forall_mem_nil _⟩

theorem Setting.codec_stable : Setting.shape.codec.Stable :=
  Shape.codec_stable (List.cons_ne_nil _ _) Setting.fields_stable

theorem BlockType.codec_stable : BlockType.shape.codec.Stable := by
  refine Shape.codec_stable (List.cons_ne_nil _ _) ?_
  simp only [BlockType.shape, List.forall_mem_cons]
  exact ⟨Field.needed_stable _ _ _ Codec.text_stable, Field.plain_stable _ _ _ Codec.text_stable,
    Field.plain_stable _ _ _ Setting.codec_stable.list,
    Field.optional_stable _ limitCodec_stable _ _, List.forall_mem_nil _⟩

theorem PresetBlock.codec_stable : PresetBlock.shape.codec.Stable := by
  refine Shape.codec_stable (List.cons_ne_nil _ _) ?_
  simp only [PresetBlock.shape, List.forall_mem_cons]
  exact ⟨Field.needed_stable _ _ _ Codec.text_stable,
    Field.plain_stable _ _ _ settingValuesCodec_stable, List.forall_mem_nil _⟩

/-- The blocks of a preset are read as JSON first, and then as an object or as a list. -/
theorem presetBlocksCodec_stable : presetBlocksCodec.Stable := by
  rintro value blocks ⟨depth, node, linked, asJson, read⟩
  have distinct := Node.hasDistinctKeys_of_read node asJson
  intro inner other spells otherLinked within
  have otherJson := spells.read distinct within
  cases node with
  | null after =>
    obtain rfl := Except.ok.inj asJson
    obtain ⟨last, rfl⟩ := Json.exists_of_spells_null spells
    exact read
  | object start fields ending =>
    obtain ⟨entries, _, rfl, _⟩ := Json.exists_of_read_object asJson
    simp only [presetBlocksCodec, asJson] at read
    have inOrder := eq_ok_of_mapError_eq_ok read
    obtain ⟨map, mapRead, rfl⟩ := exists_of_map_eq_ok inOrder
    have again := PresetBlock.codec_stable.map _ _ ⟨depth, _, linked, asJson, mapRead⟩ inner other
      spells otherLinked within
    obtain ⟨_, _, _, rfl, _⟩ := Json.exists_of_spells_object spells
    simp only [presetBlocksCodec, otherJson, again]
    rfl
  | array start items ending =>
    obtain ⟨values, _, rfl, _⟩ := Json.exists_of_read_array asJson
    simp only [presetBlocksCodec, asJson] at read
    have inOrder := eq_ok_of_mapError_eq_ok read
    have again := PresetBlock.codec_stable.list _ _ ⟨depth, _, linked, asJson, inOrder⟩ inner other
      spells otherLinked within
    obtain ⟨_, _, _, rfl, _⟩ := Json.exists_of_spells_array spells
    simp only [presetBlocksCodec, otherJson, again]
    rfl
  | broken stop => contradiction
  | _ =>
    simp only [presetBlocksCodec, asJson] at read
    contradiction

theorem Preset.codec_stable : Preset.shape.codec.Stable := by
  refine Shape.codec_stable (List.cons_ne_nil _ _) ?_
  simp only [Preset.shape, List.forall_mem_cons]
  exact ⟨Field.plain_stable _ _ _ Codec.text_stable,
    Field.plain_stable _ _ _ settingValuesCodec_stable,
    Field.plain_stable _ _ _ presetBlocksCodec_stable, List.forall_mem_nil _⟩

theorem Schema.fields_stable : ∀ field ∈ Schema.shape.fields, field.Stable := by
  simp only [Schema.shape, List.forall_mem_cons]
  exact ⟨Field.plain_stable _ _ _ Codec.text_stable,
    Field.optional_stable _ Codec.text_stable _ _,
    Field.optional_stable _ Codec.text_stable _ _,
    Field.optional_stable _ limitCodec_stable _ _,
    Field.optional_stable _ limitCodec_stable _ _,
    Field.plain_stable _ _ _ Setting.codec_stable.list,
    Field.plain_stable _ _ _ BlockType.codec_stable.list,
    Field.plain_stable _ _ _ Preset.codec_stable.list,
    Field.optional_stable _ Preset.codec_stable _ _,
    List.forall_mem_nil _⟩

/-! ## One field apart from the others -/

theorem Setting.apart_default (default : Option SettingValue) : 
    Setting.shape.Apart "default" fun setting => { setting with default := default } := by
  simp only [Shape.Apart, Setting.shape, List.forall_mem_cons]
  exact ⟨fun _ => (Field.needed_stores _ _ _ _).moves fun _ _ => rfl,
    fun _ => (Field.plain_stores _ _ _ _).moves fun _ _ => rfl,
    fun _ => (Field.plain_stores _ _ _ _).moves fun _ _ => rfl,
    fun different => absurd rfl different,
    fun _ => (Field.optional_stores _ _ _ _).moves fun _ _ => rfl,
    fun _ => (Field.optional_stores _ _ _ _).moves fun _ _ => rfl,
    fun _ => (Field.items_stores _ _ _ _).moves fun _ _ => rfl,
    fun _ => (Field.optional_stores _ _ _ _).moves fun _ _ => rfl,
    fun _ => (Field.optional_stores _ _ _ _).moves fun _ _ => rfl,
    fun _ => (Field.optional_stores _ _ _ _).moves fun _ _ => rfl,
    fun _ => (Field.optional_stores _ _ _ _).moves fun _ _ => rfl,
    fun _ => (Field.optional_stores _ _ _ _).moves fun _ _ => rfl,
    fun _ => (Field.items_stores _ _ _ _).moves fun _ _ => rfl,
    fun _ => (Field.optional_stores _ _ _ _).moves fun _ _ => rfl,
    List.forall_mem_nil _⟩

theorem Setting.keeps_id : Setting.shape.Keeps "id" Setting.id := by
  simp only [Shape.Keeps, Setting.shape, List.forall_mem_cons]
  exact ⟨fun _ => (Field.needed_stores _ _ _ _).keeps fun _ _ => rfl,
    fun different => absurd rfl different,
    fun _ => (Field.plain_stores _ _ _ _).keeps fun _ _ => rfl,
    fun _ => (Field.optional_stores _ _ _ _).keeps fun _ _ => rfl,
    fun _ => (Field.optional_stores _ _ _ _).keeps fun _ _ => rfl,
    fun _ => (Field.optional_stores _ _ _ _).keeps fun _ _ => rfl,
    fun _ => (Field.items_stores _ _ _ _).keeps fun _ _ => rfl,
    fun _ => (Field.optional_stores _ _ _ _).keeps fun _ _ => rfl,
    fun _ => (Field.optional_stores _ _ _ _).keeps fun _ _ => rfl,
    fun _ => (Field.optional_stores _ _ _ _).keeps fun _ _ => rfl,
    fun _ => (Field.optional_stores _ _ _ _).keeps fun _ _ => rfl,
    fun _ => (Field.optional_stores _ _ _ _).keeps fun _ _ => rfl,
    fun _ => (Field.items_stores _ _ _ _).keeps fun _ _ => rfl,
    fun _ => (Field.optional_stores _ _ _ _).keeps fun _ _ => rfl,
    List.forall_mem_nil _⟩

theorem Setting.keeps_type : Setting.shape.Keeps "type" Setting.type := by
  simp only [Shape.Keeps, Setting.shape, List.forall_mem_cons]
  exact ⟨fun different => absurd rfl different,
    fun _ => (Field.plain_stores _ _ _ _).keeps fun _ _ => rfl,
    fun _ => (Field.plain_stores _ _ _ _).keeps fun _ _ => rfl,
    fun _ => (Field.optional_stores _ _ _ _).keeps fun _ _ => rfl,
    fun _ => (Field.optional_stores _ _ _ _).keeps fun _ _ => rfl,
    fun _ => (Field.optional_stores _ _ _ _).keeps fun _ _ => rfl,
    fun _ => (Field.items_stores _ _ _ _).keeps fun _ _ => rfl,
    fun _ => (Field.optional_stores _ _ _ _).keeps fun _ _ => rfl,
    fun _ => (Field.optional_stores _ _ _ _).keeps fun _ _ => rfl,
    fun _ => (Field.optional_stores _ _ _ _).keeps fun _ _ => rfl,
    fun _ => (Field.optional_stores _ _ _ _).keeps fun _ _ => rfl,
    fun _ => (Field.optional_stores _ _ _ _).keeps fun _ _ => rfl,
    fun _ => (Field.items_stores _ _ _ _).keeps fun _ _ => rfl,
    fun _ => (Field.optional_stores _ _ _ _).keeps fun _ _ => rfl,
    List.forall_mem_nil _⟩

theorem Setting.keeps_default : Setting.shape.Keeps "default" Setting.default := by
  simp only [Shape.Keeps, Setting.shape, List.forall_mem_cons]
  exact ⟨fun _ => (Field.needed_stores _ _ _ _).keeps fun _ _ => rfl,
    fun _ => (Field.plain_stores _ _ _ _).keeps fun _ _ => rfl,
    fun _ => (Field.plain_stores _ _ _ _).keeps fun _ _ => rfl,
    fun different => absurd rfl different,
    fun _ => (Field.optional_stores _ _ _ _).keeps fun _ _ => rfl,
    fun _ => (Field.optional_stores _ _ _ _).keeps fun _ _ => rfl,
    fun _ => (Field.items_stores _ _ _ _).keeps fun _ _ => rfl,
    fun _ => (Field.optional_stores _ _ _ _).keeps fun _ _ => rfl,
    fun _ => (Field.optional_stores _ _ _ _).keeps fun _ _ => rfl,
    fun _ => (Field.optional_stores _ _ _ _).keeps fun _ _ => rfl,
    fun _ => (Field.optional_stores _ _ _ _).keeps fun _ _ => rfl,
    fun _ => (Field.optional_stores _ _ _ _).keeps fun _ _ => rfl,
    fun _ => (Field.items_stores _ _ _ _).keeps fun _ _ => rfl,
    fun _ => (Field.optional_stores _ _ _ _).keeps fun _ _ => rfl,
    List.forall_mem_nil _⟩

theorem Schema.apart_settings (settings : List Setting) : 
    Schema.shape.Apart "settings" fun schema => { schema with settings := settings } := by
  simp only [Shape.Apart, Schema.shape, List.forall_mem_cons]
  exact ⟨fun _ => (Field.plain_stores _ _ _ _).moves fun _ _ => rfl,
    fun _ => (Field.optional_stores _ _ _ _).moves fun _ _ => rfl,
    fun _ => (Field.optional_stores _ _ _ _).moves fun _ _ => rfl,
    fun _ => (Field.optional_stores _ _ _ _).moves fun _ _ => rfl,
    fun _ => (Field.optional_stores _ _ _ _).moves fun _ _ => rfl,
    fun different => absurd rfl different,
    fun _ => (Field.plain_stores _ _ _ _).moves fun _ _ => rfl,
    fun _ => (Field.plain_stores _ _ _ _).moves fun _ _ => rfl,
    fun _ => (Field.optional_stores _ _ _ _).moves fun _ _ => rfl,
    List.forall_mem_nil _⟩

theorem Schema.keeps_settings : Schema.shape.Keeps "settings" Schema.settings := by
  simp only [Shape.Keeps, Schema.shape, List.forall_mem_cons]
  exact ⟨fun _ => (Field.plain_stores _ _ _ _).keeps fun _ _ => rfl,
    fun _ => (Field.optional_stores _ _ _ _).keeps fun _ _ => rfl,
    fun _ => (Field.optional_stores _ _ _ _).keeps fun _ _ => rfl,
    fun _ => (Field.optional_stores _ _ _ _).keeps fun _ _ => rfl,
    fun _ => (Field.optional_stores _ _ _ _).keeps fun _ _ => rfl,
    fun different => absurd rfl different,
    fun _ => (Field.plain_stores _ _ _ _).keeps fun _ _ => rfl,
    fun _ => (Field.plain_stores _ _ _ _).keeps fun _ _ => rfl,
    fun _ => (Field.optional_stores _ _ _ _).keeps fun _ _ => rfl,
    List.forall_mem_nil _⟩

end FlatLiquid
