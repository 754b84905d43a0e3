import FlatLiquid.Proofs.Schema.Decoding
import FlatLiquid.Proofs.Schema.Editing
import FlatLiquid.Proofs.Schema.Fitting
import FlatLiquid.Proofs.Schema.Values
import FlatLiquid.Schema.Parsing

/-!
Contract: the schema that is read after values have been stored as defaults.

Owns:
- the edit of a setting, told by the setting that its JSON is read as;
- what may become of a setting, and what becomes of it;
- the schema of the written template.

The editor looks up the id, the type and the default of a setting in JSON, and the reader of schemas
finds them among the fields of a structure. Both find the same, since the structure follows from the
fields of the object one by one.
-/

namespace FlatLiquid

open Json (Codec Shape Node)

/-! ## One setting -/

/-- The default that is read from JSON. -/
def defaultOf : Json → Option SettingValue
  | .null => none
  | value => some (.ofJson value)

theorem defaultOf_of_ne_null {value : Json} (other : value ≠ .null) :
    defaultOf value = some (.ofJson value) := by
  cases value with
  | null => exact absurd rfl other
  | _ => rfl

namespace Setting

/-- The field of a setting that holds its default. -/
def defaultField : Json.Field Setting :=
  .optional "default" SettingValue.codec Setting.default
    fun setting default => { setting with default := default }

theorem field?_default : Setting.shape.field? "default" = some defaultField := rfl

theorem field?_id : Setting.shape.field? "id" =
    some (.plain "id" .text Setting.id fun setting id => { setting with id := id }) := rfl

theorem field?_type : Setting.shape.field? "type" =
    some (.needed "type" SettingType.codec Setting.type
      fun setting type => { setting with type := type }) := rfl

/-- A default is read from JSON that names no key twice. -/
theorem defaultField_decodes {value : Json} (distinct : value.HasDistinctKeys) :
    defaultField.Decodes value fun setting => { setting with default := defaultOf value } := by
  by_cases null : value = .null
  · subst null
    intro depth node spells _ _ before
    cases spells
    rfl
  · rw [defaultOf_of_ne_null null]
    exact Json.Field.optional_decodes _ _ _ null (SettingValue.codec_decodes distinct)

theorem default_of_reads {value : Json} {update : Setting → Setting}
    (reads : defaultField.Reads value update) (setting : Setting) :
    (update setting).default = defaultOf value := by
  obtain ⟨depth, node, linked, asJson, read⟩ := reads
  have here := read setting
  by_cases null : ∃ place, node = .null place
  · obtain ⟨place, rfl⟩ := null
    obtain rfl := Except.ok.inj asJson
    rw [← Except.ok.inj here]
    rfl
  · have other : ∀ place, node ≠ .null place := fun place same => null ⟨place, same⟩
    rw [defaultField, Json.Field.optional_of_not_null _ _ _ _ depth other] at here
    obtain ⟨stored, decoded, same⟩ := exists_of_map_eq_ok here
    have fromJson := SettingValue.eq_ofJson_of_reads ⟨depth, node, linked, asJson, decoded⟩
    have notNull : value ≠ .null := by
      rintro rfl
      exact null (Json.exists_of_read_null asJson)
    rw [← same, defaultOf_of_ne_null notNull, fromJson]

variable {values : SettingValues} {fields : List (String × Json)} {setting : Setting}

/-- The editor finds the id of the setting, where a missing one counts as empty. -/
theorem id_eq_of_reads (reads : Setting.shape.codec.Reads (.object fields) setting) :
    setting.id = ((fields.lookup "id").bind Json.text?).getD "" := by
  obtain ⟨follows, distinct, _⟩ := Shape.follows_of_reads Setting.fields_stable reads
  rcases Shape.follows_lookup field?_id keeps_id distinct follows with
    ⟨missing, blank⟩ | ⟨value, update, middle, found, ⟨depth, node, linked, asJson, read⟩, same⟩
  · rw [missing, blank]
    rfl
  · obtain ⟨text, decoded, changed⟩ := exists_of_map_eq_ok (read middle)
    have named : value = .string text :=
      Codec.eq_string_of_reads ⟨depth, node, linked, asJson, decoded⟩
    rw [found, same, ← changed, named]
    rfl

theorem type_eq_of_reads (reads : Setting.shape.codec.Reads (.object fields) setting) :
    setting.type = settingTypeOf fields := by
  obtain ⟨follows, distinct, _⟩ := Shape.follows_of_reads Setting.fields_stable reads
  rcases Shape.follows_lookup field?_type keeps_type distinct follows with
    ⟨missing, blank⟩ | ⟨value, update, middle, found, ⟨depth, node, linked, asJson, read⟩, same⟩
  · rw [settingTypeOf, missing, blank]
    rfl
  · obtain ⟨type, decoded, changed⟩ := exists_of_map_eq_ok (read middle)
    obtain ⟨name, named, rfl⟩ :=
      SettingType.exists_of_reads ⟨depth, node, linked, asJson, decoded⟩
    rw [settingTypeOf, found, same, ← changed, Codec.eq_string_of_reads named]
    rfl

theorem default_eq_of_reads {value : Json} (found : fields.lookup "default" = some value)
    (reads : Setting.shape.codec.Reads (.object fields) setting) :
    setting.default = defaultOf value := by
  obtain ⟨follows, distinct, _⟩ := Shape.follows_of_reads Setting.fields_stable reads
  rcases Shape.follows_lookup field?_default keeps_default distinct follows with
    ⟨missing, _⟩ | ⟨other, update, middle, there, readsField, same⟩
  · rw [missing] at found
    contradiction
  · obtain rfl : other = value := Option.some.inj (there.symm.trans found)
    rw [same]
    exact default_of_reads readsField middle

/-- The edit of a setting in JSON, told by the setting. -/
theorem editSetting_of_reads (noEmptyKey : values.get? "" = none)
    (reads : Setting.shape.codec.Reads (.object fields) setting) :
    editSetting values fields =
      match values.get? setting.id with
      | none => .keep
      | some value =>
        if setting.type.isResource then .refuse setting.id
        else if (fields.lookup "default").any (Json.same · value.toJson) then .keep
        else .write (putEntry fields "default" value.toJson) := by
  rw [editSetting, id_eq_of_reads reads, type_eq_of_reads reads]
  cases (fields.lookup "id").bind Json.text? with
  | none =>
    rw [Option.getD_none, noEmptyKey]
  | some id => rfl

/-- What becomes of a setting. A value of a setting that stores no resource becomes the default, and
all else stays. The stored value is the same as the given one, though a zero may lose its sign and an
object that has been there before may name its fields in another order. -/
def IsUpdated (values : SettingValues) (before after : Setting) : Prop :=
  after = { before with default := after.default } ∧
    match values.get? before.id with
    | none => after.default = before.default
    | some value =>
      if before.type.isResource then after.default = before.default
      else if value.isAbsent then after.default = none
      else ∃ stored, after.default = some stored ∧ stored.same value = true

theorem default_of_same {value : SettingValue} {json : Json} (sound : value.IsSound)
    (same : json.same value.toJson = true) :
    if value.isAbsent then defaultOf json = none
    else ∃ stored, defaultOf json = some stored ∧ stored.same value = true := by
  have stands := SettingValue.ofJson_same sound same
  split at stands
  · next absent =>
    rw [if_pos absent, stands]
    rfl
  · next present =>
    rw [if_neg present]
    exact ⟨_, defaultOf_of_ne_null stands.1, stands.2⟩

/-- The JSON of a setting after its edit is read as a setting that comes of it. An edit that writes
nothing changes nothing. -/
structure EditsTo (values : SettingValues) (item : Json) (before after : Setting) : Prop where
  decodes : Setting.shape.codec.Decodes (editedItem values item) after
  updated : before.IsUpdated values after
  kept : (editItem values item).isWrite = false → after = before

theorem editsTo_self {item : Json} (unwritten : (editItem values item).isWrite = false)
    (reads : Setting.shape.codec.Reads item setting) (updated : setting.IsUpdated values setting) :
    setting.EditsTo values item setting where
  decodes := by
    rw [editedItem_of_not_isWrite unwritten]
    exact Setting.codec_stable _ _ reads
  updated := updated
  kept := fun _ => rfl

/-- A setting whose default is exchanged in JSON is read with the new default. -/
theorem decodes_putEntry {value : Json} (distinct : value.HasDistinctKeys)
    (reads : Setting.shape.codec.Reads (.object fields) setting) :
    Setting.shape.codec.Decodes (.object (putEntry fields "default" value))
      { setting with default := defaultOf value } := by
  obtain ⟨follows, fieldsDistinct, complete⟩ :=
    Shape.follows_of_reads Setting.fields_stable reads
  refine Shape.decodes_of_follows (nodup_keys_putEntry _ _ fieldsDistinct) ?_ ?_
  · intro field member required
    rw [mem_keys_putEntry]
    exact Or.inr (complete field member required)
  · refine Shape.follows_putEntry field?_default (defaultField_decodes distinct) ?_
      (apart_default _) fieldsDistinct follows
    intro depth node before after read
    obtain ⟨stored, rfl, _⟩ := Json.Field.optional_stores _ _ _ _ depth node before after read
    rfl

theorem exists_editsTo {values : SoundValues} (noEmptyKey : values.get? "" = none)
    (reads : Setting.shape.codec.Reads (.object fields) setting)
    (readBack : (editItem values (.object fields)).isWrite = true →
      (editedItem values (.object fields)).NumbersReadBack) :
    ∃ edited, setting.EditsTo values (.object fields) edited := by
  have edit : editItem values (.object fields) = _ := editSetting_of_reads noEmptyKey reads
  cases there : values.get? setting.id with
  | none =>
    rw [there] at edit
    refine ⟨setting, editsTo_self (by rw [edit]; rfl) reads ⟨rfl, ?_⟩⟩
    rw [there]
  | some value =>
    rw [there] at edit
    simp only at edit
    by_cases resource : setting.type.isResource = true
    · rw [if_pos resource] at edit
      refine ⟨setting, editsTo_self (by rw [edit]; rfl) reads ⟨rfl, ?_⟩⟩
      rw [there]
      simp only [if_pos resource]
    · rw [if_neg resource] at edit
      have isUpdated {json : Json} (same : json.same value.toJson = true) :
          setting.IsUpdated values { setting with default := defaultOf json } := by
        refine ⟨rfl, ?_⟩
        rw [there]
        simp only [if_neg resource]
        exact default_of_same (values.isSound_of_get? there) same
      by_cases same : (fields.lookup "default").any (Json.same · value.toJson) = true
      · rw [if_pos same] at edit
        obtain ⟨json, found, sameJson⟩ := (Option.any_eq_true _ _).mp same
        have stays := isUpdated sameJson
        rw [← default_eq_of_reads found reads] at stays
        exact ⟨setting, editsTo_self (by rw [edit]; rfl) reads stays⟩
      · rw [if_neg same] at edit
        have written : editedItem values (.object fields) =
            .object (putEntry fields "default" value.toJson) := by
          rw [editedItem, edit]
          rfl
        have distinct := values.hasDistinctKeys_of_get? there
        have numbers : value.toJson.NumbersReadBack := by
          have all := readBack (by rw [edit]; rfl)
          rw [written] at all
          exact all.of_mem_fields (mem_putEntry_self fields "default" value.toJson)
        refine ⟨{ setting with default := defaultOf value.toJson }, ?_,
          isUpdated (Json.same_self _ distinct numbers.hasNoNaN), ?_⟩
        · rw [written]
          exact decodes_putEntry distinct reads
        · rw [edit]
          intro unwritten
          contradiction

/-- The id that the editor refuses is that of a setting that stores a resource and has a value. -/
theorem refused?_of_reads (noEmptyKey : values.get? "" = none)
    (reads : Setting.shape.codec.Reads (.object fields) setting) :
    (editItem values (.object fields)).refused? =
      if setting.type.isResource && (values.get? setting.id).isSome then some setting.id
      else none := by
  have edit : editItem values (.object fields) = _ := editSetting_of_reads noEmptyKey reads
  rw [edit]
  cases values.get? setting.id with
  | none => simp [SettingEdit.refused?]
  | some value =>
    cases setting.type.isResource with
    | true => rfl
    | false =>
      simp only [Bool.false_and, Bool.false_eq_true, if_false]
      split <;> rfl

end Setting

/-! ## The settings of a schema -/

/-- The settings that are passed over: they store resources and have values. -/
def Schema.refusedIds (schema : Schema) (values : SettingValues) : List String :=
  (schema.settings.filter fun setting =>
    setting.type.isResource && (values.get? setting.id).isSome).map Setting.id

/-- Every item of the settings list is an object. -/
def AreObjects (items : List Json) : Prop :=
  ∀ item ∈ items, ∃ fields, item = .object fields

theorem AreObjects.tail {item : Json} {items : List Json} (objects : AreObjects (item :: items)) :
    AreObjects items :=
  fun other member => objects other (List.mem_cons_of_mem _ member)

section Settings

variable {values : SettingValues} {items : List Json} {settings : List Setting}

theorem filterMap_refused? (noEmptyKey : values.get? "" = none) (objects : AreObjects items)
    (reads : List.Forall₂ Setting.shape.codec.Reads items settings) :
    refusedIds values items =
      (settings.filter fun setting =>
        setting.type.isResource && (values.get? setting.id).isSome).map Setting.id := by
  induction reads with
  | nil => rfl
  | @cons item setting items settings first rest inductionHypothesis =>
    obtain ⟨fields, rfl⟩ := objects item List.mem_cons_self
    have others := inductionHypothesis objects.tail
    rw [refusedIds] at others ⊢
    rw [List.map_cons, List.filterMap_cons, Setting.refused?_of_reads noEmptyKey first, others,
      List.filter_cons]
    split
    · next absent =>
      split at absent
      · contradiction
      · next unfit => rw [if_neg unfit]
    · next id present =>
      split at present
      · next fit =>
        obtain rfl := Option.some.inj present
        rw [if_pos fit]
        rfl
      · contradiction

theorem exists_settings {values : SoundValues} (noEmptyKey : values.get? "" = none)
    (objects : AreObjects items)
    (reads : List.Forall₂ Setting.shape.codec.Reads items settings)
    (readBack : ∀ item ∈ items, (editItem values item).isWrite = true →
      (editedItem values item).NumbersReadBack) :
    ∃ edited, List.Forall₂ Setting.shape.codec.Decodes (items.map (editedItem values)) edited ∧
      List.Forall₂ (Setting.IsUpdated values) settings edited ∧
      (writes values items = false → edited = settings) := by
  induction reads with
  | nil => exact ⟨[], .nil, .nil, fun _ => rfl⟩
  | @cons item setting items settings first rest inductionHypothesis =>
    obtain ⟨fields, rfl⟩ := objects item List.mem_cons_self
    obtain ⟨edited, editsTo⟩ :=
      Setting.exists_editsTo noEmptyKey first (readBack _ List.mem_cons_self)
    obtain ⟨others, decodes, updated, kept⟩ := inductionHypothesis objects.tail
      fun item member => readBack item (List.mem_cons_of_mem _ member)
    refine ⟨edited :: others, .cons editsTo.decodes decodes, .cons editsTo.updated updated, ?_⟩
    intro unwritten
    rw [writes, List.map_cons, List.any_cons, Bool.or_eq_false_iff] at unwritten
    rw [editsTo.kept unwritten.1, kept unwritten.2]

end Settings

/-! ## The schema of the written template -/

theorem Schema.field?_settings : Schema.shape.field? "settings" =
    some (.plain "settings" (.list Setting.shape.codec) Schema.settings
      fun schema settings => { schema with settings := settings }) := rfl

/-- A schema whose settings are exchanged in JSON is read with the new settings. -/
theorem Schema.decodes_putEntry {fields : List (String × Json)} {schema : Schema} {value : Json}
    {settings : List Setting} (decodes : (Codec.list Setting.shape.codec).Decodes value settings)
    (reads : Schema.shape.codec.Reads (.object fields) schema) :
    Schema.shape.codec.Decodes (.object (putEntry fields "settings" value))
      { schema with settings := settings } := by
  obtain ⟨follows, fieldsDistinct, complete⟩ := Shape.follows_of_reads Schema.fields_stable reads
  have fieldDecodes := Json.Field.plain_decodes "settings" Schema.settings
    (fun schema settings => { schema with settings := settings }) decodes
  refine Shape.decodes_of_follows (nodup_keys_putEntry _ _ fieldsDistinct) ?_ ?_
  · intro field member required
    rw [mem_keys_putEntry]
    exact Or.inr (complete field member required)
  · refine Shape.follows_putEntry Schema.field?_settings fieldDecodes ?_
      (Schema.apart_settings _) fieldsDistinct follows
    intro depth node before after read
    obtain ⟨stored, rfl, _⟩ := Json.Field.plain_stores _ _ _ _ depth node before after read
    rfl

theorem Schema.settings_of_reads {fields : List (String × Json)} {schema : Schema}
    (reads : Schema.shape.codec.Reads (.object fields) schema) :
    (fields.lookup "settings" = none ∧ schema.settings = []) ∨
      ∃ items, fields.lookup "settings" = some (.array items) ∧
        List.Forall₂ Setting.shape.codec.Reads items schema.settings := by
  obtain ⟨follows, distinct, _⟩ := Shape.follows_of_reads Schema.fields_stable reads
  rcases Shape.follows_lookup Schema.field?_settings Schema.keeps_settings distinct follows with
    ⟨missing, blank⟩ | ⟨value, update, middle, found, ⟨depth, node, linked, asJson, read⟩, same⟩
  · exact Or.inl ⟨missing, blank⟩
  · obtain ⟨settings, decoded, changed⟩ := exists_of_map_eq_ok (read middle)
    have listReads : (Codec.list Setting.shape.codec).Reads value settings :=
      ⟨depth, node, linked, asJson, decoded⟩
    obtain ⟨items, rfl, each⟩ := listReads.exists_array
    refine Or.inr ⟨items, found, ?_⟩
    rw [same, ← changed]
    exact each

/-- A printed object is what is left of the lines that it is written on. -/
theorem trim_indented (fields : List (String × Json)) :
    Text.trim ('\n' :: (Json.object fields).indented.toList ++ ['\n']) =
      (Json.object fields).indented.toList := by
  have shape : ∃ inner, (Json.object fields).indented.toList = '\x7b' :: inner ++ ['\x7d'] := by
    rw [Json.toList_indented]
    cases fields with
    | nil => exact ⟨[], rfl⟩
    | cons first rest =>
      rw [Json.Layout.print_object]
      exact ⟨_, rfl⟩
  obtain ⟨inner, shape⟩ := shape
  rw [shape]
  have lineEnd : ['\n'].all Text.isBlank = true := rfl
  have trimmed : Text.IsTrimmed ('\x7b' :: inner ++ ['\x7d']) := by
    constructor
    · intro c isFirst
      obtain rfl := Option.some.inj isFirst
      rfl
    · intro c isLast
      rw [List.getLast?_append] at isLast
      obtain rfl := Option.some.inj isLast
      rfl
  exact trimmed.trim_surrounded lineEnd lineEnd

/-- The printed form of a schema is found and read again: it holds no closing marker, its brackets
nest within the limit, and its numbers are read as they were. -/
structure Json.IsRereadable (schema : Json) : Prop where
  unmarked : ∀ marker, IsMarker endSchemaWord marker → ¬ marker <:+: schema.indented.toList
  within : schema.nesting < Json.depthLimit
  numbers : schema.NumbersReadBack

/-- A schema that is decoded from JSON is read from the block into which the JSON is written. -/
theorem Schema.ofTemplate?_withSchema {block : SchemaBlock} (isFirst : block.IsFirst)
    {fields : List (String × Json)} {schema : Schema} (rereadable : (Json.object fields).IsRereadable)
    (decodes : Schema.shape.codec.Decodes (.object fields) schema) :
    Schema.ofTemplate? (block.withSchema (.object fields)).text = some schema := by
  have writtenFirst := (SchemaBlock.isFirst_withSchema_iff isFirst (.object fields)).mpr
    rereadable.unmarked
  rw [Schema.ofTemplate?_eq_some_iff (SchemaBlock.find?_text writtenFirst)]
  obtain ⟨node, spells, linked, reads⟩ := Json.exists_node_indented rereadable.numbers
  have depth : 0 + (Json.object fields).nesting < Json.depthLimit := by
    rw [Nat.zero_add]
    exact rereadable.within
  change Schema.ofInterior ('\n' :: (Json.object fields).indented.toList ++ ['\n']) = _
  rw [Schema.ofInterior, trim_indented, Codec.parse, reads, decodes 0 node spells linked depth]
  rfl

theorem Schema.reads_of_parsed {interior : List Char} {value : Json} {schema : Schema}
    (parsed : Json.parse (Text.trim interior) = .ok value)
    (decoded : Schema.ofInterior interior = .ok schema) : Schema.shape.codec.Reads value schema := by
  have decodedText := eq_ok_of_mapError_eq_ok (eq_ok_of_mapError_eq_ok decoded)
  exact ⟨0, _, (Json.linked_scan _).1 _, (Json.read_of_readText parsed).1,
    (Json.read_of_readText decodedText).1⟩

/-- Storing defaults and reading the template again gives the schema with the values as defaults. The
settings stay in their order, and only the default of a setting that has a value and stores no
resource changes. The settings that store resources and have values are reported. -/
theorem storeDefaults_read_again {template : List Char} {values : SoundValues}
    {block : SchemaBlock} {fields : List (String × Json)} {schema : Schema}
    (found : SchemaBlock.find? template = some block)
    (parsed : Json.parse (Text.trim block.interior) = .ok (.object fields))
    (decoded : Schema.ofTemplate? template = some schema)
    (objects : ∀ items, fields.lookup "settings" = some (.array items) → AreObjects items)
    (noEmptyKey : values.get? "" = none)
    (rereadable : ∀ items, fields.lookup "settings" = some (.array items) →
      writes values items = true → (editedSchema values fields items).IsRereadable) :
    let update := storeDefaults template values
    ∃ edited, Schema.ofTemplate? update.template = some edited ∧
      edited = { schema with settings := edited.settings } ∧
      List.Forall₂ (Setting.IsUpdated values) schema.settings edited.settings ∧
      update.unsupported = schema.refusedIds values := by
  intro update
  have interior := (Schema.ofTemplate?_eq_some_iff found schema).mp decoded
  have reads := Schema.reads_of_parsed parsed interior
  rcases Schema.settings_of_reads reads with ⟨missing, none⟩ | ⟨items, settings, each⟩
  · have unchanged : update = ⟨template, []⟩ := by
      simp only [update, storeDefaults, found, parsed, missing]
    rw [unchanged]
    refine ⟨schema, decoded, rfl, ?_, ?_⟩
    · rw [none]
      exact .nil
    · rw [Schema.refusedIds, none]
      rfl
  · have holds : block.Holds fields items := ⟨parsed, settings⟩
    have isUpdate : update = ⟨_, _⟩ := storeDefaults_of_holds found holds
    have refused := filterMap_refused? noEmptyKey (objects items settings) each
    rw [isUpdate]
    by_cases written : writes values items = true
    · have again := rereadable items settings written
      have readBack : ∀ item ∈ items, (editItem values item).isWrite = true →
          (editedItem values item).NumbersReadBack := by
        intro item member _
        have inSettings := again.numbers.of_mem_fields
          (mem_putEntry_self fields "settings" (.array (items.map (editedItem values))))
        exact inSettings.of_mem_items (List.mem_map_of_mem member)
      obtain ⟨edited, decodes, updated, _⟩ :=
        exists_settings noEmptyKey (objects items settings) each readBack
      have isFirst := (SchemaBlock.isFirst_of_find? found).2
      have schemaDecodes := Schema.decodes_putEntry (Codec.Decodes.list decodes) reads
      refine ⟨{ schema with settings := edited }, ?_, rfl, updated, refused⟩
      rw [if_pos written]
      exact Schema.ofTemplate?_withSchema isFirst again schemaDecodes
    · have readBack : ∀ item ∈ items, (editItem values item).isWrite = true →
          (editedItem values item).NumbersReadBack := by
        intro item member isWrite
        exact absurd (List.any_eq_true.mpr ⟨_, List.mem_map_of_mem member, isWrite⟩) written
      obtain ⟨edited, _, updated, kept⟩ :=
        exists_settings noEmptyKey (objects items settings) each readBack
      obtain rfl := kept (Bool.not_eq_true _ ▸ written)
      rw [if_neg written]
      exact ⟨schema, decoded, rfl, updated, refused⟩

/-- A text and a product have values. The text gets its value as the default, and the product is
reported. -/
theorem storeDefaults_read_again_of_greeting :
    let items : List Json :=
      [.object [("type", .string "text"), ("id", .string "t")],
        .object [("type", .string "product"), ("id", .string "p")]]
    let values : SoundValues :=
      { entries := [("t", .string "Hi"), ("p", .string "cap")]
        distinct := by decide
        sound := by simp [SettingValue.IsSound] }
    let block : SchemaBlock := SchemaBlock.withSchema
      ⟨[], "\x7b% schema %\x7d".toList, [], "\x7b% endschema %\x7d".toList, []⟩
      (.object [("settings", .array items)])
    let update := storeDefaults block.text values
    writes values items = true ∧ update.unsupported = ["p"] ∧
      ∃ schema edited, Schema.ofTemplate? block.text = some schema ∧
        Schema.ofTemplate? update.template = some edited ∧
        edited = { schema with settings := edited.settings } ∧
        List.Forall₂ (Setting.IsUpdated values) schema.settings edited.settings := by
  intro items values block update
  let fields : List (String × Json) := [("settings", .array items)]
  have unmarked {json : Json} (none : cutAtMarker? endSchemaWord json.indented.toList = none) :=
    (cutAtMarker?_eq_none_iff isWord_endSchemaWord).mp none
  have found : SchemaBlock.find? block.text = some block := by
    have empty : SchemaBlock.find? "\x7b% schema %\x7d\x7b% endschema %\x7d".toList =
        some ⟨[], "\x7b% schema %\x7d".toList, [], "\x7b% endschema %\x7d".toList, []⟩ := by
      decide +kernel
    have isFirst := (SchemaBlock.isFirst_of_find? empty).2
    exact SchemaBlock.find?_text ((SchemaBlock.isFirst_withSchema_iff isFirst (.object fields)).mpr
      (unmarked (by decide +kernel)))
  have parsed : Json.parse (Text.trim block.interior) = .ok (.object fields) := by
    change Json.parse (Text.trim ('\n' :: (Json.object fields).indented.toList ++ ['\n'])) = _
    rw [trim_indented]
    exact Json.parse_indented (.of_no_number (by decide +kernel)) (by decide +kernel)
      (by decide +kernel)
  have readable : (Schema.ofTemplate? block.text).isSome = true := by decide +kernel
  obtain ⟨schema, decoded⟩ := Option.isSome_iff_exists.mp readable
  have isItems {others : List Json} (there : fields.lookup "settings" = some (.array others)) :
      others = items :=
    Json.array.inj (Option.some.inj there).symm
  have objects : AreObjects items := by
    intro item member
    rcases List.mem_cons.mp member with rfl | member
    · exact ⟨_, rfl⟩
    · exact ⟨_, List.mem_singleton.mp member⟩
  have rereadable : (editedSchema values fields items).IsRereadable :=
    { unmarked := unmarked (by decide +kernel)
      within := by decide +kernel
      numbers := .of_no_number (by decide +kernel) }
  have refused : update = ⟨_, refusedIds values items⟩ := storeDefaults_of_holds found ⟨parsed, rfl⟩
  obtain ⟨edited, again, same, updated, _⟩ := storeDefaults_read_again found parsed decoded
    (fun others there => isItems there ▸ objects) rfl
    (fun others there _ => isItems there ▸ rereadable)
  exact ⟨by decide +kernel, by rw [refused]; decide +kernel, schema, edited, decoded, again, same,
    updated⟩

end FlatLiquid
