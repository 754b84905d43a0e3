import FlatLiquid.Proofs.Schema.Malformed
import FlatLiquid.Proofs.Schema.Rereading
import FlatLiquid.Proofs.Schema.RoundTrip

/-!
Contract: storing the same values a second time.

Owns:
- what is left of an edit once it has been made;
- the keys of a schema after its edits, which stay distinct, so that it is parsed as it was printed;
- the second run over the template that the first one has written.

The written default is compared with the value as JSON, so it has to be the same as itself: no object
in it may name a key twice, and no number in it may be NaN. The first is carried by the values, the
second follows from the numbers that are read back.
-/

namespace FlatLiquid

/-! ## Edits that have been made -/

/-- What is left of an edit once it has been made: nothing is written again, and what was refused is
refused again. -/
def SettingEdit.remaining : SettingEdit → SettingEdit
  | .write _ => .keep
  | edit => edit

theorem SettingEdit.isWrite_remaining (edit : SettingEdit) : edit.remaining.isWrite = false := by
  cases edit <;> rfl

theorem SettingEdit.refused?_remaining (edit : SettingEdit) :
    edit.remaining.refused? = edit.refused? := by
  cases edit <;> rfl

section Edits

variable {values : SettingValues} {fields : List (String × Json)} {id : String}
  {value : SettingValue}

theorem settingTypeOf_putEntry_default (fields : List (String × Json)) (default : Json) :
    settingTypeOf (putEntry fields "default" default) = settingTypeOf fields := by
  unfold settingTypeOf
  rw [lookup_putEntry, if_neg (by decide)]

/-- A setting that has got its default is kept. Its id and its type are where they were. -/
theorem editSetting_putEntry (needs : NeedsDefault values fields id value)
    (same : value.toJson.same value.toJson = true) :
    editSetting values (putEntry fields "default" value.toJson) = .keep := by
  have named : ((putEntry fields "default" value.toJson).lookup "id").bind Json.text? = some id := by
    rw [lookup_putEntry, if_neg (by decide)]
    exact needs.named
  have stored : (putEntry fields "default" value.toJson).lookup "default" = some value.toJson := by
    rw [lookup_putEntry, if_pos rfl]
  unfold editSetting
  rw [named]
  simp only [needs.valued, settingTypeOf_putEntry_default, needs.storesNoResource, stored,
    Option.any_some, same]
  rfl

/-- An item that is written is an object, and gets the default that it needs. -/
theorem exists_of_isWrite {item : Json} (written : (editItem values item).isWrite = true) :
    ∃ fields id value, NeedsDefault values fields id value ∧ item = .object fields ∧
      editedItem values item = .object (putEntry fields "default" value.toJson) := by
  cases item with
  | object fields =>
    obtain ⟨id, value, needs⟩ := isWrite_editSetting_iff.mp written
    have edit : editItem values (.object fields) = _ := editSetting_of_needsDefault needs
    refine ⟨fields, id, value, needs, rfl, ?_⟩
    rw [editedItem, edit]
    rfl
  | _ => contradiction

theorem editItem_editedItem {values : KeyedValues} {item : Json}
    (noNaN : (editItem values item).isWrite = true → (editedItem values item).HasNoNaN) :
    editItem values (editedItem values item) = (editItem values item).remaining := by
  by_cases written : (editItem values item).isWrite = true
  · have comparable := noNaN written
    obtain ⟨fields, id, value, needs, rfl, edited⟩ := exists_of_isWrite written
    have edit : editItem values (.object fields) = _ := editSetting_of_needsDefault needs
    rw [edited] at comparable
    have same : value.toJson.same value.toJson = true :=
      value.toJson.same_self (values.hasDistinctKeys_of_get? needs.valued)
        (comparable.of_mem_fields (mem_putEntry_self fields "default" value.toJson))
    rw [edited, edit]
    exact editSetting_putEntry needs same
  · have unwritten : (editItem values item).isWrite = false := Bool.not_eq_true _ ▸ written
    rw [editedItem_of_not_isWrite unwritten]
    cases edit : editItem values item with
    | write fields =>
      rw [edit] at unwritten
      contradiction
    | _ => rfl

/-- The edits of settings that have been edited. -/
theorem map_editItem_editedItem {values : KeyedValues} {items : List Json}
    (noNaN : ∀ item ∈ items, (editItem values item).isWrite = true →
      (editedItem values item).HasNoNaN) :
    (items.map (editedItem values)).map (editItem values) =
      (items.map (editItem values)).map SettingEdit.remaining := by
  rw [List.map_map, List.map_map]
  apply List.map_congr_left
  intro item member
  exact editItem_editedItem (noNaN item member)

theorem writes_of_remaining {items edited : List Json}
    (remaining : edited.map (editItem values) =
      (items.map (editItem values)).map SettingEdit.remaining) :
    writes values edited = false := by
  rw [writes, remaining, List.any_eq_false]
  intro edit member
  obtain ⟨first, _, rfl⟩ := List.mem_map.mp member
  rw [first.isWrite_remaining]
  exact Bool.false_ne_true

theorem refusedIds_of_remaining {items edited : List Json}
    (remaining : edited.map (editItem values) =
      (items.map (editItem values)).map SettingEdit.remaining) :
    refusedIds values edited = refusedIds values items := by
  rw [refusedIds, refusedIds, remaining, List.filterMap_map]
  apply List.filterMap_congr
  intro edit _
  exact edit.refused?_remaining

end Edits

/-! ## Keys of an edited schema -/

namespace Json

theorem hasDistinctKeys_of_parse {text : List Char} {value : Json}
    (parsed : parse text = .ok value) : value.HasDistinctKeys :=
  Node.hasDistinctKeys_of_read _ (read_of_readText parsed).1

theorem hasDistinctKeys_putEntry {fields : List (String × Json)} (key : String) {value : Json}
    (distinct : (Json.object fields).HasDistinctKeys) (new : value.HasDistinctKeys) :
    (Json.object (putEntry fields key value)).HasDistinctKeys := by
  apply hasDistinctKeys_object
  · exact nodup_keys_putEntry key value (distinct fields (mem_parts _))
  · intro field member
    rcases mem_putEntry member with old | same
    · exact distinct.of_mem_fields old
    · rw [same]
      exact new

end Json

theorem hasDistinctKeys_editedItem {values : KeyedValues} {item : Json}
    (itemDistinct : item.HasDistinctKeys) :
    (editedItem values item).HasDistinctKeys := by
  by_cases written : (editItem values item).isWrite = true
  · obtain ⟨fields, id, value, needs, rfl, edited⟩ := exists_of_isWrite written
    rw [edited]
    exact Json.hasDistinctKeys_putEntry "default" itemDistinct
      (values.hasDistinctKeys_of_get? needs.valued)
  · rw [editedItem_of_not_isWrite (Bool.not_eq_true _ ▸ written)]
    exact itemDistinct

theorem SchemaBlock.Holds.hasDistinctKeys_editedSchema {block : SchemaBlock}
    {fields : List (String × Json)} {items : List Json} {values : KeyedValues}
    (holds : block.Holds fields items) :
    (editedSchema values fields items).HasDistinctKeys := by
  have schemaDistinct := Json.hasDistinctKeys_of_parse holds.parsed
  have itemsDistinct := schemaDistinct.of_mem_fields (mem_of_lookup holds.settings)
  apply Json.hasDistinctKeys_putEntry "settings" schemaDistinct
  apply Json.hasDistinctKeys_array
  intro edited member
  obtain ⟨item, inItems, rfl⟩ := List.mem_map.mp member
  exact hasDistinctKeys_editedItem (itemsDistinct.of_mem_items inItems)

/-! ## The second run -/

/-- A block is found where a schema has been written into it, if the schema holds no closing
marker. -/
theorem SchemaBlock.find?_withSchema {block : SchemaBlock} {schema : Json} (isFirst : block.IsFirst)
    (unmarked : ∀ marker, IsMarker endSchemaWord marker → ¬ marker <:+: schema.indented.toList) :
    find? (block.withSchema schema).text = some (block.withSchema schema) :=
  find?_text ((isFirst_withSchema_iff isFirst schema).mpr unmarked)

/-- A schema that has been written is parsed again, with its settings in it. -/
theorem SchemaBlock.holds_withSchema (block : SchemaBlock) {fields : List (String × Json)}
    {items : List Json} (rereadable : (Json.object fields).IsRereadable)
    (distinct : (Json.object fields).HasDistinctKeys)
    (settings : fields.lookup "settings" = some (.array items)) :
    (block.withSchema (.object fields)).Holds fields items where
  parsed := by
    change Json.parse (Text.trim ('\n' :: (Json.object fields).indented.toList ++ ['\n'])) = _
    rw [trim_indented]
    exact Json.parse_indented rereadable.numbers distinct rereadable.within
  settings := settings

/-- Storing the same values twice is storing them once: the second run leaves the template as the
first one has written it, and passes over the same settings. -/
theorem storeDefaults_storeDefaults {template : List Char} {values : KeyedValues}
    (rereadable : ∀ block fields items, SchemaBlock.find? template = some block →
      block.Holds fields items → writes values items = true →
        (editedSchema values fields items).IsRereadable) :
    storeDefaults (storeDefaults template values).template values =
      storeDefaults template values := by
  by_cases changed : (storeDefaults template values).template = template
  · rw [changed]
  · obtain ⟨block, fields, items, found, holds, written⟩ := exists_holds_of_changed changed
    have again := rereadable block fields items found holds written
    have first : storeDefaults template values =
        ⟨(block.withSchema (editedSchema values fields items)).text, refusedIds values items⟩ := by
      rw [storeDefaults_of_holds found holds, if_pos written]
    have foundAgain :=
      SchemaBlock.find?_withSchema (SchemaBlock.isFirst_of_find? found).2 again.unmarked
    have holdsAgain : (block.withSchema (editedSchema values fields items)).Holds _
        (items.map (editedItem values)) :=
      block.holds_withSchema again holds.hasDistinctKeys_editedSchema
        (by rw [lookup_putEntry, if_pos rfl])
    have noNaN : ∀ item ∈ items, (editItem values item).isWrite = true →
        (editedItem values item).HasNoNaN := by
      intro item member _
      have inSettings := again.numbers.of_mem_fields
        (mem_putEntry_self fields "settings" (.array (items.map (editedItem values))))
      exact (inSettings.of_mem_items (List.mem_map_of_mem member)).hasNoNaN
    have remaining := map_editItem_editedItem noNaN
    rw [first, storeDefaults_of_holds foundAgain holdsAgain, writes_of_remaining remaining,
      refusedIds_of_remaining remaining]
    rfl

/-- Two settings share an id, whose value is an object, a number is a zero below zero, and a product
has a value. The first run writes three defaults and reports the product, and the second one writes
nothing and reports it again. -/
theorem storeDefaults_storeDefaults_of_gallery :
    let items : List Json :=
      [.object [("id", .string "t"), ("default", .string "old")],
        .object [("type", .string "range"), ("id", .string "n")],
        .object [("type", .string "product"), ("id", .string "p")],
        .object [("id", .string "t")]]
    let values : KeyedValues :=
      { entries := [("t", .unsupported (.object [("b", .array [.bool true]), ("a", .null)])),
          ("n", .number (-0.0)), ("p", .string "cap")]
        distinct := by decide
        keyed := by decide +kernel }
    let block : SchemaBlock := SchemaBlock.withSchema
      ⟨[], "\x7b% schema %\x7d".toList, [], "\x7b% endschema %\x7d".toList, []⟩
      (.object [("settings", .array items)])
    let update := storeDefaults block.text values
    writes values items = true ∧
      (editedSchema values [("settings", .array items)] items).IsRereadable ∧
      update.unsupported = ["p"] ∧ storeDefaults update.template values = update := by
  intro items values block update
  have unmarked {json : Json} (none : cutAtMarker? endSchemaWord (json.printIndented 0) = none) :
      ∀ marker, IsMarker endSchemaWord marker → ¬ marker <:+: json.indented.toList := by
    rw [Json.indented, String.toList_ofList]
    exact (cutAtMarker?_eq_none_iff isWord_endSchemaWord).mp none
  have written : (Json.object [("settings", .array items)]).IsRereadable :=
    { unmarked := unmarked (by decide +kernel)
      within := by decide +kernel
      numbers := .of_no_number (by decide +kernel) }
  have rereadable : (editedSchema values [("settings", .array items)] items).IsRereadable :=
    { unmarked := unmarked (by decide +kernel)
      within := by decide +kernel
      numbers := by
        apply Json.numbersReadBack_of_numbers
        have zeros : (editedSchema values [("settings", .array items)] items).numbers.all
            (·.same (.whole 0)) = true := by decide +kernel
        intro number member
        have same := List.all_eq_true.mp zeros number member
        cases number with
        | whole value =>
          obtain rfl : value = 0 := beq_iff_eq.mp same
          rfl
        | real x => exact absurd same Bool.false_ne_true }
  have empty : SchemaBlock.find? "\x7b% schema %\x7d\x7b% endschema %\x7d".toList =
      some ⟨[], "\x7b% schema %\x7d".toList, [], "\x7b% endschema %\x7d".toList, []⟩ := by
    decide +kernel
  have found : SchemaBlock.find? block.text = some block :=
    SchemaBlock.find?_withSchema (SchemaBlock.isFirst_of_find? empty).2 written.unmarked
  have holds : block.Holds [("settings", .array items)] items :=
    SchemaBlock.holds_withSchema _ written (by decide +kernel) rfl
  have refused : update = ⟨_, refusedIds values items⟩ := storeDefaults_of_holds found holds
  refine ⟨by decide +kernel, rereadable, ?_, ?_⟩
  · rw [refused]
    decide +kernel
  · apply storeDefaults_storeDefaults
    intro other fields others foundOther holdsOther _
    obtain rfl : block = other := Option.some.inj (found.symm.trans foundOther)
    obtain rfl : [("settings", Json.array items)] = fields :=
      Json.object.inj (Except.ok.inj (holds.parsed.symm.trans holdsOther.parsed))
    obtain rfl : items = others :=
      Json.array.inj (Option.some.inj (holds.settings.symm.trans holdsOther.settings))
    exact rereadable

end FlatLiquid
