import FlatLiquid.Proofs.Schema.Editing
import FlatLiquid.Schema.Parsing

/-!
Contract: storing defaults in a schema that cannot be read.

Owns:
- the items of a settings list that get another default;
- the templates that storing defaults leaves as they are;
- the schemas that cannot be read and are changed nevertheless.

The editor asks for JSON with a list of settings and for nothing else. A setting without a type, a
field of a wrong kind or a field that is named twice keeps a schema from being read, but does not keep
it from being changed.
-/

namespace FlatLiquid

/-! ## Items that get another default -/

/-- The item is an object with an id that has a value. It stores no resource, and its default is not
the same as the value. -/
structure NeedsDefault (values : SettingValues) (fields : List (String × Json)) (id : String)
    (value : SettingValue) : Prop where
  named : (fields.lookup "id").bind Json.text? = some id
  valued : values.get? id = some value
  storesNoResource : (settingTypeOf fields).isResource = false
  outdated : ∀ stored, fields.lookup "default" = some stored → stored.same value.toJson = false

/-- An item that needs a default gets it, in the place of the one it had. -/
theorem editSetting_of_needsDefault {values : SettingValues} {fields : List (String × Json)}
    {id : String} {value : SettingValue} (needs : NeedsDefault values fields id value) :
    editSetting values fields = .write (putEntry fields "default" value.toJson) := by
  have outdated : (fields.lookup "default").any (Json.same · value.toJson) = false := by
    cases found : fields.lookup "default" with
    | none => rfl
    | some stored => exact needs.outdated stored found
  unfold editSetting
  rw [needs.named]
  simp only [needs.valued, needs.storesNoResource, outdated]
  rfl

theorem isWrite_editSetting_iff {values : SettingValues} {fields : List (String × Json)} :
    (editSetting values fields).isWrite = true ↔ ∃ id value, NeedsDefault values fields id value := by
  constructor
  · intro written
    unfold editSetting at written
    split at written
    · contradiction
    · next id named =>
      split at written
      · contradiction
      · next value valued =>
        split at written
        · contradiction
        · next storesNoResource =>
          simp only at written
          split at written
          · contradiction
          · next outdated =>
            refine ⟨id, value, named, valued, Bool.eq_false_iff.mpr storesNoResource, ?_⟩
            intro stored found
            simpa [found] using outdated
  · rintro ⟨id, value, needs⟩
    rw [editSetting_of_needsDefault needs]
    rfl

/-- An edit changes something exactly if an item of the settings list needs another default. -/
theorem writes_iff {values : SettingValues} {items : List Json} :
    writes values items = true ↔
      ∃ fields id value, .object fields ∈ items ∧ NeedsDefault values fields id value := by
  rw [writes, List.any_map, List.any_eq_true]
  constructor
  · rintro ⟨item, member, written⟩
    cases item with
    | object fields =>
      obtain ⟨id, value, needs⟩ := isWrite_editSetting_iff.mp written
      exact ⟨fields, id, value, member, needs⟩
    | _ => contradiction
  · rintro ⟨fields, id, value, member, needs⟩
    exact ⟨.object fields, member, isWrite_editSetting_iff.mpr ⟨id, value, needs⟩⟩

/-! ## Templates that stay as they are -/

theorem text_withSchema_eq_iff {block : SchemaBlock} {schema : Json} :
    (block.withSchema schema).text = block.text ↔
      (block.withSchema schema).interior = block.interior := by
  have text (interior : List Char) : ({ block with interior := interior } : SchemaBlock).text =
      block.before ++ block.opening ++ (interior ++ (block.closing ++ block.after)) := by
    simp [SchemaBlock.text]
  constructor
  · intro same
    have rest := List.append_cancel_left ((text _).symm.trans (same.trans (text block.interior)))
    exact List.append_cancel_right rest
  · intro same
    exact (text _).trans ((congrArg _ (congrArg (· ++ _) same)).trans (text block.interior).symm)

theorem Schema.ofTemplate?_eq_none_iff {template : List Char} {block : SchemaBlock}
    (found : SchemaBlock.find? template = some block) :
    Schema.ofTemplate? template = none ↔ ∃ fault, Schema.ofInterior block.interior = .error fault := by
  rw [Schema.ofTemplate?, Schema.read, found]
  simp only
  cases Schema.ofInterior block.interior with
  | ok schema =>
    constructor
    · intro none
      exact nomatch (show some schema = .none from none)
    · rintro ⟨_, failed⟩
      contradiction
  | error fault =>
    constructor
    · intro _
      exact ⟨fault, rfl⟩
    · intro _
      rfl

/-- A template whose schema cannot be read stays as it is, except when the schema is JSON with a list
of settings and an item of the list needs another default: then the printed schema takes the place
of the old one. -/
theorem storeDefaults_keeps_malformed_iff (template : List Char) (values : SettingValues) :
    (Schema.ofTemplate? template = none → (storeDefaults template values).template = template) ↔
      ∀ block schemaFields items, SchemaBlock.find? template = some block →
        block.Holds schemaFields items →
        (∃ fault, Schema.ofInterior block.interior = .error fault) →
          ∀ fields id value, .object fields ∈ items → NeedsDefault values fields id value →
            (block.withSchema (editedSchema values schemaFields items)).interior =
              block.interior := by
  constructor
  · intro keeps block schemaFields items found holds failed fields id value member needs
    have written : writes values items = true := writes_iff.mpr ⟨fields, id, value, member, needs⟩
    have same := keeps ((Schema.ofTemplate?_eq_none_iff found).mpr failed)
    rw [storeDefaults_of_holds found holds, if_pos written,
      (SchemaBlock.isFirst_of_find? found).1] at same
    exact text_withSchema_eq_iff.mp same
  · intro condition malformed
    apply Decidable.byContradiction
    intro changed
    obtain ⟨block, schemaFields, items, found, holds, written⟩ := exists_holds_of_changed changed
    obtain ⟨fields, id, value, member, needs⟩ := writes_iff.mp written
    have failed := (Schema.ofTemplate?_eq_none_iff found).mp malformed
    have same := condition block schemaFields items found holds failed fields id value member needs
    apply changed
    rw [storeDefaults_of_holds found holds, if_pos written, (SchemaBlock.isFirst_of_find? found).1]
    exact text_withSchema_eq_iff.mpr same

/-- A setting without a type keeps the schema from being read. Its default is stored nevertheless. -/
theorem storeDefaults_changes_malformed :
    let template := ("\x7b% schema %\x7d\x7b\"settings\":[\x7b\"id\":\"t\"\x7d]\x7d" ++
      "\x7b% endschema %\x7d").toList
    let values : SettingValues := ⟨[("t", .string "Hi")], by decide⟩
    Schema.ofTemplate? template = none ∧ (storeDefaults template values).template ≠ template := by
  intro template values
  have unread : (Schema.ofTemplate? template).isNone = true := by decide +kernel
  exact ⟨Option.isNone_iff_eq_none.mp unread, by decide +kernel⟩

end FlatLiquid
