import FlatLiquid.Schema.Editing
import FlatLiquid.Proofs.Schema.Block

/-!
Contract: what storing defaults does to the template around a schema.

Owns:
- the schema that is written, and the block that it is written into;
- the condition under which the written block is found again: no string of the schema may put a
  closing marker into the printed text.

The printer escapes what JSON asks for and nothing else, so a marker in a value gets into the
template as it is.
-/

namespace FlatLiquid

/-- An item of the settings list after its edit. -/
def editedItem (values : SettingValues) (item : Json) : Json :=
  (editItem values item).apply item

/-- An edit that writes nothing leaves the item as it is. -/
theorem editedItem_of_not_isWrite {values : SettingValues} {item : Json}
    (unwritten : (editItem values item).isWrite = false) : editedItem values item = item := by
  rw [editedItem]
  cases edit : editItem values item with
  | write fields =>
    rw [edit] at unwritten
    contradiction
  | _ => rfl

/-- A schema with its settings after their edits. -/
def editedSchema (values : SettingValues) (fields : List (String × Json)) (items : List Json) : Json :=
  .object (putEntry fields "settings" (.array (items.map (editedItem values))))

/-- A block with a printed schema in place of its interior. -/
def SchemaBlock.withSchema (block : SchemaBlock) (schema : Json) : SchemaBlock :=
  { block with interior := '\n' :: schema.indented.toList ++ ['\n'] }

/-- The schema of a template is JSON with a list of settings. -/
structure SchemaBlock.Holds (block : SchemaBlock) (fields : List (String × Json))
    (items : List Json) : Prop where
  parsed : Json.parse (Text.trim block.interior) = .ok (.object fields)
  settings : fields.lookup "settings" = some (.array items)

/-- One of the edits changes its item. -/
def writes (values : SettingValues) (items : List Json) : Bool :=
  (items.map (editItem values)).any SettingEdit.isWrite

/-- The ids of the settings that are passed over. -/
def refusedIds (values : SettingValues) (items : List Json) : List String :=
  (items.map (editItem values)).filterMap SettingEdit.refused?

theorem storeDefaults_of_holds {template : List Char} {values : SettingValues} {block : SchemaBlock}
    {fields : List (String × Json)} {items : List Json}
    (found : SchemaBlock.find? template = some block) (holds : block.Holds fields items) :
    storeDefaults template values =
      ⟨if writes values items then (block.withSchema (editedSchema values fields items)).text
        else template, refusedIds values items⟩ := by
  have edited : items.zipWith (fun item edit => SettingEdit.apply edit item)
      (items.map (editItem values)) = items.map (editedItem values) := by
    rw [List.zipWith_map_right, List.zipWith_self]
    rfl
  rw [storeDefaults, found]
  simp only [holds.parsed, holds.settings, edited]
  change (if writes values items then _ else _) = _
  split <;> simp [SchemaBlock.text, SchemaBlock.withSchema, editedSchema, refusedIds]

/-- A template changes only through an edit of its schema that changes something. -/
theorem exists_holds_of_changed {template : List Char} {values : SettingValues}
    (changed : (storeDefaults template values).template ≠ template) :
    ∃ block fields items, SchemaBlock.find? template = some block ∧ block.Holds fields items ∧
      writes values items = true := by
  cases found : SchemaBlock.find? template with
  | none =>
    rw [storeDefaults, found] at changed
    exact absurd rfl changed
  | some block =>
    unfold storeDefaults at changed
    rw [found] at changed
    simp only at changed
    split at changed
    · next fields parsed =>
      split at changed
      · next items settings =>
        have holds : block.Holds fields items := ⟨parsed, settings⟩
        refine ⟨block, fields, items, rfl, holds, ?_⟩
        cases written : writes values items with
        | true => rfl
        | false =>
          rw [writes] at written
          simp [written] at changed
      · exact absurd rfl changed
    · exact absurd rfl changed

/-- A written block is found again exactly if the printed schema holds no closing marker. -/
theorem SchemaBlock.isFirst_withSchema_iff {block : SchemaBlock} (isFirst : block.IsFirst)
    (schema : Json) :
    (block.withSchema schema).IsFirst ↔
      ∀ marker, IsMarker endSchemaWord marker → ¬ marker <:+: schema.indented.toList := by
  have free : cutAtMarker? endSchemaWord (block.withSchema schema).interior = none ↔
      ∀ marker, IsMarker endSchemaWord marker → ¬ marker <:+: schema.indented.toList := by
    rw [cutAtMarker?_eq_none_iff isWord_endSchemaWord]
    constructor
    · intro unmarked marker isMarker inSchema
      exact unmarked marker isMarker
        ((isMarker.infix_lines_iff isWord_endSchemaWord).mpr inSchema)
    · intro unmarked marker isMarker inInterior
      exact unmarked marker isMarker
        ((isMarker.infix_lines_iff isWord_endSchemaWord).mp inInterior)
  constructor
  · intro written
    exact free.mp written.interior
  · intro unmarked
    exact ⟨isFirst.opening, isFirst.closing, isFirst.before, free.mpr unmarked⟩

/-- Storing defaults keeps the template around the schema exactly if the printed schema holds no
closing marker. The block is then found at its old place with the printed schema as its interior,
and what is left without schema blocks is the same as before. -/
theorem storeDefaults_keeps_template_iff {template : List Char} {values : SettingValues}
    {block : SchemaBlock} (found : SchemaBlock.find? template = some block)
    (changed : (storeDefaults template values).template ≠ template) :
    ∃ fields items, block.Holds fields items ∧ writes values items = true ∧
      let schema := editedSchema values fields items
      let code := (storeDefaults template values).template
      ((template = block.text ∧ code = (block.withSchema schema).text ∧
          SchemaBlock.find? code = some (block.withSchema schema) ∧
          stripSchema code = stripSchema template) ↔
        ∀ marker, IsMarker endSchemaWord marker → ¬ marker <:+: schema.indented.toList) := by
  obtain ⟨other, fields, items, foundOther, holds, written⟩ := exists_holds_of_changed changed
  obtain rfl : block = other := Option.some.inj (found.symm.trans foundOther)
  refine ⟨fields, items, holds, written, ?_⟩
  intro schema code
  obtain ⟨split, isFirst⟩ := SchemaBlock.isFirst_of_find? found
  have codeText : code = (block.withSchema schema).text := by
    simp only [code, storeDefaults_of_holds found holds, written, if_true, schema]
  rw [← SchemaBlock.isFirst_withSchema_iff isFirst schema]
  constructor
  · rintro ⟨_, _, foundAgain, _⟩
    exact (SchemaBlock.isFirst_of_find? foundAgain).2
  · intro writtenFirst
    have foundAgain : SchemaBlock.find? code = some (block.withSchema schema) := by
      rw [codeText]
      exact SchemaBlock.find?_text writtenFirst
    refine ⟨split, codeText, foundAgain, ?_⟩
    rw [stripSchema_of_find? foundAgain, stripSchema_of_find? found]
    rfl

/-- A value without a marker leaves the template around the schema as it is. -/
theorem storeDefaults_keeps_template_of_greeting :
    let block : SchemaBlock :=
      ⟨['a'], "\x7b% schema %\x7d".toList,
        "\x7b\"settings\":[\x7b\"id\":\"t\"\x7d]\x7d".toList,
        "\x7b% endschema %\x7d".toList, ['b']⟩
    let values : SettingValues := ⟨[("t", .string "Hi")], by decide⟩
    let code := (storeDefaults block.text values).template
    SchemaBlock.find? block.text = some block ∧ code ≠ block.text ∧
      ∃ schema : Json, SchemaBlock.find? code = some (block.withSchema schema) ∧
        stripSchema code = stripSchema block.text := by
  intro block values code
  let printed : List Char := "\x7b
  \"settings\": [
    \x7b
      \"id\": \"t\",
      \"default\": \"Hi\"
    \x7d
  ]
\x7d".toList
  have evaluated : code = block.before ++ (block.opening ++
      (('\n' :: printed ++ ['\n']) ++ (block.closing ++ block.after))) := by
    decide +kernel
  have found : SchemaBlock.find? block.text = some block := by decide +kernel
  have changed : code ≠ block.text := by
    rw [evaluated]
    decide +kernel
  obtain ⟨fields, items, holds, written, keeps⟩ := storeDefaults_keeps_template_iff found changed
  refine ⟨found, changed, editedSchema values fields items, ?_⟩
  have codeText : (block.withSchema (editedSchema values fields items)).text = code := by
    simp only [code, storeDefaults_of_holds found holds, written, if_true]
  have schemaText : (editedSchema values fields items).indented.toList = printed := by
    rw [evaluated] at codeText
    have interior := List.append_cancel_right
      (List.append_cancel_left (List.append_cancel_left codeText))
    exact List.append_cancel_right (List.cons.inj interior).2
  have unmarked := (cutAtMarker?_eq_none_iff isWord_endSchemaWord).mp
    (show cutAtMarker? endSchemaWord printed = none by decide +kernel)
  rw [← schemaText] at unmarked
  obtain ⟨_, _, foundAgain, stripped⟩ := keeps.mpr unmarked
  exact ⟨foundAgain, stripped⟩

/-- A value that holds a closing marker ends the schema block early. The block that is found stops in
the middle of the value, and the rest of the schema becomes part of the template. -/
theorem storeDefaults_damages_template :
    let block : SchemaBlock :=
      ⟨['a'], "\x7b% schema %\x7d".toList,
        "\x7b\"settings\":[\x7b\"id\":\"t\"\x7d]\x7d".toList,
        "\x7b% endschema %\x7d".toList, ['b']⟩
    let values : SettingValues := ⟨[("t", .string "\x7b% endschema %\x7d")], by decide⟩
    let code := (storeDefaults block.text values).template
    SchemaBlock.find? block.text = some block ∧ code ≠ block.text ∧
      (∀ schema : Json, SchemaBlock.find? code ≠ some (block.withSchema schema)) ∧
      stripSchema code ≠ stripSchema block.text := by
  intro block values code
  let damaged : List Char := "a\x7b% schema %\x7d
\x7b
  \"settings\": [
    \x7b
      \"id\": \"t\",
      \"default\": \"\x7b% endschema %\x7d\"
    \x7d
  ]
\x7d
\x7b% endschema %\x7db".toList
  have evaluated : code = damaged := by decide +kernel
  have stripped : stripSchema damaged ≠ "ab".toList := by decide +kernel
  have found : SchemaBlock.find? block.text = some block := by decide +kernel
  have rest : stripSchema block.text = "ab".toList := stripSchema_of_find? found
  rw [evaluated, rest]
  refine ⟨found, by decide +kernel, ?_, stripped⟩
  intro schema foundAgain
  exact stripped (stripSchema_of_find? foundAgain)

end FlatLiquid
