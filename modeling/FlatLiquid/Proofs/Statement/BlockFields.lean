import FlatLiquid.Proofs.Statement.LastBinding
import FlatLiquid.Template.Unrolling

/-!
Contract: what becomes of the id and the type of a block, and of the number of blocks.

Owns:
- the two fields of a block that have variables beside its settings, and how a loop reads them;
- the settings that share a variable with a field;
- the condition under which a field is what its variable ends up with.

A field and the setting under its name have one variable, and the setting is bound after the field.
No other setting of any block reaches the variable, and none reaches the number of blocks.
-/

namespace FlatLiquid

open Text (startsWord endsWord isWordChar afterPrefix?)

/-! ## Fields -/

/-- What a block has beside its settings. -/
inductive BlockField where
  | id
  | type
deriving DecidableEq, Repr

namespace BlockField

def name : BlockField → String
  | .id => "id"
  | .type => "type"

def value (block : BlockInstance) : BlockField → String
  | .id => block.id
  | .type => block.type

/-- The variable of a field of the block at an index. -/
def variableName (index : Nat) (field : BlockField) : List Char :=
  scopedName (blockScope index) field.name.toList

/-- The statement that binds a field to its value. -/
def statement (index : Nat) (block : BlockInstance) (field : BlockField) : Statement :=
  .ofText (field.variableName index) (field.value block).toList

theorem name_statement (index : Nat) (block : BlockInstance) (field : BlockField) :
    (field.statement index block).name = field.variableName index :=
  Statement.name_ofText _ _

/-- Different fields have different variables, also those of different blocks. -/
theorem variableName_injective {i j : Nat} {field other : BlockField}
    (same : field.variableName i = other.variableName j) : i = j ∧ field = other := by
  obtain ⟨index, name⟩ := scopedName_blockScope_injective same
  refine ⟨index, ?_⟩
  cases field <;> cases other <;> first | rfl | exact absurd name (by decide)

/-- Of the statements of a block's fields only the field's own binds its variable. -/
theorem name_statement_beq (index : Nat) (block : BlockInstance) (field other : BlockField) :
    ((other.statement index block).name == field.variableName index) = (other == field) := by
  rw [name_statement, Bool.eq_iff_iff, beq_iff_eq, beq_iff_eq]
  constructor
  · exact fun same => (variableName_injective same).2
  · rintro rfl
    rfl

end BlockField

/-- How the body of a loop reads a field of the loop's block. -/
def BlockField.access (loopVariable : List Char) (field : BlockField) : List Char :=
  loopVariable ++ '.' :: field.name.toList

theorem isWordChar_of_mem_name (field : BlockField) : ∀ c ∈ field.name.toList, isWordChar c = true := by
  have word : field.name.toList.all isWordChar = true := by cases field <;> decide
  exact List.all_eq_true.mp word

/-- In the copy for an index the variable of the field takes the place of its access. -/
theorem blockFieldRule_access {before : Option Char} {loopVariable after : List Char} (index : Nat)
    (field : BlockField) (starts : startsWord before = true) (ends : endsWord after = true) :
    blockFieldRule loopVariable (blockScope index) before (field.access loopVariable ++ after) =
      some (field.variableName index, after) := by
  have object : afterPrefix? (loopVariable ++ ['.']) (field.access loopVariable ++ after) =
      some (field.name.toList ++ after) := by
    have parts : field.access loopVariable ++ after =
        loopVariable ++ ['.'] ++ (field.name.toList ++ after) := by
      simp [BlockField.access]
    rw [parts, Text.afterPrefix?_append]
  have word := Text.wordOf_append (isWordChar_of_mem_name field) ends
  have rest := Text.afterWord_append (isWordChar_of_mem_name field) ends
  have known : field.name.toList = "type".toList ∨ field.name.toList = "id".toList := by
    cases field
    · exact .inr rfl
    · exact .inl rfl
  rw [blockFieldRule, if_pos starts, object]
  simp only [Option.bind_eq_bind, Option.bind_some, word, rest, known, if_true]
  rfl

/-! ## Settings under the name of a field -/

/-- A key that becomes an identifier without underscores is that identifier. -/
theorem eq_of_identifier? {key identifier : List Char} (made : identifier? key = some identifier)
    (free : '_' ∉ identifier) : key = identifier := by
  cases key with
  | nil => contradiction
  | cons first rest =>
    simp only [identifier?] at made
    split at made
    · obtain rfl := Option.some.inj made
      -- a character that changes becomes an underscore
      have same : ∀ c ∈ first :: rest, (if isIdentifierChar c then c else '_') = c := by
        intro c member
        split
        · rfl
        · next changes =>
          refine absurd (List.mem_map.mpr ⟨c, member, ?_⟩) free
          rw [if_neg changes]
      have mapped := List.map_congr_left same
      rw [List.map_id'] at mapped
      exact mapped.symm
    · contradiction

theorem identifier?_eq_name_iff (field : BlockField) (key : String) :
    identifier? key.toList = some field.name.toList ↔ key = field.name := by
  constructor
  · intro made
    have same := eq_of_identifier? made (by cases field <;> decide)
    exact String.toList_injective same
  · rintro rfl
    cases field <;> decide

/-- The value that competes for the variable of a field is that of the setting under its name. -/
theorem competingValues_name (field : BlockField) (settings : SettingValues) :
    competingValues field.name.toList settings.entries =
      (settings.get? field.name).toList.filter SettingValue.isFlat := by
  obtain ⟨entries, distinct⟩ := settings
  unfold OrderedMap.get?
  induction entries with
  | nil => rfl
  | cons entry rest inductionHypothesis =>
    obtain ⟨key, value⟩ := entry
    rw [List.map_cons, List.nodup_cons] at distinct
    have later := inductionHypothesis distinct.2
    rw [competingValues_cons, later, List.lookup_cons]
    by_cases same : key = field.name
    · subst same
      have none : rest.lookup field.name = none := by
        rw [List.lookup_eq_none_iff]
        intro other member
        rw [bne_iff_ne]
        intro again
        exact distinct.1 (List.mem_map.mpr ⟨other, member, again.symm⟩)
      have made := (identifier?_eq_name_iff field field.name).mpr rfl
      cases flat : value.isFlat <;> simp [competingValues, made, flat, none]
    · have other : identifier? key.toList ≠ some field.name.toList := fun made =>
        same ((identifier?_eq_name_iff field key).mp made)
      have different : (field.name == key) = false := by
        rw [beq_eq_false_iff_ne]
        exact Ne.symm same
      simp [competingValues, other, different]

/-! ## Last bindings -/

/-- Of the two fields only the one itself binds its variable. -/
theorem lastBinding_fields (index : Nat) (block : BlockInstance) (field : BlockField) :
    lastBinding (field.variableName index)
        [BlockField.id.statement index block, BlockField.type.statement index block] =
      some (field.statement index block) := by
  unfold lastBinding
  cases field <;> simp [BlockField.name_statement_beq]

theorem lastBinding_count (blocks : List BlockInstance) :
    lastBinding blockCountName (blockBindings blocks).statements =
      some (.assign blockCountName (.count blocks.length)) := by
  have own : lastBinding blockCountName [.assign blockCountName (.count blocks.length)] =
      some (.assign blockCountName (.count blocks.length)) := rfl
  rw [statements_blockBindings, lastBinding_append, own]
  rfl

/-- The last binding of a field's variable is that of the setting under its name, if it has a value
that a variable can hold, and otherwise that of the field. -/
theorem lastBinding_field {blocks : List BlockInstance} {index : Nat} {block : BlockInstance}
    (there : blocks[index]? = some block) (field : BlockField) :
    lastBinding (field.variableName index) (blockBindings blocks).statements =
      (((block.settings.get? field.name).toList.filter SettingValue.isFlat).getLast?.bind
          (Statement.ofValue? (field.variableName index))).or
        (some (field.statement index block)) := by
  have own := lastBinding_blockBindings_own there field.name.toList
  rw [lastBinding_blockBinding, competingValues_name] at own
  exact own.trans (congrArg _ (lastBinding_fields index block field))

/-- The number of blocks is what its variable ends up with. In the copy for a block the variable of a
field stands for each access of the field, and it ends up with the field exactly if the block has no
setting under the field's name that a variable can hold, or has one that is written as the field
is. -/
theorem lastBinding_field_iff (blocks : List BlockInstance) :
    lastBinding blockCountName (blockBindings blocks).statements =
        some (.assign blockCountName (.count blocks.length)) ∧
      ∀ (index : Nat) (block : BlockInstance), blocks[index]? = some block →
        ∀ field : BlockField,
          (∀ (loopVariable : List Char) (before : Option Char) (after : List Char),
            startsWord before = true → endsWord after = true →
              blockFieldRule loopVariable (blockScope index) before
                  (field.access loopVariable ++ after) = some (field.variableName index, after)) ∧
          (lastBinding (field.variableName index) (blockBindings blocks).statements =
              some (field.statement index block) ↔
            ∀ value, block.settings.get? field.name = some value → value.isFlat = true →
              Statement.ofValue? (field.variableName index) value =
                some (field.statement index block)) := by
  refine ⟨lastBinding_count blocks, fun index block there field => ⟨?_, ?_⟩⟩
  · exact fun loopVariable before after starts ends => blockFieldRule_access index field starts ends
  · rw [lastBinding_field there]
    cases held : block.settings.get? field.name with
    | none => simp
    | some value =>
      cases flat : value.isFlat with
      | false => simp [flat]
      | true =>
        obtain ⟨statement, bound, _⟩ := Statement.ofValue?_of_isFlat (field.variableName index) flat
        simp [flat, bound]

/-- A setting whose key only comes close to the name of a field leaves the field alone. -/
theorem lastBinding_field_of_neighbours :
    let settings : SettingValues :=
      ⟨[("id_", .string "x"), ("Type", .bool true), ("type", .unsupported (.array []))], by decide⟩
    let blocks : List BlockInstance := [⟨"a", "slide", settings⟩]
    blocks[0]? = some ⟨"a", "slide", settings⟩ ∧
      blockFieldRule "block".toList (blockScope 0) none "block.id".toList =
        some ("block_0_id".toList, []) ∧
      lastBinding "block_0_id".toList (blockBindings blocks).statements =
        some (.ofText "block_0_id".toList "a".toList) ∧
      lastBinding "block_0_type".toList (blockBindings blocks).statements =
        some (.ofText "block_0_type".toList "slide".toList) := by
  intro settings blocks
  have there : blocks[0]? = some ⟨"a", "slide", settings⟩ := rfl
  have fields := (lastBinding_field_iff blocks).2 0 ⟨"a", "slide", settings⟩ there
  have noId : settings.get? BlockField.id.name = none := by decide
  have access := (fields .id).1 "block".toList none [] rfl rfl
  refine ⟨there, access, (fields .id).2.mpr ?_, (fields .type).2.mpr ?_⟩
  · intro value held
    exact absurd (noId.symm.trans held) nofun
  · intro value held flat
    obtain rfl : SettingValue.unsupported (.array []) = value := Option.some.inj held
    contradiction

/-- A setting under the name of a field takes the field's place. -/
theorem lastBinding_field_of_setting :
    let settings : SettingValues := ⟨[("id", .string "x")], by decide⟩
    let blocks : List BlockInstance := [⟨"a", "slide", settings⟩]
    lastBinding "block_0_id".toList (blockBindings blocks).statements =
        some (.assign "block_0_id".toList (.quoted .single "x".toList)) ∧
      lastBinding "block_0_id".toList (blockBindings blocks).statements ≠
        some (BlockField.id.statement 0 ⟨"a", "slide", settings⟩) := by
  intro settings blocks
  have there : blocks[0]? = some ⟨"a", "slide", settings⟩ := rfl
  have bound : lastBinding "block_0_id".toList (blockBindings blocks).statements =
      some (.assign "block_0_id".toList (.quoted .single "x".toList)) :=
    lastBinding_field there .id
  refine ⟨bound, fun same => ?_⟩
  rw [bound] at same
  have texts := congrArg (Option.map Statement.render) same
  exact absurd texts (by decide)

end FlatLiquid
