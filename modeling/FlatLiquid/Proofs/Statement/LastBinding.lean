import FlatLiquid.Proofs.OrderedMap
import FlatLiquid.Proofs.Statement.Scopes

/-!
Contract: which statement binds a variable last.

Owns:
- the last statement that binds a name, and how it is found in joined statements;
- the entries of settings whose keys share one identifier, of which the last one that a variable can
  hold is what the variable ends up with;
- the same for one block among all of them, with no block reaching into the names of another.
-/

namespace FlatLiquid

/-- The last statement that binds a name. A template that runs the statements in their order reads
from the variable what this one put there. -/
def lastBinding (name : List Char) (statements : List Statement) : Option Statement :=
  (statements.filter fun statement => statement.name == name).getLast?

theorem lastBinding_append (name : List Char) (first second : List Statement) :
    lastBinding name (first ++ second) = (lastBinding name second).or (lastBinding name first) := by
  rw [lastBinding, List.filter_append, List.getLast?_append]
  rfl

theorem lastBinding_of_other {name : List Char} {statements : List Statement}
    (other : ∀ statement ∈ statements, statement.name ≠ name) : lastBinding name statements = none := by
  have empty : (statements.filter fun statement => statement.name == name) = [] := by
    refine List.filter_eq_nil_iff.mpr fun statement member => ?_
    simpa using other statement member
  rw [lastBinding, empty]
  rfl

/-! ## Values that a variable can hold -/

/-- A variable can hold the value. -/
def SettingValue.isFlat : SettingValue → Bool
  | .unsupported _ => false
  | _ => true

theorem Statement.name_ofText (name text : List Char) : (Statement.ofText name text).name = name := by
  unfold ofText
  split
  · rfl
  · split <;> rfl

/-- A value that a variable can hold is bound by one statement. -/
theorem Statement.ofValue?_of_isFlat (name : List Char) {value : SettingValue}
    (flat : value.isFlat = true) :
    ∃ statement, Statement.ofValue? name value = some statement ∧ statement.name = name := by
  cases value with
  | nil => exact ⟨_, rfl, rfl⟩
  | bool truth => exact ⟨_, rfl, rfl⟩
  | number value => exact ⟨_, rfl, rfl⟩
  | string text => exact ⟨_, rfl, name_ofText name text.toList⟩
  | unsupported value => exact absurd flat Bool.false_ne_true

theorem Statement.ofValue?_of_not_isFlat (name : List Char) {value : SettingValue}
    (unsupported : value.isFlat = false) : Statement.ofValue? name value = none := by
  cases value with
  | unsupported value => rfl
  | _ => exact absurd unsupported.symm Bool.false_ne_true

/-! ## One scope -/

/-- The values that compete for the variable of an identifier: those of the keys that become it, as
far as a variable can hold them, in their order. -/
def competingValues (identifier : List Char) (entries : List (String × SettingValue)) :
    List SettingValue :=
  (entries.filter fun entry => identifier? entry.1.toList == some identifier && entry.2.isFlat).map
    Prod.snd

/-- What an entry adds to the statements that bind a name of its scope. -/
theorem filter_settingBinding (scope identifier : List Char) (entry : String × SettingValue) :
    (settingBinding scope entry).statements.filter
        (fun statement => statement.name == scopedName scope identifier) =
      (competingValues identifier [entry]).filterMap
        (Statement.ofValue? (scopedName scope identifier)) := by
  unfold settingBinding competingValues
  cases made : identifier? entry.1.toList with
  | none => simp [made]
  | some own =>
    by_cases same : own = identifier
    · subst same
      cases flat : entry.2.isFlat with
      | false =>
        simp [made, flat, Statement.ofValue?_of_not_isFlat (scopedName scope own) flat]
      | true =>
        obtain ⟨statement, bound, named⟩ := Statement.ofValue?_of_isFlat (scopedName scope own) flat
        simp [made, flat, bound, named]
    · have otherName : scopedName scope own ≠ scopedName scope identifier := fun equal =>
        same (scopedName_injective equal)
      cases flat : entry.2.isFlat with
      | false =>
        simp [made, same, Statement.ofValue?_of_not_isFlat (scopedName scope own) flat]
      | true =>
        obtain ⟨statement, bound, named⟩ := Statement.ofValue?_of_isFlat (scopedName scope own) flat
        simp [made, same, bound, named, otherName]

theorem competingValues_cons (identifier : List Char) (entry : String × SettingValue)
    (rest : List (String × SettingValue)) :
    competingValues identifier (entry :: rest) =
      competingValues identifier [entry] ++ competingValues identifier rest := by
  unfold competingValues
  rw [← List.map_append, ← List.filter_append]
  rfl

/-- The statements of a scope that bind one of its names are those of the competing values. -/
theorem filter_scopedBindings (scope identifier : List Char) (settings : SettingValues) :
    (scopedBindings scope settings).statements.filter
        (fun statement => statement.name == scopedName scope identifier) =
      (competingValues identifier settings.entries).filterMap
        (Statement.ofValue? (scopedName scope identifier)) := by
  unfold scopedBindings
  induction settings.entries with
  | nil => rfl
  | cons entry rest inductionHypothesis =>
    have joined : (List.foldr (fun entry rest => settingBinding scope entry ++ rest) Bindings.empty
          (entry :: rest)).statements =
        (settingBinding scope entry).statements ++
          (List.foldr (fun entry rest => settingBinding scope entry ++ rest) Bindings.empty
            rest).statements := rfl
    rw [joined, List.filter_append, inductionHypothesis, filter_settingBinding,
      competingValues_cons identifier entry rest, List.filterMap_append]

/-- The last binding of a name in a scope is that of the last competing value. -/
theorem lastBinding_scopedBindings (scope identifier : List Char) (settings : SettingValues) :
    lastBinding (scopedName scope identifier) (scopedBindings scope settings).statements =
      (competingValues identifier settings.entries).getLast?.bind
        (Statement.ofValue? (scopedName scope identifier)) := by
  rw [lastBinding, filter_scopedBindings]
  refine getLast?_filterMap_of_isSome fun value member => ?_
  obtain ⟨entry, kept, rfl⟩ := List.mem_map.mp member
  have flat := (Bool.and_eq_true_iff.mp (List.mem_filter.mp kept).2).2
  obtain ⟨statement, bound, _⟩ := Statement.ofValue?_of_isFlat (scopedName scope identifier) flat
  exact Option.isSome_of_eq_some bound

/-- Settings that hold a key with a value that a variable can hold have a last competing value for
the key's identifier. -/
theorem exists_last_competingValue {settings : SettingValues} {key : String} {value : SettingValue}
    {identifier : List Char} (held : settings.get? key = some value) (flat : value.isFlat = true)
    (made : identifier? key.toList = some identifier) :
    ∃ last, (competingValues identifier settings.entries).getLast? = some last ∧
      last.isFlat = true := by
  have competes : value ∈ competingValues identifier settings.entries := by
    have entry := OrderedMap.mem_of_get? held
    refine List.mem_map.mpr ⟨(key, value), List.mem_filter.mpr ⟨entry, ?_⟩, rfl⟩
    simp [made, flat]
  cases found : (competingValues identifier settings.entries).getLast? with
  | none =>
    rw [List.getLast?_eq_none_iff.mp found] at competes
    exact absurd competes List.not_mem_nil
  | some last =>
    have member := List.mem_of_getLast? found
    obtain ⟨entry, kept, rfl⟩ := List.mem_map.mp member
    exact ⟨entry.2, rfl, (Bool.and_eq_true_iff.mp (List.mem_filter.mp kept).2).2⟩

/-! ## One block among all -/

/-- Every statement of a scope binds a name of the scope. -/
theorem name_of_mem_scopedBindings {scope : List Char} {settings : SettingValues}
    {statement : Statement} (bound : statement ∈ (scopedBindings scope settings).statements) :
    ∃ name, statement.name = scopedName scope name := by
  unfold scopedBindings at bound
  generalize settings.entries = entries at bound
  induction entries with
  | nil => exact absurd bound List.not_mem_nil
  | cons entry rest inductionHypothesis =>
    rcases List.mem_append.mp bound with here | there
    · unfold settingBinding at here
      split at here
      · exact absurd here List.not_mem_nil
      · next own _ =>
        have made := Option.mem_toList.mp here
        cases flat : entry.2.isFlat with
        | false => simp [Statement.ofValue?_of_not_isFlat _ flat] at made
        | true =>
          obtain ⟨made', equal, named⟩ :=
            Statement.ofValue?_of_isFlat (scopedName scope own) flat
          rw [equal] at made
          obtain rfl := Option.some.inj made
          exact ⟨own, named⟩
    · exact inductionHypothesis there

theorem name_of_mem_blockBinding {index : Nat} {block : BlockInstance} {statement : Statement}
    (bound : statement ∈ (blockBinding index block).statements) :
    ∃ name, statement.name = scopedName (blockScope index) name := by
  rcases List.mem_append.mp bound with fixed | setting
  · rcases List.mem_cons.mp fixed with rfl | second
    · exact ⟨_, Statement.name_ofText _ _⟩
    · rw [List.mem_singleton.mp second]
      exact ⟨_, Statement.name_ofText _ _⟩
  · exact name_of_mem_scopedBindings setting

theorem statements_blockBindingsFrom_cons (start : Nat) (block : BlockInstance)
    (rest : List BlockInstance) :
    (blockBindingsFrom start (block :: rest)).statements =
      (blockBinding start block).statements ++ (blockBindingsFrom (start + 1) rest).statements := rfl

theorem statements_blockBindings (blocks : List BlockInstance) :
    (blockBindings blocks).statements =
      (blockBindingsFrom 0 blocks).statements ++ [.assign blockCountName (.count blocks.length)] := rfl

/-- The statements of a block bind no name of another block. -/
theorem name_ne_of_mem_blockBinding {index other : Nat} (different : other ≠ index)
    {block : BlockInstance} {statement : Statement}
    (bound : statement ∈ (blockBinding other block).statements) (name : List Char) :
    statement.name ≠ scopedName (blockScope index) name := by
  intro same
  obtain ⟨own, named⟩ := name_of_mem_blockBinding bound
  rw [named] at same
  exact different (scopedName_blockScope_injective same).1

/-- The statement of the number of blocks binds no name of a block. -/
theorem name_ne_of_mem_count {count : Nat} {statement : Statement}
    (bound : statement ∈ [Statement.assign blockCountName (.count count)]) (index : Nat)
    (name : List Char) : statement.name ≠ scopedName (blockScope index) name := by
  rw [List.mem_singleton.mp bound]
  exact (scopedName_blockScope_ne_blockCountName index name).symm

/-- Blocks from an index on bind no name of a block before it. -/
theorem lastBinding_blockBindingsFrom_of_lt {index start : Nat} (before : index < start)
    (name : List Char) (blocks : List BlockInstance) :
    lastBinding (scopedName (blockScope index) name) (blockBindingsFrom start blocks).statements =
      none := by
  induction blocks generalizing start with
  | nil => rfl
  | cons block rest inductionHypothesis =>
    have own : lastBinding (scopedName (blockScope index) name) (blockBinding start block).statements =
        none :=
      lastBinding_of_other fun statement bound =>
        name_ne_of_mem_blockBinding (Nat.ne_of_gt before) bound name
    have later := inductionHypothesis (Nat.lt_succ_of_lt before)
    rw [statements_blockBindingsFrom_cons, lastBinding_append, later, own]
    rfl

/-- The last binding of a block's name is the last one among the block's own statements. -/
theorem lastBinding_blockBindingsFrom {blocks : List BlockInstance} {index : Nat}
    {block : BlockInstance} (start : Nat) (there : blocks[index]? = some block) (name : List Char) :
    lastBinding (scopedName (blockScope (start + index)) name)
        (blockBindingsFrom start blocks).statements =
      lastBinding (scopedName (blockScope (start + index)) name)
        (blockBinding (start + index) block).statements := by
  induction blocks generalizing start index with
  | nil => simp at there
  | cons first rest inductionHypothesis =>
    rw [statements_blockBindingsFrom_cons, lastBinding_append]
    cases index with
    | zero =>
      obtain rfl : first = block := by simpa using there
      rw [Nat.add_zero, lastBinding_blockBindingsFrom_of_lt (Nat.lt_succ_self start)]
      rfl
    | succ index =>
      have shifted : start + (index + 1) = start + 1 + index := by omega
      have elsewhere : start ≠ start + 1 + index := by omega
      have own : lastBinding (scopedName (blockScope (start + 1 + index)) name)
          (blockBinding start first).statements = none :=
        lastBinding_of_other fun statement bound => name_ne_of_mem_blockBinding elsewhere bound name
      rw [shifted, inductionHypothesis (start + 1) (by simpa using there), own, Option.or_none]

/-- The last binding of a block's name among all statements is the last one among the block's
own. -/
theorem lastBinding_blockBindings_own {blocks : List BlockInstance} {index : Nat}
    {block : BlockInstance} (there : blocks[index]? = some block) (name : List Char) :
    lastBinding (scopedName (blockScope index) name) (blockBindings blocks).statements =
      lastBinding (scopedName (blockScope index) name) (blockBinding index block).statements := by
  have count : lastBinding (scopedName (blockScope index) name)
      [.assign blockCountName (.count blocks.length)] = none :=
    lastBinding_of_other fun statement bound => name_ne_of_mem_count bound index name
  have own := lastBinding_blockBindingsFrom 0 there name
  rw [Nat.zero_add] at own
  rw [statements_blockBindings, lastBinding_append, count, Option.none_or, own]

/-- A name of a block is bound last by the last value that competes for it, and if there is none by
the statement of the block's id or type. -/
theorem lastBinding_blockBinding (index : Nat) (block : BlockInstance) (identifier : List Char) :
    lastBinding (scopedName (blockScope index) identifier) (blockBinding index block).statements =
      ((competingValues identifier block.settings.entries).getLast?.bind
          (Statement.ofValue? (scopedName (blockScope index) identifier))).or
        (lastBinding (scopedName (blockScope index) identifier)
          [.ofText (scopedName (blockScope index) "id".toList) block.id.toList,
            .ofText (scopedName (blockScope index) "type".toList) block.type.toList]) := by
  have parts : (blockBinding index block).statements =
      [.ofText (scopedName (blockScope index) "id".toList) block.id.toList,
        .ofText (scopedName (blockScope index) "type".toList) block.type.toList] ++
        (scopedBindings (blockScope index) block.settings).statements := rfl
  rw [parts, lastBinding_append, lastBinding_scopedBindings]

/-- If a block holds a value that competes for an identifier, the last binding of the identifier's
name in the block's scope is that of the last such value, whatever else is bound. -/
theorem lastBinding_blockBindings {blocks : List BlockInstance} {index : Nat} {block : BlockInstance}
    {identifier : List Char} {value : SettingValue} (there : blocks[index]? = some block)
    (last : (competingValues identifier block.settings.entries).getLast? = some value)
    (flat : value.isFlat = true) :
    lastBinding (scopedName (blockScope index) identifier) (blockBindings blocks).statements =
      Statement.ofValue? (scopedName (blockScope index) identifier) value := by
  obtain ⟨statement, bound, _⟩ :=
    Statement.ofValue?_of_isFlat (scopedName (blockScope index) identifier) flat
  rw [lastBinding_blockBindings_own there, lastBinding_blockBinding, last, Option.bind_some, bound]
  rfl

end FlatLiquid
