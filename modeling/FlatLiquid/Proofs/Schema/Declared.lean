import FlatLiquid.Schema.Definition

/-!
Contract: maps that are built from the settings that a schema declares.

Owns:
- what such a map holds under an id: what the last setting with this id gives that gives anything;
- the ids under which such a map holds anything.

Does not own: what a setting gives, which is a parameter. Pickers and values are two cases of it.
-/

namespace FlatLiquid

variable {α : Type} {given? : Setting → Option (String × α)} {value? : Setting → Option α}

/-- The settings with an id, in the order of declaration. -/
def declaredAs (id : String) (settings : List Setting) : List Setting :=
  settings.filter fun setting => setting.id == id

theorem mem_declaredAs {id : String} {settings : List Setting} {setting : Setting} :
    setting ∈ declaredAs id settings ↔ setting ∈ settings ∧ setting.id = id := by
  rw [declaredAs, List.mem_filter, beq_iff_eq]

/-- What settings give, each under its own id, comes to what the settings with an id give. -/
theorem filter_filterMap_entries
    (shape : ∀ setting, given? setting = if setting.id.isEmpty then none
      else (value? setting).map fun value => (setting.id, value))
    {id : String} (named : id ≠ "") (settings : List Setting) :
    ((settings.filterMap given?).filter fun entry => entry.1 == id).map Prod.snd =
      (declaredAs id settings).filterMap value? := by
  induction settings with
  | nil => rfl
  | cons setting rest inductionHypothesis =>
    unfold declaredAs at inductionHypothesis ⊢
    have entry := shape setting
    by_cases same : setting.id = id
    · have nonempty : setting.id.isEmpty = false := by simpa [same] using named
      rw [nonempty, same] at entry
      rw [List.filterMap_cons, entry, List.filter_cons_of_pos (by simpa using same),
        List.filterMap_cons]
      cases value? setting with
      | none => exact inductionHypothesis
      | some value => simpa using inductionHypothesis
    · rw [List.filterMap_cons, List.filter_cons_of_neg (by simpa using same)]
      cases given : given? setting with
      | none => exact inductionHypothesis
      | some pair =>
        have key : pair.1 = setting.id := by
          rw [given] at entry
          split at entry
          · contradiction
          · obtain ⟨value, _, rfl⟩ := Option.map_eq_some_iff.mp entry.symm
            rfl
        rw [List.filter_cons_of_neg (by simpa [key] using same)]
        exact inductionHypothesis

/-- The map holds under an id what the last setting with this id gives that gives anything. -/
theorem get?_ofList_filterMap
    (shape : ∀ setting, given? setting = if setting.id.isEmpty then none
      else (value? setting).map fun value => (setting.id, value))
    {id : String} (named : id ≠ "") (settings : List Setting) :
    (OrderedMap.ofList (settings.filterMap given?)).get? id =
      ((declaredAs id settings).filterMap value?).getLast? := by
  have nothing : (OrderedMap.empty : OrderedMap α).get? id = none := rfl
  rw [OrderedMap.ofList, OrderedMap.get?_insertAll, nothing, Option.or_none, ← List.getLast?_map,
    filter_filterMap_entries shape named]

/-- Nothing is held under the empty id. -/
theorem get?_ofList_filterMap_empty
    (shape : ∀ setting, given? setting = if setting.id.isEmpty then none
      else (value? setting).map fun value => (setting.id, value))
    (settings : List Setting) :
    (OrderedMap.ofList (settings.filterMap given?)).get? "" = none := by
  have nothing : (OrderedMap.empty : OrderedMap α).get? "" = none := rfl
  have noEntry : (settings.filterMap given?).filter (fun entry => entry.1 == "") = [] := by
    rw [List.filter_eq_nil_iff]
    intro entry member
    obtain ⟨setting, _, given⟩ := List.mem_filterMap.mp member
    rw [shape] at given
    split at given
    · contradiction
    · next named =>
      obtain ⟨value, _, rfl⟩ := Option.map_eq_some_iff.mp given
      simpa using named
  rw [OrderedMap.ofList, OrderedMap.get?_insertAll, nothing, noEntry]
  rfl

end FlatLiquid
