import FlatLiquid.Schema.Defaults
import FlatLiquid.Proofs.Schema.Declared
import FlatLiquid.Proofs.Schema.Values

/-!
Contract: the values that differ from the defaults, put on top of the defaults, are the values again.

Owns:
- values that are the same as themselves;
- what the initial values and the changed values hold under an id;
- the law of the overlay, the ids that changed values hold, and the changes of the initial values.

A schema may declare an id twice. Then the initial values hold the last default, while a value counts
as changed as soon as one of the defaults differs from it.
-/

namespace FlatLiquid

/-! ## Values that are the same as themselves -/

/-- No number in the value is NaN, and no object in it names a key twice. -/
def SettingValue.IsComparable : SettingValue → Prop
  | .number x => x.isNaN = false
  | .unsupported json => json.HasDistinctKeys ∧ json.HasNoNaN
  | _ => True

/-- The values that a setting can start with are comparable. -/
structure Setting.IsComparable (setting : Setting) : Prop where
  default : ∀ value ∈ setting.default, value.IsComparable
  min : ∀ x ∈ setting.min, x.isNaN = false

namespace SettingValue

theorem IsComparable.same_self {value : SettingValue} (comparable : value.IsComparable) :
    value.same value = true := by
  cases value with
  | bool value => exact beq_self_eq_true value
  | number x => exact Decimal.beq_self_of_isNaN comparable
  | string text => exact beq_self_eq_true text
  | nil => rfl
  | unsupported json => exact json.same_self comparable.1 comparable.2

end SettingValue

namespace Setting

/-- What a type falls back on is a truth value, a text or the least number. -/
theorem exists_of_fallback? {setting : Setting} {value : SettingValue}
    (falls : setting.fallback? = some value) :
    (∃ truth, value = .bool truth) ∨ (∃ text, value = .string text) ∨
      value = .number (setting.min.getD 0) := by
  unfold fallback? at falls
  split at falls
  all_goals first
    | contradiction
    | obtain rfl := Option.some.inj falls
      simp

theorem IsComparable.of_fallback? {setting : Setting} (comparable : setting.IsComparable)
    {value : SettingValue} (falls : setting.fallback? = some value) : value.IsComparable := by
  obtain ⟨truth, rfl⟩ | ⟨text, rfl⟩ | rfl := exists_of_fallback? falls
  · trivial
  · trivial
  · change (setting.min.getD 0).isNaN = false
    cases declared : setting.min with
    | none => decide +kernel
    | some x => exact comparable.min x declared

theorem IsComparable.of_default? {setting : Setting} (comparable : setting.IsComparable)
    {value : SettingValue} (starts : setting.default? = some value) : value.IsComparable := by
  unfold default? at starts
  split at starts
  · contradiction
  · cases declared : setting.default with
    | none =>
      rw [declared] at starts
      exact comparable.of_fallback? starts
    | some default =>
      rw [declared] at starts
      obtain rfl := Option.some.inj starts
      exact comparable.default default declared

/-- A value counts as changed if the setting has no default that is the same. -/
theorem changed?_eq_some_iff {setting : Setting} {values : SettingValues} {value : SettingValue} :
    setting.changed? values = some value ↔ values.get? setting.id = some value ∧
      ∀ default, setting.default? = some default → default.same value = false := by
  unfold changed?
  cases held : values.get? setting.id with
  | none => simp
  | some other =>
    simp only [Option.bind_eq_bind, Option.bind_some]
    cases starts : setting.default? with
    | none => simp
    | some default =>
      simp only [Option.ite_none_left_eq_some, Option.some.injEq, forall_eq', Bool.not_eq_true]
      constructor
      · rintro ⟨differs, rfl⟩
        exact ⟨rfl, differs⟩
      · rintro ⟨rfl, differs⟩
        exact ⟨differs, rfl⟩

end Setting

/-! ## Maps of values -/

theorem get?_initialValues {id : String} (named : id ≠ "") (settings : List Setting) :
    (initialValues settings).get? id =
      ((declaredAs id settings).filterMap Setting.default?).getLast? :=
  get?_ofList_filterMap (fun _ => rfl) named settings

theorem get?_changedValues {id : String} (named : id ≠ "") (schema : Schema)
    (values : SettingValues) :
    (schema.changedValues values).get? id =
      ((declaredAs id schema.settings).filterMap fun setting => setting.changed? values).getLast? :=
  get?_ofList_filterMap (fun _ => rfl) named schema.settings

/-- A value that is held under an id counts as changed if some setting with the id says so. -/
theorem get?_changedValues_eq_some_iff {schema : Schema} {values : SettingValues} {id : String}
    {value : SettingValue} :
    (schema.changedValues values).get? id = some value ↔
      id ≠ "" ∧ ∃ setting ∈ declaredAs id schema.settings, setting.changed? values = some value := by
  by_cases named : id = ""
  · have nothing : (schema.changedValues values).get? "" = none :=
      get?_ofList_filterMap_empty (fun _ => rfl) schema.settings
    rw [named, nothing]
    simp
  · rw [get?_changedValues named]
    constructor
    · intro last
      have member := List.mem_of_getLast? last
      exact ⟨named, List.mem_filterMap.mp member⟩
    · rintro ⟨_, changes⟩
      have member := List.mem_filterMap.mpr changes
      cases last : ((declaredAs id schema.settings).filterMap fun setting =>
          setting.changed? values).getLast? with
      | none =>
        rw [List.getLast?_eq_none_iff.mp last] at member
        exact absurd member List.not_mem_nil
      | some other =>
        -- all settings with the id look at one and the same value
        have held {setting : Setting} {given : SettingValue}
            (declared : setting ∈ declaredAs id schema.settings)
            (changed : setting.changed? values = some given) : values.get? id = some given := by
          rw [← (mem_declaredAs.mp declared).2]
          exact (Setting.changed?_eq_some_iff.mp changed).1
        obtain ⟨setting, declared, changed⟩ := changes
        obtain ⟨latest, latestDeclared, latestChanged⟩ :=
          List.mem_filterMap.mp (List.mem_of_getLast? last)
        exact (held latestDeclared latestChanged).symm.trans (held declared changed)

theorem exists_of_get?_initialValues {settings : List Setting} {id : String} {value : SettingValue}
    (named : id ≠ "") (starts : (initialValues settings).get? id = some value) :
    ∃ setting ∈ declaredAs id settings, setting.default? = some value := by
  rw [get?_initialValues named] at starts
  exact List.mem_filterMap.mp (List.mem_of_getLast? starts)

/-! ## The overlay -/

/-- If no setting with an id counts the value as changed, each of them has a default that is the
same. -/
theorem exists_default?_of_unchanged {schema : Schema} {values : SettingValues} {id : String}
    {value : SettingValue} (named : id ≠ "") (held : values.get? id = some value)
    (unchanged : (schema.changedValues values).get? id = none) {setting : Setting}
    (declared : setting ∈ declaredAs id schema.settings) :
    ∃ default, setting.default? = some default ∧ default.same value = true := by
  have heldHere : values.get? setting.id = some value := by
    rw [(mem_declaredAs.mp declared).2]
    exact held
  have notChanged : ¬ setting.changed? values = some value := by
    intro changed
    have inChanges := get?_changedValues_eq_some_iff.mpr ⟨named, setting, declared, changed⟩
    rw [unchanged] at inChanges
    contradiction
  rw [Setting.changed?_eq_some_iff] at notChanged
  cases starts : setting.default? with
  | none =>
    apply absurd _ notChanged
    exact ⟨heldHere, fun default given => absurd (starts.symm.trans given) (nomatch ·)⟩
  | some default =>
    cases same : default.same value with
    | true => exact ⟨default, rfl, same⟩
    | false =>
      apply absurd _ notChanged
      refine ⟨heldHere, fun other given => ?_⟩
      obtain rfl := Option.some.inj (starts.symm.trans given)
      exact same

/-- Looked up in the changed values and then in the initial ones, a declared id has the same value as
looked up in the values themselves. -/
theorem rel_overlay {schema : Schema} {values : SettingValues} {setting : Setting}
    (member : setting ∈ schema.settings) (named : setting.id ≠ "")
    (declaredComparable : ∀ other ∈ schema.settings, other.IsComparable)
    (valuesComparable : ∀ value ∈ values.values, value.IsComparable) :
    Option.Rel (fun left right => left.same right = true)
      (((schema.changedValues values).get? setting.id).or
        ((initialValues schema.settings).get? setting.id))
      ((values.get? setting.id).or ((initialValues schema.settings).get? setting.id)) := by
  have declared : setting ∈ declaredAs setting.id schema.settings :=
    mem_declaredAs.mpr ⟨member, rfl⟩
  cases unchanged : (schema.changedValues values).get? setting.id with
  | some value =>
    obtain ⟨_, other, otherDeclared, changed⟩ := get?_changedValues_eq_some_iff.mp unchanged
    have held : values.get? setting.id = some value := by
      rw [← (mem_declaredAs.mp otherDeclared).2]
      exact (Setting.changed?_eq_some_iff.mp changed).1
    have inValues : value ∈ values.values :=
      List.mem_map.mpr ⟨_, OrderedMap.mem_of_get? held, rfl⟩
    rw [held]
    exact .some (valuesComparable value inValues).same_self
  | none =>
    cases held : values.get? setting.id with
    | none =>
      cases starts : (initialValues schema.settings).get? setting.id with
      | none => exact .none
      | some default =>
        obtain ⟨other, otherDeclared, given⟩ := exists_of_get?_initialValues named starts
        have comparable := declaredComparable other (mem_declaredAs.mp otherDeclared).1
        exact .some (comparable.of_default? given).same_self
    | some value =>
      cases starts : (initialValues schema.settings).get? setting.id with
      | none =>
        obtain ⟨default, given, _⟩ := exists_default?_of_unchanged named held unchanged declared
        have inDefaults := List.mem_filterMap.mpr ⟨setting, declared, given⟩
        rw [get?_initialValues named, List.getLast?_eq_none_iff] at starts
        rw [starts] at inDefaults
        exact absurd inDefaults List.not_mem_nil
      | some default =>
        obtain ⟨other, otherDeclared, given⟩ := exists_of_get?_initialValues named starts
        obtain ⟨same, givenSame, agrees⟩ :=
          exists_default?_of_unchanged named held unchanged otherDeclared
        obtain rfl := Option.some.inj (given.symm.trans givenSame)
        exact .some agrees

/-! ## Distinct ids -/

/-- No two settings of the section have one id. Settings without id do not count. -/
def Schema.HasDistinctIds (schema : Schema) : Prop :=
  schema.settings.Pairwise fun first second => first.id ≠ "" → first.id ≠ second.id

theorem declaredAs_of_distinct {settings : List Setting} {setting : Setting}
    (distinct : settings.Pairwise fun first second => first.id ≠ "" → first.id ≠ second.id)
    (member : setting ∈ settings) (named : setting.id ≠ "") :
    declaredAs setting.id settings = [setting] := by
  induction settings with
  | nil => exact absurd member List.not_mem_nil
  | cons first rest inductionHypothesis =>
    obtain ⟨others, later⟩ := List.pairwise_cons.mp distinct
    unfold declaredAs at inductionHypothesis ⊢
    rcases List.mem_cons.mp member with rfl | inRest
    · have nothing : rest.filter (fun other => other.id == setting.id) = [] := by
        rw [List.filter_eq_nil_iff]
        intro other inRest same
        exact others other inRest named (beq_iff_eq.mp same).symm
      rw [List.filter_cons_of_pos (by simp), nothing]
    · have other : first.id ≠ setting.id := by
        intro same
        exact others setting inRest (same ▸ named) same
      rw [List.filter_cons_of_neg (by simpa using other)]
      exact inductionHypothesis later inRest

theorem get?_changedValues_of_distinct {schema : Schema} (distinct : schema.HasDistinctIds)
    {setting : Setting} (member : setting ∈ schema.settings) (named : setting.id ≠ "")
    (values : SettingValues) :
    (schema.changedValues values).get? setting.id = setting.changed? values := by
  rw [get?_changedValues named, declaredAs_of_distinct distinct member named,
    List.filterMap_cons, List.filterMap_nil]
  cases setting.changed? values <;> rfl

theorem get?_initialValues_of_distinct {schema : Schema} (distinct : schema.HasDistinctIds)
    {setting : Setting} (member : setting ∈ schema.settings) (named : setting.id ≠ "") :
    (initialValues schema.settings).get? setting.id = setting.default? := by
  rw [get?_initialValues named, declaredAs_of_distinct distinct member named,
    List.filterMap_cons, List.filterMap_nil]
  cases setting.default? <;> rfl

/-- The initial values are no change. -/
theorem changedValues_initialValues {schema : Schema} (distinct : schema.HasDistinctIds)
    (comparable : ∀ setting ∈ schema.settings, setting.IsComparable) :
    schema.changedValues (initialValues schema.settings) = .empty := by
  have nothing : schema.settings.filterMap (fun setting =>
      setting.entry? (setting.changed? (initialValues schema.settings))) = [] := by
    rw [List.filterMap_eq_nil_iff]
    intro setting member
    unfold Setting.entry?
    split
    · rfl
    · next some =>
      have named : setting.id ≠ "" := by simpa using some
      cases changed : setting.changed? (initialValues schema.settings) with
      | none => rfl
      | some value =>
        obtain ⟨held, differs⟩ := Setting.changed?_eq_some_iff.mp changed
        have given := (get?_initialValues_of_distinct distinct member named).symm.trans held
        have same := ((comparable setting member).of_default? given).same_self
        rw [differs value given] at same
        contradiction
  rw [Schema.changedValues, nothing]
  rfl

/-- The changed values on top of the initial ones give each declared id a value that is the same as
the values on top of the initial ones. The changed values hold declared ids only; if no id is declared
twice, they hold an id exactly if the value under it is not the same as the default of its setting,
and the initial values have no changes. -/
theorem changedValues_overlay (schema : Schema) (values : SettingValues)
    (declaredComparable : ∀ setting ∈ schema.settings, setting.IsComparable)
    (valuesComparable : ∀ value ∈ values.values, value.IsComparable) :
    let initial := initialValues schema.settings
    let changed := schema.changedValues values
    (∀ setting ∈ schema.settings, setting.id ≠ "" →
      Option.Rel (fun left right => left.same right = true)
        ((changed.get? setting.id).or (initial.get? setting.id))
        ((values.get? setting.id).or (initial.get? setting.id))) ∧
    (∀ id value, changed.get? id = some value →
      id ≠ "" ∧ ∃ setting ∈ schema.settings, setting.id = id) ∧
    (schema.HasDistinctIds →
      (∀ setting ∈ schema.settings, setting.id ≠ "" → ∀ value,
        changed.get? setting.id = some value ↔ values.get? setting.id = some value ∧
          ∀ default, setting.default? = some default → default.same value = false) ∧
      schema.changedValues initial = .empty) := by
  intro initial changed
  refine ⟨?_, ?_, ?_⟩
  · intro setting member named
    exact rel_overlay member named declaredComparable valuesComparable
  · intro id value held
    obtain ⟨named, setting, declared, _⟩ := get?_changedValues_eq_some_iff.mp held
    exact ⟨named, setting, mem_declaredAs.mp declared⟩
  · intro distinct
    constructor
    · intro setting member named value
      rw [get?_changedValues_of_distinct distinct member named]
      exact Setting.changed?_eq_some_iff
    · exact changedValues_initialValues distinct declaredComparable

/-- Of a text at its default, a number away from it and a value that no setting declares, the number
alone is a change. -/
theorem changedValues_overlay_of_columns :
    let schema := { Schema.blank with settings :=
      [{ Setting.ofType .text with id := "title", default := some (.string "Hi") },
        { Setting.ofType .range with id := "columns", min := some 1 },
        Setting.ofType .header] }
    let values : SettingValues :=
      .ofList [("title", .string "Hi"), ("columns", .number 2), ("other", .bool true)]
    (∀ setting ∈ schema.settings, setting.IsComparable) ∧
    (∀ value ∈ values.values, value.IsComparable) ∧ schema.HasDistinctIds ∧
    (schema.changedValues values).keys = ["columns"] ∧
    schema.changedValues (initialValues schema.settings) = .empty := by
  intro schema values
  have declaredComparable : ∀ setting ∈ schema.settings, setting.IsComparable := by
    intro setting member
    simp only [schema, List.mem_cons, List.not_mem_nil, or_false] at member
    obtain rfl | rfl | rfl := member
    · exact ⟨fun value given => Option.some.inj given ▸ trivial, fun _ given => nomatch given⟩
    · refine ⟨fun _ given => (nomatch given), fun x given => ?_⟩
      obtain rfl := Option.some.inj given
      decide +kernel
    · exact ⟨fun _ given => (nomatch given), fun _ given => nomatch given⟩
  have valuesComparable : ∀ value ∈ values.values, value.IsComparable := by
    intro value member
    change value ∈ [.string "Hi", .number 2, .bool true] at member
    simp only [List.mem_cons, List.not_mem_nil, or_false] at member
    obtain rfl | rfl | rfl := member
    · trivial
    · change (2 : Float).isNaN = false
      decide +kernel
    · trivial
  have distinct : schema.HasDistinctIds := by
    change List.Pairwise _ [_, _, _]
    simp [Setting.ofType]
  have noChange := ((changedValues_overlay schema values declaredComparable valuesComparable).2.2
    distinct).2
  exact ⟨declaredComparable, valuesComparable, distinct, by decide +kernel, noChange⟩

end FlatLiquid
