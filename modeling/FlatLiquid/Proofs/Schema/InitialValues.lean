import FlatLiquid.Proofs.CommandLine.Products
import FlatLiquid.Proofs.OrderedMap
import FlatLiquid.Proofs.Schema.Labels
import FlatLiquid.Proofs.Schema.Overlay

/-!
Contract: the values that settings start with, for every list of settings.

Owns:
- the settings that hold a value;
- the ids of the initial values, their order, and the value under each;
- the initial values of settings with their labels in place, which are the same.

An id may be declared several times, and by notes as well. Its place among the initial values is
that of the first setting that holds a value under it, and its value is that of the last one.
-/

namespace FlatLiquid

/-! ## Settings that hold a value -/

/-- The setting has an id and is no note of the editor. -/
def Setting.holdsValue (setting : Setting) : Bool :=
  !setting.id.isEmpty && setting.type != .header && setting.type != .paragraph

namespace Setting

theorem holdsValue_iff {setting : Setting} :
    setting.holdsValue = true ↔
      setting.id ≠ "" ∧ setting.type ≠ .header ∧ setting.type ≠ .paragraph := by
  simp [holdsValue, and_assoc]

theorem isDisplayOnly_eq_false_iff {setting : Setting} :
    setting.type.isDisplayOnly = false ↔
      setting.type ≠ .header ∧ setting.type ≠ .paragraph := by
  cases setting.type <;> simp [SettingType.isDisplayOnly]

/-- Every type but those of notes has a value to fall back on. -/
theorem isSome_fallback? (setting : Setting) :
    setting.fallback?.isSome = !setting.type.isDisplayOnly := by
  unfold fallback? SettingType.isDisplayOnly
  split <;> simp_all

theorem default?_of_holdsValue {setting : Setting} (holds : setting.holdsValue = true) :
    setting.default? = setting.default.or setting.fallback? := by
  have valued := isDisplayOnly_eq_false_iff.mpr (holdsValue_iff.mp holds).2
  rw [default?, valued, if_neg Bool.false_ne_true]
  cases setting.default <;> rfl

theorem isSome_default?_of_holdsValue {setting : Setting} (holds : setting.holdsValue = true) :
    setting.default?.isSome = true := by
  have valued := isDisplayOnly_eq_false_iff.mpr (holdsValue_iff.mp holds).2
  rw [default?_of_holdsValue holds, Option.isSome_or, isSome_fallback?, valued]
  exact Bool.or_true _

/-- A setting with an id that holds no value is a note. -/
theorem default?_of_not_holdsValue {setting : Setting} (named : setting.id ≠ "")
    (holds : ¬ setting.holdsValue = true) : setting.default? = none := by
  have note : setting.type.isDisplayOnly = true := by
    by_contra valued
    rw [Bool.not_eq_true, isDisplayOnly_eq_false_iff] at valued
    exact holds (holdsValue_iff.mpr ⟨named, valued⟩)
  rw [default?, if_pos note]

/-- A setting has an entry among the initial values exactly if it holds a value. -/
theorem entry?_default? (setting : Setting) :
    setting.entry? setting.default? =
      if setting.holdsValue then setting.default?.map fun value => (setting.id, value)
      else none := by
  by_cases holds : setting.holdsValue = true
  · have named : setting.id.isEmpty = false := by simpa using (holdsValue_iff.mp holds).1
    unfold entry?
    rw [named, if_pos holds, if_neg Bool.false_ne_true]
  · rw [if_neg holds]
    unfold entry?
    split
    · rfl
    · next named =>
      rw [default?_of_not_holdsValue (by simpa using named) holds]
      rfl

end Setting

/-- The settings that hold a value, in the order of declaration. -/
def valueHolders (settings : List Setting) : List Setting :=
  settings.filter Setting.holdsValue

theorem mem_valueHolders {settings : List Setting} {setting : Setting} :
    setting ∈ valueHolders settings ↔ setting ∈ settings ∧
      setting.id ≠ "" ∧ setting.type ≠ .header ∧ setting.type ≠ .paragraph := by
  rw [valueHolders, List.mem_filter, Setting.holdsValue_iff]

/-- Notes with an id give nothing for it. -/
theorem filterMap_declaredAs_valueHolders {id : String} (named : id ≠ "")
    (settings : List Setting) :
    (declaredAs id settings).filterMap Setting.default? =
      (declaredAs id (valueHolders settings)).filterMap Setting.default? := by
  have swapped : declaredAs id (valueHolders settings) =
      (declaredAs id settings).filter Setting.holdsValue := List.filter_comm _ _ _
  rw [swapped, List.filterMap_filter]
  refine List.filterMap_congr fun setting member => ?_
  split
  · rfl
  · next holds =>
    refine Setting.default?_of_not_holdsValue ?_ holds
    rwa [(mem_declaredAs.mp member).2]

/-! ## Ids and values -/

/-- The ids of the settings that hold a value, each where it is declared first. -/
theorem keys_initialValues (settings : List Setting) :
    (initialValues settings).keys = ((valueHolders settings).map Setting.id).eraseDups := by
  have ids : (settings.filterMap fun setting => setting.entry? setting.default?).map Prod.fst =
      (valueHolders settings).map Setting.id := by
    induction settings with
    | nil => rfl
    | cons setting rest inductionHypothesis =>
      unfold valueHolders at inductionHypothesis ⊢
      rw [List.filterMap_cons, Setting.entry?_default?, List.filter_cons]
      by_cases holds : setting.holdsValue = true
      · obtain ⟨value, given⟩ :=
          Option.isSome_iff_exists.mp (setting.isSome_default?_of_holdsValue holds)
        rw [if_pos holds, if_pos holds, given]
        simp [inductionHypothesis]
      · rw [if_neg holds, if_neg holds]
        exact inductionHypothesis
  rw [initialValues, OrderedMap.keys_ofList, ids]

/-- The initial value under an id is the default of the last setting that holds a value under it. -/
theorem get?_initialValues_of_last (id : String) (settings : List Setting) :
    (initialValues settings).get? id =
      (declaredAs id (valueHolders settings)).getLast?.bind
        fun setting => setting.default.or setting.fallback? := by
  by_cases named : id = ""
  · have nothing : (initialValues settings).get? "" = none :=
      get?_ofList_filterMap_empty (fun _ => rfl) settings
    have noHolder : declaredAs "" (valueHolders settings) = [] := by
      refine List.filter_eq_nil_iff.mpr fun setting member unnamed => ?_
      exact (mem_valueHolders.mp member).2.1 (beq_iff_eq.mp unnamed)
    rw [named, nothing, noHolder]
    rfl
  · have holders := filterMap_declaredAs_valueHolders named settings
    have given : ∀ setting ∈ declaredAs id (valueHolders settings),
        setting.default?.isSome = true := fun setting member =>
      Setting.isSome_default?_of_holdsValue (List.mem_filter.mp (mem_declaredAs.mp member).1).2
    rw [get?_initialValues named, holders, getLast?_filterMap_of_isSome given]
    cases last : (declaredAs id (valueHolders settings)).getLast? with
    | none => rfl
    | some setting =>
      have member := (mem_declaredAs.mp (List.mem_of_getLast? last)).1
      exact Setting.default?_of_holdsValue (List.mem_filter.mp member).2

/-! ## Labels -/

/-- Labels take no part in the entry of a setting. -/
theorem Setting.entry?_withoutLabels (setting : Setting) :
    setting.withoutLabels.entry? setting.withoutLabels.default? =
      setting.entry? setting.default? := by
  have falls : setting.withoutLabels.fallback? = setting.fallback? := by
    have choices : (setting.options.map Choice.withoutLabels).head?.map Choice.value =
        setting.options.head?.map Choice.value := by
      rw [List.head?_map, Option.map_map]
      rfl
    simp only [fallback?, withoutLabels, choices]
  unfold entry? default?
  rw [falls]
  rfl

theorem initialValues_map_resolveLabels (settings : List Setting) :
    initialValues (settings.map Setting.resolveLabels) = initialValues settings := by
  have entries :
      (fun setting : Setting => setting.entry? setting.default?) ∘ Setting.resolveLabels =
        fun setting => setting.entry? setting.default? := by
    funext setting
    rw [Function.comp_apply, ← Setting.entry?_withoutLabels, Setting.withoutLabels_resolveLabels,
      Setting.entry?_withoutLabels]
  rw [initialValues, List.filterMap_map, entries]
  rfl

theorem initialValues_labelledSettings (schema : Schema) :
    initialValues schema.labelledSettings = initialValues schema.settings := by
  rw [Schema.labelledSettings, initialValues_map_resolveLabels, initialValues,
    List.filterMap_filter, initialValues]
  congr 1
  refine List.filterMap_congr fun setting _ => ?_
  split
  · rfl
  · next unnamed =>
    rw [Bool.not_eq_true, Bool.not_eq_false'] at unnamed
    unfold Setting.entry?
    rw [if_pos unnamed]

/-- The initial values hold the ids of settings that are no notes, each where such a setting has it
first, with the default of the last such setting. Labels make no difference to them, so that a
schema is shown with the values that a preview of it starts with. -/
theorem initialValues_declared :
    (∀ settings : List Setting,
      let initial := initialValues settings
      let ids := (valueHolders settings).map Setting.id
      (∀ id, id ∈ initial.keys ↔ id ≠ "" ∧ ∃ setting ∈ settings,
        setting.id = id ∧ setting.type ≠ .header ∧ setting.type ≠ .paragraph) ∧
      initial.keys.Nodup ∧
      initial.keys.Pairwise (fun first second => ids.idxOf first < ids.idxOf second) ∧
      ∀ id, initial.get? id = (declaredAs id (valueHolders settings)).getLast?.bind
        fun setting => setting.default.or setting.fallback?) ∧
    ∀ schema : Schema,
      initialValues schema.labelledSettings = initialValues schema.settings ∧
      initialValues schema.resolveLabels.labelledSettings = initialValues schema.settings ∧
      ∀ (request : PreviewRequest) (options : PreviewOptions) (raw : Bool),
        let selected := (selectSettings (some schema) { request with settings := none } options).1
        selected = initialValues schema.settings ∧
        CommandLine.schemaText schema true raw = (settingValuesCodec.write selected).indented := by
  constructor
  · intro settings initial ids
    have keys : initial.keys = ids.eraseDups := keys_initialValues settings
    refine ⟨fun id => ?_, initial.distinct, ?_, fun id => get?_initialValues_of_last id settings⟩
    · rw [keys, List.mem_eraseDups, List.mem_map]
      constructor
      · rintro ⟨setting, member, rfl⟩
        obtain ⟨declared, named, valued⟩ := mem_valueHolders.mp member
        exact ⟨named, setting, declared, rfl, valued⟩
      · rintro ⟨named, setting, declared, rfl, valued⟩
        exact ⟨setting, mem_valueHolders.mpr ⟨declared, named, valued⟩, rfl⟩
    · rw [keys]
      exact pairwise_idxOf_eraseDups ids
  · intro schema
    have labelled := initialValues_labelledSettings schema
    refine ⟨labelled, ?_, fun request options raw => ⟨rfl, ?_⟩⟩
    · rw [schema.labelledSettings_resolveLabels, labelled]
    · rw [CommandLine.schemaText, if_pos rfl, labelled]
      rfl

end FlatLiquid
