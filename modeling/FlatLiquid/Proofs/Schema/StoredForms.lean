import FlatLiquid.Proofs.Schema.Overlay
import FlatLiquid.Proofs.Statement.LastBinding

/-!
Contract: the forms in which setting types store values.

Owns:
- the three forms, and which of them a type stores;
- the values in a form: what a type makes of any value, and what it leaves as it is;
- the form of the values that types fall back on.

Conforming a value and falling back on one are two tables over all types. They are tied together by
the form alone: conforming ends in the form of the type and stops there, and what a type falls back on
is in its form already.
-/

namespace FlatLiquid

/-! ## Forms -/

/-- What a type stores: a truth value, a number, or a text. -/
inductive StoredForm where
  | truth
  | quantity
  | wording
deriving DecidableEq, Repr

/-- The form that a type stores. Types that are not known store texts. -/
def SettingType.form : SettingType → StoredForm
  | .checkbox => .truth
  | .number | .range => .quantity
  | _ => .wording

namespace StoredForm

/-- The values in a form. What is not a number is no number. -/
inductive Holds : StoredForm → SettingValue → Prop where
  | truth (value : Bool) : Holds .truth (.bool value)
  | quantity {x : Float} (number : x.isNaN = false) : Holds .quantity (.number x)
  | wording (text : String) : Holds .wording (.string text)

/-- The value brought into the form. -/
def conform : StoredForm → SettingValue → SettingValue
  | .truth, value => .bool value.truth
  | .quantity, value => .number value.quantity
  | .wording, value => .string value.wording

end StoredForm

/-- Of a type only its form counts for what becomes of a value. -/
theorem SettingType.conform_eq (type : SettingType) (value : SettingValue) :
    type.conform value = type.form.conform value := by
  cases type <;> rfl

/-! ## Values in a form -/

/-- The number that is stored for a value is one that the value names, or zero in its place. -/
theorem SettingValue.exists_quantity (value : SettingValue) :
    ∃ x : Float, value.quantity = if x.isNaN then 0 else x := by
  cases value with
  | number x => exact ⟨x, rfl⟩
  | string text =>
    cases named : Decimal.readFloat? (Text.trim text.toList) with
    | none => exact ⟨0, by simp [quantity, named]⟩
    | some x => exact ⟨x, by simp [quantity, named]⟩
  | _ => exact ⟨0, by simp [quantity]⟩

theorem SettingValue.isNaN_quantity (value : SettingValue) : value.quantity.isNaN = false := by
  obtain ⟨x, stored⟩ := value.exists_quantity
  rw [stored]
  cases number : x.isNaN with
  | true =>
    rw [if_pos rfl]
    decide +kernel
  | false =>
    rw [if_neg Bool.false_ne_true]
    exact number

namespace StoredForm

variable {form : StoredForm} {value : SettingValue}

theorem holds_conform (form : StoredForm) (value : SettingValue) :
    form.Holds (form.conform value) := by
  cases form with
  | truth => exact .truth value.truth
  | quantity => exact .quantity value.isNaN_quantity
  | wording => exact .wording value.wording

/-- A value that is in the form already stays as it is. -/
theorem conform_of_holds (holds : form.Holds value) : form.conform value = value := by
  cases holds with
  | truth value => rfl
  | @quantity x number =>
    change SettingValue.number (if x.isNaN then 0 else x) = .number x
    rw [number, if_neg Bool.false_ne_true]
  | wording text => rfl

theorem conform_eq_self_iff : form.conform value = value ↔ form.Holds value := by
  constructor
  · intro same
    rw [← same]
    exact form.holds_conform value
  · exact conform_of_holds

/-- A variable can hold a value in a form. -/
theorem isFlat_of_holds (holds : form.Holds value) : value.isFlat = true := by
  cases holds <;> rfl

/-- A value in a form is the same as itself. -/
theorem same_self_of_holds (holds : form.Holds value) : value.same value = true := by
  apply SettingValue.IsComparable.same_self
  cases holds with
  | truth value => trivial
  | quantity number => exact number
  | wording text => trivial

end StoredForm

/-! ## Values to fall back on -/

/-- What a type falls back on is in its form, unless it is a least number that is none. -/
theorem Setting.holds_fallback? {setting : Setting} {value : SettingValue}
    (falls : setting.fallback? = some value)
    (least : ∀ x, setting.min = some x → x.isNaN = false) :
    setting.type.form.Holds value := by
  have number : (setting.min.getD 0).isNaN = false := by
    cases declared : setting.min with
    | none => decide +kernel
    | some x => exact least x declared
  unfold Setting.fallback? at falls
  cases type : setting.type with
  | header | paragraph => simp [type] at falls
  | number | range =>
    simp only [type, Option.some.injEq] at falls
    exact falls ▸ .quantity number
  | checkbox =>
    simp only [type, Option.some.injEq] at falls
    exact falls ▸ .truth false
  | _ =>
    -- all other types fall back on a text, be it an empty one
    simp only [type, Option.some.injEq] at falls
    exact falls ▸ .wording _

/-- What a type makes of a value is in the form of the type: it is the same as itself, a variable can
hold it, and the type makes nothing else of it. A type leaves alone what is in its form and nothing
else. What a setting falls back on is in the form of its type, if its least number is one. -/
theorem conform_settled :
    (∀ (type : SettingType) (value : SettingValue),
      type.conform (type.conform value) = type.conform value ∧
        (type.conform value).same (type.conform value) = true ∧
        (∀ name, (Statement.ofValue? name (type.conform value)).isSome = true) ∧
        (type.conform value = value ↔ type.form.Holds value)) ∧
      ∀ (setting : Setting) (value : SettingValue), setting.fallback? = some value →
        (∀ x, setting.min = some x → x.isNaN = false) →
          setting.type.conform value = value ∧ value.same value = true := by
  constructor
  · intro type value
    have holds := type.form.holds_conform value
    rw [type.conform_eq, type.conform_eq]
    refine ⟨StoredForm.conform_of_holds holds, StoredForm.same_self_of_holds holds, ?_,
      StoredForm.conform_eq_self_iff⟩
    intro name
    obtain ⟨statement, bound, _⟩ :=
      Statement.ofValue?_of_isFlat name (StoredForm.isFlat_of_holds holds)
    exact Option.isSome_of_eq_some bound
  · intro setting value falls least
    have holds := Setting.holds_fallback? falls least
    rw [setting.type.conform_eq]
    exact ⟨StoredForm.conform_of_holds holds, StoredForm.same_self_of_holds holds⟩

/-- A range falls back on its least number, which it then stores as it is. -/
theorem conform_settled_of_opacity :
    let setting : Setting := { Setting.ofType .range with min := some 0.5 }
    setting.fallback? = some (.number 0.5) ∧
      (∀ x, setting.min = some x → x.isNaN = false) ∧
      setting.type.conform (.number 0.5) = .number 0.5 := by
  intro setting
  have least : ∀ x, setting.min = some x → x.isNaN = false := by
    intro x given
    obtain rfl := Option.some.inj given
    decide +kernel
  exact ⟨rfl, least, (conform_settled.2 setting (.number 0.5) rfl least).1⟩

end FlatLiquid
