import FlatLiquid.Proofs.Decimal.Whole
import FlatLiquid.Proofs.Json.Scanning
import FlatLiquid.Proofs.Json.Yielding
import FlatLiquid.Proofs.OrderedMap
import FlatLiquid.Schema.Definition

/-!
Contract: what becomes of a value that is written as JSON and read again.

Owns:
- sound values: what is unsupported is an array or an object;
- setting values that carry what is asked of them, and how they come from a text;
- the values that are written as null;
- JSON that is the same as itself, and the value that is read from JSON the same as a written value.
-/

namespace FlatLiquid

/-! ## JSON that is the same as itself -/

namespace Json

/-- A number that is read back is finite, since all others are written as null. -/
theorem isFinite_of_readBack {x : Float}
    (readBack : parse (printNumber (.real x)) = .ok (.number (.real x))) : x.isFinite = true := by
  cases finite : x.isFinite with
  | true => rfl
  | false =>
    have asNull : printNumber (.real x) = Json.null.indented.toList := by
      rw [printNumber, finite]
      exact String.toList_ofList.symm
    have noNumbers : Json.null.NumbersReadBack := .of_no_number rfl
    have noKeys : Json.null.HasDistinctKeys :=
      hasDistinctKeys_of_single rfl fun _ => Json.noConfusion
    rw [asNull, parse_indented noNumbers noKeys (by decide)] at readBack
    exact nomatch Except.ok.inj readBack

/-- No number inside the value is NaN. -/
def HasNoNaN (value : Json) : Prop :=
  ∀ x, .number (.real x) ∈ value.parts → x.isNaN = false

theorem NumbersReadBack.hasNoNaN {value : Json} (readBack : value.NumbersReadBack) :
    value.HasNoNaN := by
  intro x member
  exact Decimal.isNaN_of_isFinite (isFinite_of_readBack (readBack _ member))

theorem HasNoNaN.of_mem_items {item : Json} {items : List Json}
    (noNaN : (Json.array items).HasNoNaN) (member : item ∈ items) : item.HasNoNaN := by
  intro x inside
  exact noNaN x (mem_parts_of_mem_items member inside)

theorem HasNoNaN.of_mem_fields {field : String × Json} {fields : List (String × Json)}
    (noNaN : (Json.object fields).HasNoNaN) (member : field ∈ fields) : field.2.HasNoNaN := by
  intro x inside
  exact noNaN x (mem_parts_of_mem_fields member inside)

mutual

theorem same_self : (value : Json) → value.HasDistinctKeys → value.HasNoNaN →
    value.same value = true
  | .null, _, _ => rfl
  | .bool value, _, _ => by simp [same]
  | .number (.whole value), _, _ => by simp [same, Number.same]
  | .number (.real x), _, noNaN => by
    rw [same, Number.same]
    exact Decimal.beq_self_of_isNaN (noNaN x (mem_parts _))
  | .string text, _, _ => by simp [same]
  | .array items, distinct, noNaN => by
    rw [same]
    exact sameItems_self items (fun item member => distinct.of_mem_items member)
      fun item member => noNaN.of_mem_items member
  | .object fields, distinct, noNaN => by
    rw [same, beq_self_eq_true, Bool.true_and]
    exact sameFields_of_lookup fields fields
      (fun field member => lookup_of_mem (distinct fields (mem_parts _)) member)
      (fun field member => distinct.of_mem_fields member)
      fun field member => noNaN.of_mem_fields member

theorem sameItems_self : (items : List Json) → (∀ item ∈ items, item.HasDistinctKeys) →
    (∀ item ∈ items, item.HasNoNaN) → sameItems items items = true
  | [], _, _ => rfl
  | item :: rest, distinct, noNaN => by
    rw [sameItems, same_self item (distinct _ List.mem_cons_self) (noNaN _ List.mem_cons_self),
      Bool.true_and]
    exact sameItems_self rest (fun item member => distinct item (List.mem_cons_of_mem _ member))
      fun item member => noNaN item (List.mem_cons_of_mem _ member)

theorem sameFields_of_lookup : (lefts rights : List (String × Json)) →
    (∀ field ∈ lefts, rights.lookup field.1 = some field.2) →
    (∀ field ∈ lefts, field.2.HasDistinctKeys) → (∀ field ∈ lefts, field.2.HasNoNaN) →
      sameFields lefts rights = true
  | [], _, _, _, _ => rfl
  | (key, value) :: rest, rights, found, distinct, noNaN => by
    have there : rights.lookup key = some value := found (key, value) List.mem_cons_self
    have first := same_self value (distinct (key, value) List.mem_cons_self)
      (noNaN (key, value) List.mem_cons_self)
    rw [sameFields, there]
    simp only [first, Bool.true_and]
    exact sameFields_of_lookup rest rights
      (fun field member => found field (List.mem_cons_of_mem _ member))
      (fun field member => distinct field (List.mem_cons_of_mem _ member))
      fun field member => noNaN field (List.mem_cons_of_mem _ member)

end

end Json

/-! ## Values -/

namespace SettingValue

/-- What is unsupported is an array or an object, whose objects name no key twice. -/
def IsSound : SettingValue → Prop
  | .unsupported (.array items) => (Json.array items).HasDistinctKeys
  | .unsupported (.object fields) => (Json.object fields).HasDistinctKeys
  | .unsupported _ => False
  | _ => True

/-- Nil and the numbers that are not finite have no form in JSON but null. -/
def isAbsent : SettingValue → Bool
  | .nil => true
  | .number x => !x.isFinite
  | _ => false

/-- Whatever is read from a text is sound. -/
theorem isSound_of_read {depth : Nat} {node : Json.Node} {value : SettingValue}
    (read : codec.read depth node = .ok value) : value.IsSound := by
  obtain ⟨json, asJson, rfl⟩ := exists_of_map_eq_ok read
  have distinct := Json.Node.hasDistinctKeys_of_read node asJson
  cases json with
  | array items => exact distinct
  | object fields => exact distinct
  | _ => trivial

theorem hasDistinctKeys_toJson {value : SettingValue} (sound : value.IsSound) :
    value.toJson.HasDistinctKeys := by
  cases value with
  | number x =>
    rw [toJson]
    split
    · exact Json.hasDistinctKeys_of_single rfl fun _ => Json.noConfusion
    · split
      · exact Json.hasDistinctKeys_of_single rfl fun _ => Json.noConfusion
      · exact Json.hasDistinctKeys_of_single rfl fun _ => Json.noConfusion
  | unsupported json =>
    cases json with
    | array items => exact sound
    | object fields => exact sound
    | _ => exact sound.elim
  | _ => exact Json.hasDistinctKeys_of_single rfl fun _ => Json.noConfusion

end SettingValue

/-! ## Setting values that carry their soundness -/

/-- Setting values in which no object names a key twice. -/
structure KeyedValues extends OrderedMap SettingValue where
  keyed : ∀ entry ∈ entries, entry.2.toJson.HasDistinctKeys

/-- Setting values that are sound. -/
structure SoundValues extends KeyedValues where
  sound : ∀ entry ∈ entries, entry.2.IsSound
  keyed := fun entry member => SettingValue.hasDistinctKeys_toJson (sound entry member)

instance : Coe KeyedValues SettingValues := ⟨KeyedValues.toOrderedMap⟩

instance : Coe SoundValues KeyedValues := ⟨SoundValues.toKeyedValues⟩

theorem KeyedValues.hasDistinctKeys_of_get? (values : KeyedValues) {id : String}
    {value : SettingValue} (found : values.get? id = some value) : value.toJson.HasDistinctKeys :=
  values.keyed (id, value) (OrderedMap.mem_of_get? found)

theorem SoundValues.isSound_of_get? (values : SoundValues) {id : String} {value : SettingValue}
    (found : values.get? id = some value) : value.IsSound :=
  values.sound (id, value) (OrderedMap.mem_of_get? found)

/-- Values that have been read from a text are sound. -/
def SoundValues.ofRead {depth : Nat} {node : Json.Node} {values : SettingValues}
    (read : settingValuesCodec.read depth node = .ok values) : SoundValues where
  toOrderedMap := values
  sound := by
    have yields : settingValuesCodec.Yields depth fun values =>
        ∀ entry ∈ values.entries, entry.2.IsSound :=
      Json.Codec.Yields.map fun _ _ => SettingValue.isSound_of_read
    exact yields node values read

/-! ## JSON that is the same as a value -/

namespace Json

theorem eq_null_of_same {json : Json} (same : json.same .null = true) : json = .null := by
  cases json with
  | null => rfl
  | _ => exact absurd same Bool.false_ne_true

theorem eq_whole_of_same {json : Json} {whole : Int}
    (same : json.same (.number (.whole whole)) = true) : json = .number (.whole whole) := by
  cases json with
  | number number =>
    cases number with
    | whole other =>
      obtain rfl : other = whole := beq_iff_eq.mp same
      rfl
    | real y => exact absurd same Bool.false_ne_true
  | _ => exact absurd same Bool.false_ne_true

theorem exists_real_of_same {json : Json} {x : Float}
    (same : json.same (.number (.real x)) = true) :
    ∃ y, json = .number (.real y) ∧ (y == x) = true := by
  cases json with
  | number number =>
    cases number with
    | whole other => exact absurd same Bool.false_ne_true
    | real y => exact ⟨y, rfl, same⟩
  | _ => exact absurd same Bool.false_ne_true

end Json

namespace SettingValue

/-- JSON that is the same as a written value stands for nothing if the value is written as null, and
for the same value otherwise. -/
theorem ofJson_same {value : SettingValue} {json : Json} (sound : value.IsSound)
    (same : json.same value.toJson = true) :
    if value.isAbsent then json = .null
    else json ≠ .null ∧ (SettingValue.ofJson json).same value = true := by
  cases value with
  | bool value =>
    cases json with
    | bool other => exact ⟨fun null => (nomatch null), same⟩
    | _ => exact absurd same Bool.false_ne_true
  | string text =>
    cases json with
    | string other => exact ⟨fun null => (nomatch null), same⟩
    | _ => exact absurd same Bool.false_ne_true
  | nil => exact Json.eq_null_of_same same
  | number x =>
    rw [isAbsent]
    rw [toJson] at same
    split at same
    · next whole found =>
      rw [Decimal.isFinite_of_wholeNumber? found]
      obtain rfl := Json.eq_whole_of_same same
      exact ⟨fun null => (nomatch null), Decimal.ofInt_beq_of_wholeNumber? found⟩
    · split at same
      · next finite =>
        rw [finite]
        obtain ⟨y, rfl, equal⟩ := Json.exists_real_of_same same
        exact ⟨fun null => (nomatch null), equal⟩
      · next infinite =>
        rw [Bool.not_eq_true] at infinite
        rw [infinite]
        exact Json.eq_null_of_same same
  | unsupported inner =>
    cases inner with
    | array items =>
      cases json with
      | array others => exact ⟨fun null => (nomatch null), same⟩
      | _ => exact absurd same Bool.false_ne_true
    | object fields =>
      cases json with
      | object others => exact ⟨fun null => (nomatch null), same⟩
      | _ => exact absurd same Bool.false_ne_true
    | _ => exact sound.elim

end SettingValue

end FlatLiquid
