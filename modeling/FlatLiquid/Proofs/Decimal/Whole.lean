import FlatLiquid.Schema.SettingValue
import Mathlib.Algebra.Group.Nat.Defs

/-!
Contract: a double that is a whole number is the double nearest to this whole number.

Owns:
- the double nearest to a whole number below two to the power of 53, as a significand and an exponent;
- the exact value of a double, in terms of the fields that the double is made of;
- the way from a double of ordinary size to a whole number and back.

A whole number is turned into a double by shifting it until its significand has 53 bits, and by a
multiplication with one, which shifts the significand to the left and back again.
-/

namespace FlatLiquid.Decimal

open Float.Model (Format UnpackedFloat totalExponent)
open Float.Model.UnpackedFloat (Sign ExtendedMantissa)

variable {sign : Sign} {significand : Nat} {exponent : Int}

/-! ## Rounding that changes nothing -/

theorem log2_mul_two_pow {n : Nat} (positive : 0 < n) (count : Nat) :
    (n * 2 ^ count).log2 = n.log2 + count := by
  induction count with
  | zero => rw [Nat.pow_zero, Nat.mul_one, Nat.add_zero]
  | succ count inductionHypothesis =>
    have shifted : 0 < n * 2 ^ count := Nat.mul_pos positive (Nat.two_pow_pos count)
    rw [Nat.pow_succ, ← Nat.mul_assoc, Nat.mul_comm _ 2, Nat.log2_two_mul (by omega),
      inductionHypothesis, Nat.add_assoc]

/-- Bits that are all zero are dropped without a trace. -/
theorem shiftRight_exact (significand count : Nat) :
    (⟨significand * 2 ^ count, false, false⟩ : ExtendedMantissa) >>> count =
      ⟨significand, false, false⟩ := by
  induction count generalizing significand with
  | zero =>
    rw [Nat.pow_zero, Nat.mul_one]
    rfl
  | succ count inductionHypothesis =>
    have before := inductionHypothesis (significand * 2)
    change Nat.repeat _ _ _ = _ at before
    change ExtendedMantissa.shiftRightOne (Nat.repeat _ count _) = _
    rw [Nat.pow_succ, Nat.mul_comm _ 2, ← Nat.mul_assoc, before]
    have half : significand * 2 / 2 = significand := by omega
    have even : significand * 2 % 2 = 0 := by omega
    change (⟨significand * 2 / 2, significand * 2 % 2 != 0, false || false⟩ :
      ExtendedMantissa) = _
    rw [half, even]
    rfl

theorem shiftToTargetExponent_eq (count : Nat)
    (distance : (max (significand.log2 + 1 + exponent - 53 : Int) (-1074) - exponent).toNat = count) :
    UnpackedFloat.shiftToTargetExponent .binary64 significand exponent .exact =
      ((⟨significand, false, false⟩ : ExtendedMantissa) >>> count, exponent + count) := by
  subst distance
  rfl

/-- A significand of 53 bits stays where it is. -/
theorem shiftToTargetExponent_of_log2 (size : significand.log2 = 52) (least : -1074 ≤ exponent) :
    UnpackedFloat.shiftToTargetExponent .binary64 significand exponent .exact =
      (⟨significand, false, false⟩, exponent) := by
  rw [shiftToTargetExponent_eq 0 (by rw [size]; omega)]
  exact congrArg _ (Int.add_zero exponent)

theorem finite_of_shifted (shifted : ExtendedMantissa × Int)
    (same : shifted = (⟨significand, false, false⟩, exponent)) (positive : 0 < significand) :
    (if zero : shifted.1.mantissa = 0 then UnpackedFloat.zero sign
      else .finite sign shifted.1.mantissa shifted.2 (Nat.pos_of_ne_zero zero)) =
      .finite sign significand exponent positive := by
  subst same
  exact dif_neg (Nat.pos_iff_ne_zero.mp positive)

/-- Rounding is exact if the shift leaves a significand of 53 bits. -/
theorem roundWithAccuracy_of_shifted {wide : Nat} {start : Int} (size : significand.log2 = 52)
    (least : -1074 ≤ exponent) (positive : 0 < significand)
    (shifted : UnpackedFloat.shiftToTargetExponent .binary64 wide start .exact =
      (⟨significand, false, false⟩, exponent)) :
    UnpackedFloat.roundWithAccuracy .binary64 sign wide start .exact =
      .finite sign significand exponent positive := by
  have again : UnpackedFloat.shiftToTargetExponent .binary64
      (UnpackedFloat.shiftToTargetExponent .binary64 wide start .exact).1.roundedMantissa
      (UnpackedFloat.shiftToTargetExponent .binary64 wide start .exact).2 .exact =
      (⟨significand, false, false⟩, exponent) := by
    rw [shifted]
    exact shiftToTargetExponent_of_log2 size least
  exact finite_of_shifted _ again positive

theorem mul_one_of_log2 (size : significand.log2 = 52) (least : -1074 ≤ exponent)
    (positive : 0 < significand) :
    UnpackedFloat.mul .binary64 (.finite .positive significand exponent positive)
        (.finite .positive (2 ^ 52) (-52) (by decide)) =
      .finite .positive significand exponent positive := by
  have product : (significand * 2 ^ 52).log2 = 104 := by rw [log2_mul_two_pow positive, size]
  have shifted : UnpackedFloat.shiftToTargetExponent .binary64 (significand * 2 ^ 52)
      (exponent + -52) .exact = (⟨significand, false, false⟩, exponent) := by
    rw [shiftToTargetExponent_eq 52 (by rw [product]; omega), shiftRight_exact]
    congr 1
    omega
  exact roundWithAccuracy_of_shifted size least positive shifted

/-- A whole number is shifted to the left until its significand has 53 bits. -/
theorem ofNat_of_log2 {n count : Nat} (size : (n * 2 ^ count).log2 = 52) (positive : 0 < n) :
    UnpackedFloat.ofNat .binary64 n =
      .finite .positive (n * 2 ^ count) (-count) (Nat.mul_pos positive (Nat.two_pow_pos count)) := by
  have bits : n.log2 + count = 52 := by rw [← size, log2_mul_two_pow positive]
  have distance : (0 - Format.binary64.targetExponent (totalExponent n 0)).toNat = count := by
    change (0 - max (n.log2 + 1 + (0 : Int) - 53) (-1074)).toNat = count
    omega
  have greater : compare (n : Int) 0 = .gt := Int.compare_eq_gt.mpr (by omega)
  change UnpackedFloat.normalize .binary64 n 0 .positive = _
  delta UnpackedFloat.normalize
  rw [greater]
  change UnpackedFloat.roundWithAccuracy .binary64 .positive
    (n <<< (0 - Format.binary64.targetExponent (totalExponent n 0)).toNat)
    (0 - ((0 - Format.binary64.targetExponent (totalExponent n 0)).toNat : Int)) .exact = _
  rw [distance, Nat.shiftLeft_eq, Int.zero_sub]
  have least : (-1074 : Int) ≤ -count := by omega
  exact roundWithAccuracy_of_shifted size least _ (shiftToTargetExponent_of_log2 size least)

/-! ## Packing and unpacking -/

theorem toNat_implicit (fraction : BitVec 52) :
    (1#1 ++ fraction).toNat = 2 ^ 52 + fraction.toNat := by
  rw [BitVec.toNat_append, ← Nat.shiftLeft_add_eq_or_of_lt fraction.isLt]
  rfl

theorem toNat_implicit_pos (fraction : BitVec 52) : 0 < (1#1 ++ fraction).toNat := by
  rw [toNat_implicit]
  omega

/-- A double with these fields. -/
def ofFields (sign : Sign) (exponent : BitVec 11) (fraction : BitVec 52) : UnpackedFloat :=
  if exponent = -1#11 then if fraction = 0#52 then .infinity sign else .notANumber
  else if exponent = 0#11 then
    if zero : fraction = 0#52 then .zero sign
    else .finite sign fraction.toNat (exponent.toNat - ((1023 : Nat) + (52 : Nat)) + 1)
      (BitVec.toNat_pos_of_ne_zero zero)
  else .finite sign (1#1 ++ fraction).toNat (exponent.toNat - ((1023 : Nat) + (52 : Nat)))
    (toNat_implicit_pos fraction)

theorem unpack_eq_ofFields (bits : BitVec 64) :
    UnpackedFloat.unpack .binary64 bits =
      ofFields (Sign.ofBitVec (@UnpackedFloat.unpackSign .binary64 bits))
        (@UnpackedFloat.unpackExponent .binary64 bits)
        (@UnpackedFloat.unpackMantissa .binary64 bits) := rfl

theorem finite_congr {left right : Nat} {first second : Int} {leftPositive : 0 < left}
    {rightPositive : 0 < right} (sameSignificand : left = right) (sameExponent : first = second) :
    UnpackedFloat.finite sign left first leftPositive =
      .finite sign right second rightPositive := by
  subst sameSignificand sameExponent
  rfl

theorem ofFields_normal {exponent : BitVec 11} (notTop : exponent.toNat ≠ 2047)
    (notBottom : exponent.toNat ≠ 0) (fraction : BitVec 52) :
    ofFields sign exponent fraction =
      .finite sign (2 ^ 52 + fraction.toNat) (exponent.toNat - 1075) (by omega) := by
  have finite : exponent ≠ -1#11 := by
    rintro rfl
    exact notTop (by decide)
  have normal : exponent ≠ 0#11 := by
    rintro rfl
    exact notBottom (by decide)
  rw [ofFields, if_neg finite, if_neg normal]
  exact finite_congr (toNat_implicit fraction) rfl

theorem getLsbD_top (sign : BitVec 1) (exponent : BitVec 11) (fraction : BitVec 52) :
    (sign ++ exponent ++ fraction).getLsbD 63 = sign.getLsbD 0 := by
  rw [BitVec.getLsbD_append, BitVec.getLsbD_append]
  rfl

theorem unpackSign_packComponents (sign : Sign) (exponent : BitVec 11) (fraction : BitVec 52) :
    Sign.ofBitVec (UnpackedFloat.unpackSign
      (UnpackedFloat.packComponents .binary64 sign exponent fraction)) = sign := by
  have bit : UnpackedFloat.unpackSign
      (UnpackedFloat.packComponents .binary64 sign exponent fraction) = sign.toBitVec := by
    delta UnpackedFloat.unpackSign UnpackedFloat.packComponents
    apply BitVec.eq_of_getLsbD_eq
    intro i within
    obtain rfl : i = 0 := by omega
    rw [BitVec.getLsbD_cast, BitVec.getLsbD_extractLsb]
    simp
    exact getLsbD_top sign.toBitVec exponent fraction
  rw [bit]
  cases sign <;> rfl

/-- A significand of 53 bits is unpacked as it was packed. -/
theorem unpack_pack_of_log2 (size : significand.log2 = 52) (least : -1074 ≤ exponent)
    (most : exponent ≤ 0) (positive : 0 < significand) :
    UnpackedFloat.unpack .binary64
        (UnpackedFloat.pack .binary64 (.finite sign significand exponent positive)) =
      .finite sign significand exponent positive := by
  have bounds := (Nat.log2_eq_iff (Nat.pos_iff_ne_zero.mp positive)).mp size
  have packed : UnpackedFloat.pack .binary64 (.finite sign significand exponent positive) =
      UnpackedFloat.packComponents .binary64 sign (BitVec.ofNat 11 (exponent + 1023 + 52).toNat)
        (BitVec.ofNat 52 significand) := by
    change (if 2 ^ 11 ≤ (exponent + (1023 : Nat) + (52 : Nat)).toNat + 1 then _
      else if significand.log2 + 1 = 53 then _ else _) = _
    rw [if_neg (by omega), if_pos (by omega)]
    rfl
  have biased : (BitVec.ofNat 11 (exponent + 1023 + 52).toNat).toNat =
      (exponent + 1023 + 52).toNat := by
    rw [BitVec.toNat_ofNat, Nat.mod_eq_of_lt (by omega)]
  rw [packed, unpack_eq_ofFields, unpackSign_packComponents,
    UnpackedFloat.unpackExponent_packComponents, UnpackedFloat.unpackMantissa_packComponents,
    ofFields_normal (by omega) (by omega)]
  refine finite_congr ?_ ?_
  · rw [BitVec.toNat_ofNat]
    omega
  · rw [biased]
    omega

/-! ## The exact value of a double -/

/-- The sign of a value. -/
def signOf (negative : Bool) : Sign :=
  if negative then .negative else .positive

/-- An exact value in the form that operations on doubles take. -/
def Dyadic.unpacked (value : Dyadic) : UnpackedFloat :=
  if zero : value.significand = 0 then .zero (signOf value.negative)
  else .finite (signOf value.negative) value.significand value.exponent (Nat.pos_of_ne_zero zero)

theorem toNat_unpackExponent (bits : BitVec 64) :
    (@UnpackedFloat.unpackExponent .binary64 bits).toNat = bits.toNat / 2 ^ 52 % 2 ^ 11 := by
  delta UnpackedFloat.unpackExponent
  rw [BitVec.toNat_cast, BitVec.extractLsb_toNat, Nat.shiftRight_eq_div_pow]
  rfl

theorem toNat_unpackMantissa (bits : BitVec 64) :
    (@UnpackedFloat.unpackMantissa .binary64 bits).toNat = bits.toNat % 2 ^ 52 := by
  delta UnpackedFloat.unpackMantissa
  rw [BitVec.toNat_cast, BitVec.extractLsb_toNat, Nat.shiftRight_zero]
  rfl

theorem ofBitVec_unpackSign (bits : BitVec 64) :
    Sign.ofBitVec (@UnpackedFloat.unpackSign .binary64 bits) = signOf (bits.toNat / 2 ^ 63 == 1) := by
  have bit : (@UnpackedFloat.unpackSign .binary64 bits).toNat = bits.toNat / 2 ^ 63 := by
    have size := bits.isLt
    delta UnpackedFloat.unpackSign
    rw [BitVec.toNat_cast, BitVec.extractLsb_toNat, Nat.shiftRight_eq_div_pow]
    change bits.toNat / 2 ^ 63 % 2 ^ (63 - 63 + 1) = _
    omega
  change (if _ = 0#1 then Sign.positive else .negative) = _
  by_cases zero : @UnpackedFloat.unpackSign .binary64 bits = 0#1
  · have none : bits.toNat / 2 ^ 63 = 0 := by
      rw [← bit, zero]
      rfl
    rw [if_pos zero, none]
    rfl
  · have one : bits.toNat / 2 ^ 63 = 1 := by
      have some : bits.toNat / 2 ^ 63 ≠ 0 := by
        intro none
        exact zero (BitVec.eq_of_toNat_eq (by rw [bit, none]; rfl))
      have size := bits.isLt
      omega
    rw [if_neg zero, one]
    rfl

/-- The operations on doubles see a double as its exact value. Its significand has 53 bits unless its
exponent is the least one. -/
theorem unpack_of_ofFloat? {x : Float} {value : Dyadic} (found : Dyadic.ofFloat? x = some value) :
    x.toModel.unpack = value.unpacked ∧
      ((value.significand.log2 = 52 ∧ -1074 ≤ value.exponent) ∨
        (value.significand < 2 ^ 52 ∧ value.exponent = -1074)) := by
  have unpacked : x.toModel.unpack = UnpackedFloat.unpack .binary64 x.toBits.toBitVec := rfl
  have biased := toNat_unpackExponent x.toBits.toBitVec
  have low := toNat_unpackMantissa x.toBits.toBitVec
  rw [unpack_eq_ofFields, ofBitVec_unpackSign] at unpacked
  change _ = x.toBits.toNat / 2 ^ 52 % 2 ^ 11 at biased
  change _ = x.toBits.toNat % 2 ^ 52 at low
  change _ = ofFields (signOf (x.toBits.toNat / 2 ^ 63 == 1)) _ _ at unpacked
  rw [Dyadic.ofFloat?] at found
  simp only [Nat.pow_eq] at found
  revert biased low unpacked
  generalize @UnpackedFloat.unpackExponent .binary64 x.toBits.toBitVec = exponent
  generalize @UnpackedFloat.unpackMantissa .binary64 x.toBits.toBitVec = fraction
  intro biased low unpacked
  rw [← biased, ← low] at found
  have room : fraction.toNat < 2 ^ 52 := fraction.isLt
  split at found
  · contradiction
  · next notTop =>
    have finite : exponent.toNat ≠ 2047 := by
      intro top
      exact notTop (beq_iff_eq.mpr top)
    split at found
    · next bottom =>
      obtain rfl := Option.some.inj found
      have least : exponent = 0#11 := BitVec.eq_of_toNat_eq (beq_iff_eq.mp bottom)
      refine ⟨?_, Or.inr ⟨room, rfl⟩⟩
      subst least
      rw [unpacked, ofFields, if_neg (by decide), if_pos rfl, Dyadic.unpacked]
      by_cases zero : fraction = 0#52
      · rw [dif_pos zero, dif_pos (by rw [zero]; rfl)]
      · have some : fraction.toNat ≠ 0 := fun none => zero (BitVec.eq_of_toNat_eq none)
        rw [dif_neg zero, dif_neg some]
        exact finite_congr rfl rfl
    · next notBottom =>
      obtain rfl := Option.some.inj found
      have normal : exponent.toNat ≠ 0 := fun zero => notBottom (beq_iff_eq.mpr zero)
      have size : (fraction.toNat + 2 ^ 52).log2 = 52 :=
        (Nat.log2_eq_iff (by omega)).mpr ⟨by omega, by omega⟩
      refine ⟨?_, Or.inl ⟨size, ?_⟩⟩
      · have some : fraction.toNat + 2 ^ 52 ≠ 0 := by omega
        rw [unpacked, ofFields_normal finite normal, Dyadic.unpacked, dif_neg some]
        refine finite_congr (Nat.add_comm _ _) ?_
        change _ = (-1074 : Int) + (exponent.toNat - 1 : Nat)
        omega
      · change _ ≤ (-1074 : Int) + (exponent.toNat - 1 : Nat)
        omega

/-! ## Whole numbers -/

theorem compare_self {value : UnpackedFloat} (number : value.isNaN = false) :
    value.compare value = some .eq := by
  cases value with
  | infinity sign => cases sign <;> rfl
  | notANumber => contradiction
  | zero sign => rfl
  | finite sign significand exponent positive =>
    have same : (compare exponent exponent).then (compare significand significand) = .eq := by
      rw [Std.compare_self, Std.compare_self]
      rfl
    cases sign with
    | negative => exact congrArg (fun order => some order.swap) same
    | positive => exact congrArg some same

/-- A double that is a number is equal to itself. -/
theorem beq_self_of_isNaN {x : Float} (number : x.isNaN = false) : (x == x) = true := by
  change (x.toModel.unpack.compare x.toModel.unpack == some .eq) = true
  rw [compare_self number]
  rfl

theorem isNaN_of_isFinite {x : Float} (finite : x.isFinite = true) : x.isNaN = false := by
  change x.toModel.unpack.isFinite = true at finite
  change x.toModel.unpack.isNaN = false
  cases value : x.toModel.unpack with
  | notANumber =>
    rw [value] at finite
    contradiction
  | infinity sign => rfl
  | zero sign => rfl
  | finite sign significand exponent positive => rfl

theorem beq_of_unpack_eq {x y : Float} (finite : x.isFinite = true)
    (same : y.toModel.unpack = x.toModel.unpack) : (y == x) = true := by
  change (y.toModel.unpack.compare x.toModel.unpack == some .eq) = true
  rw [same, compare_self (isNaN_of_isFinite finite)]
  rfl

theorem isFinite_unpacked (value : Dyadic) : value.unpacked.isFinite = true := by
  rw [Dyadic.unpacked]
  by_cases zero : value.significand = 0
  · rw [dif_pos zero]
    rfl
  · rw [dif_neg zero]
    rfl

theorem isFinite_of_ofFloat? {x : Float} {value : Dyadic}
    (found : Dyadic.ofFloat? x = some value) : x.isFinite = true := by
  change x.toModel.unpack.isFinite = true
  rw [(unpack_of_ofFloat? found).1]
  exact isFinite_unpacked value

/-- The double nearest to a whole number is this number with a significand of 53 bits. -/
theorem unpack_ofNat {n count : Nat} (size : (n * 2 ^ count).log2 = 52) (positive : 0 < n) :
    (Float.ofNat n).toModel.unpack =
      .finite .positive (n * 2 ^ count) (-count) (Nat.mul_pos positive (Nat.two_pow_pos count)) := by
  have bits : n.log2 + count = 52 := by rw [← size, log2_mul_two_pow positive]
  have small : n < 2 ^ 53 := (Nat.log2_lt (by omega)).mp (by omega)
  have least : (-1074 : Int) ≤ -count := by omega
  have most : (-count : Int) ≤ 0 := by omega
  have one : Float.ofBits 0x3FF0000000000000 =
      .ofModel (.pack (.finite .positive (2 ^ 52) (-52) (by decide))) := by decide +kernel
  have product : Float.ofNat n = n.toUInt64.toFloat * Float.ofBits 0x3FF0000000000000 :=
    dif_pos ⟨small, by decide⟩
  have factor : n.toUInt64.toFloat = .ofModel (.pack (UnpackedFloat.ofNat .binary64 n)) := by
    have same : n.toUInt64.toNat = n := by
      rw [Nat.toUInt64_eq, UInt64.toNat_ofNat', Nat.mod_eq_of_lt (by omega)]
    change Float.ofModel (.pack (UnpackedFloat.ofNat .binary64 n.toUInt64.toNat)) = _
    rw [same]
  rw [product, factor, one, ofNat_of_log2 size positive]
  change UnpackedFloat.unpack .binary64 (UnpackedFloat.pack .binary64 (UnpackedFloat.mul .binary64
    (UnpackedFloat.unpack .binary64 (UnpackedFloat.pack .binary64 _))
    (UnpackedFloat.unpack .binary64 (UnpackedFloat.pack .binary64 _)))) = _
  rw [unpack_pack_of_log2 size least most, unpack_pack_of_log2 (by decide) (by decide) (by decide),
    mul_one_of_log2 size least, unpack_pack_of_log2 size least most]

theorem unpack_ofInt {n count : Nat} (size : (n * 2 ^ count).log2 = 52) (positive : 0 < n)
    (negative : Bool) :
    (Float.ofInt (if negative then -(n : Int) else n)).toModel.unpack =
      .finite (signOf negative) (n * 2 ^ count) (-count)
        (Nat.mul_pos positive (Nat.two_pow_pos count)) := by
  have bits : n.log2 + count = 52 := by rw [← size, log2_mul_two_pow positive]
  cases negative with
  | false => exact unpack_ofNat size positive
  | true =>
    obtain ⟨less, rfl⟩ : ∃ less, n = less + 1 := ⟨n - 1, by omega⟩
    change UnpackedFloat.unpack .binary64 (UnpackedFloat.pack .binary64
      (UnpackedFloat.neg (Float.ofNat (less + 1)).toModel.unpack)) = _
    rw [unpack_ofNat size positive]
    exact unpack_pack_of_log2 size (by omega) (by omega) _

theorem unpack_ofInt_zero : (Float.ofInt 0).toModel.unpack = .zero .positive := by
  have packed : Float.ofInt 0 = .ofModel (.pack (.zero .positive)) := by decide +kernel
  rw [packed]
  change UnpackedFloat.unpack .binary64 (UnpackedFloat.packComponents .binary64 .positive 0 0) = _
  rw [unpack_eq_ofFields, unpackSign_packComponents,
    UnpackedFloat.unpackExponent_packComponents, UnpackedFloat.unpackMantissa_packComponents]
  rfl

namespace Dyadic

variable {value : Dyadic} {n : Nat}

/-- A whole number is the quotient of the significand, which the power of two divides. -/
theorem exists_product_of_whole? {whole : Int} (found : value.whole? = some whole) :
    ∃ n : Nat, whole = (if value.negative then -(n : Int) else n) ∧
      n * 2 ^ (-value.exponent).toNat = value.significand * 2 ^ value.exponent.toNat := by
  rw [whole?, quotient] at found
  simp only [Nat.pow_eq] at found
  split at found
  · next divides =>
    have product := Nat.div_mul_cancel (Nat.dvd_of_mod_eq_zero (beq_iff_eq.mp divides))
    exact ⟨_, (Option.some.inj found).symm, product⟩
  · contradiction

theorem eq_zero_iff_of_product
    (product : n * 2 ^ (-value.exponent).toNat = value.significand * 2 ^ value.exponent.toNat) :
    n = 0 ↔ value.significand = 0 := by
  have scaled (m count : Nat) : m * 2 ^ count = 0 ↔ m = 0 :=
    Nat.mul_eq_zero.trans (or_iff_left (Nat.pos_iff_ne_zero.mp (Nat.two_pow_pos count)))
  rw [← scaled n, product, scaled]

/-- A significand of 53 bits with a positive exponent makes the number too great. -/
theorem exponent_le_zero_of_product (small : n < 9000000000000000)
    (wide : 2 ^ 52 ≤ value.significand)
    (product : n * 2 ^ (-value.exponent).toNat = value.significand * 2 ^ value.exponent.toNat) :
    value.exponent ≤ 0 := by
  rcases Int.lt_or_le 0 value.exponent with greater | atMost
  · have none : (-value.exponent).toNat = 0 := by omega
    have twice : 2 ^ 1 ≤ 2 ^ value.exponent.toNat := Nat.pow_le_pow_right (by decide) (by omega)
    have great := Nat.mul_le_mul wide twice
    rw [none, Nat.pow_zero, Nat.mul_one] at product
    omega
  · exact atMost

/-- A subnormal double is less than one. -/
theorem not_subnormal_of_product (positive : 0 < n) (narrow : value.significand < 2 ^ 52)
    (least : value.exponent = -1074) :
    n * 2 ^ (-value.exponent).toNat ≠ value.significand * 2 ^ value.exponent.toNat := by
  intro product
  have none : value.exponent.toNat = 0 := by omega
  rw [none, Nat.pow_zero, Nat.mul_one] at product
  have small : 2 ^ 52 ≤ 2 ^ (-value.exponent).toNat :=
    Nat.pow_le_pow_right (by decide) (by omega)
  have great := Nat.mul_le_mul positive small
  omega

/-- The exact value of a whole number of ordinary size is the number with a significand of 53 bits,
or zero. -/
theorem exists_of_whole? {whole : Int} (found : value.whole? = some whole)
    (ordinary : whole.natAbs < 9000000000000000)
    (normal : (value.significand.log2 = 52 ∧ -1074 ≤ value.exponent) ∨
      (value.significand < 2 ^ 52 ∧ value.exponent = -1074)) :
    ∃ n : Nat, whole = (if value.negative then -(n : Int) else n) ∧
      ((n = 0 ∧ value.significand = 0) ∨
        ∃ count : Nat, 0 < n ∧ value.significand = n * 2 ^ count ∧ value.exponent = -count ∧
          value.significand.log2 = 52) := by
  obtain ⟨n, same, product⟩ := exists_product_of_whole? found
  have none := eq_zero_iff_of_product product
  have size : n < 9000000000000000 := by
    rw [same] at ordinary
    split at ordinary <;> omega
  refine ⟨n, same, ?_⟩
  by_cases zero : value.significand = 0
  · exact Or.inl ⟨none.mpr zero, zero⟩
  · have positive : 0 < n := Nat.pos_of_ne_zero fun absent => zero (none.mp absent)
    refine Or.inr ⟨(-value.exponent).toNat, positive, ?_⟩
    rcases normal with ⟨wide, _⟩ | ⟨narrow, least⟩
    · have bounds := (Nat.log2_eq_iff zero).mp wide
      have atMost := exponent_le_zero_of_product size bounds.1 product
      have unscaled : value.exponent.toNat = 0 := by omega
      rw [unscaled, Nat.pow_zero, Nat.mul_one] at product
      exact ⟨product.symm, by omega, wide⟩
    · exact absurd product (not_subnormal_of_product positive narrow least)

end Dyadic

/-- A double of ordinary size that is a whole number is the double nearest to this whole number. -/
theorem ofInt_beq_of_wholeNumber? {x : Float} {whole : Int} (found : wholeNumber? x = some whole) :
    (Float.ofInt whole == x) = true := by
  rw [wholeNumber?] at found
  obtain ⟨value, exact, found⟩ := Option.bind_eq_some_iff.mp found
  obtain ⟨other, integral, found⟩ := Option.bind_eq_some_iff.mp found
  split at found
  · next ordinary =>
    obtain rfl := Option.some.inj found
    obtain ⟨unpacked, normal⟩ := unpack_of_ofFloat? exact
    obtain ⟨n, rfl, ⟨rfl, zero⟩ | ⟨count, positive, significand, exponent, size⟩⟩ :=
      Dyadic.exists_of_whole? integral ordinary normal
    · have none : (if value.negative then -((0 : Nat) : Int) else (0 : Nat)) = 0 := by
        split <;> rfl
      rw [none]
      change ((Float.ofInt 0).toModel.unpack.compare x.toModel.unpack == some .eq) = true
      rw [unpack_ofInt_zero, unpacked, Dyadic.unpacked, dif_pos zero]
      rfl
    · refine beq_of_unpack_eq (isFinite_of_ofFloat? exact) ?_
      have some : value.significand ≠ 0 := by
        rw [significand]
        exact Nat.pos_iff_ne_zero.mp (Nat.mul_pos positive (Nat.two_pow_pos count))
      rw [unpack_ofInt (significand ▸ size) positive, unpacked, Dyadic.unpacked, dif_neg some]
      exact finite_congr significand.symm exponent.symm
  · contradiction

theorem isFinite_of_wholeNumber? {x : Float} {whole : Int} (found : wholeNumber? x = some whole) :
    x.isFinite = true := by
  rw [wholeNumber?] at found
  obtain ⟨value, exact, _⟩ := Option.bind_eq_some_iff.mp found
  exact isFinite_of_ofFloat? exact

/-- Every finite double has an exact value. -/
theorem exists_ofFloat?_of_isFinite {x : Float} (finite : x.toModel.unpack.isFinite = true) :
    ∃ value, Dyadic.ofFloat? x = some value := by
  have unpacked : x.toModel.unpack = UnpackedFloat.unpack .binary64 x.toBits.toBitVec := rfl
  have biased := toNat_unpackExponent x.toBits.toBitVec
  rw [unpack_eq_ofFields] at unpacked
  rw [Dyadic.ofFloat?]
  simp only [Nat.pow_eq]
  split
  · next top =>
    have infinite : @UnpackedFloat.unpackExponent .binary64 x.toBits.toBitVec = -1#11 :=
      BitVec.eq_of_toNat_eq (biased.trans (beq_iff_eq.mp top))
    rw [unpacked, infinite, ofFields, if_pos rfl] at finite
    split at finite <;> contradiction
  · split <;> exact ⟨_, rfl⟩

theorem signOf_inj {left right : Bool} (same : signOf left = signOf right) : left = right := by
  cases left <;> cases right <;> first | rfl | contradiction

/-- The double nearest to a whole number of ordinary size is this whole number. -/
theorem wholeNumber?_ofInt {n : Nat} (ordinary : n < 9000000000000000) (negative : Bool) :
    wholeNumber? (Float.ofInt (if negative then -(n : Int) else n)) =
      some (if negative then -(n : Int) else n) := by
  rcases Nat.eq_zero_or_pos n with rfl | positive
  · have zero : (if negative then -((0 : Nat) : Int) else (0 : Nat)) = 0 := by
      split <;> rfl
    rw [zero]
    decide +kernel
  · have bits : n.log2 < 53 := (Nat.log2_lt (by omega)).mpr (by omega)
    have size : (n * 2 ^ (52 - n.log2)).log2 = 52 := by
      rw [log2_mul_two_pow positive]
      omega
    have unpacked := unpack_ofInt size positive negative
    generalize 52 - n.log2 = count at size unpacked
    have shifted : 0 < n * 2 ^ count := Nat.mul_pos positive (Nat.two_pow_pos count)
    have finite : (Float.ofInt (if negative then -(n : Int) else n)).toModel.unpack.isFinite =
        true := by
      rw [unpacked]
      rfl
    obtain ⟨value, exact⟩ := exists_ofFloat?_of_isFinite finite
    have same := (unpack_of_ofFloat? exact).1.symm.trans unpacked
    rw [Dyadic.unpacked] at same
    by_cases none : value.significand = 0
    · rw [dif_pos none] at same
      contradiction
    · rw [dif_neg none] at same
      obtain ⟨sign, significand, exponent⟩ := UnpackedFloat.finite.inj same
      have integral : value.whole? = some (if negative then -(n : Int) else n) := by
        have none : (-(count : Int)).toNat = 0 := by omega
        have back : (- -(count : Int)).toNat = count := by omega
        rw [Dyadic.whole?, Dyadic.quotient, significand, exponent, signOf_inj sign]
        simp only [Nat.pow_eq, none, back, Nat.pow_zero, Nat.mul_one]
        rw [Nat.mul_mod_left, Nat.mul_div_cancel _ (Nat.two_pow_pos count)]
        rfl
      rw [wholeNumber?, exact]
      simp only [bind, Option.bind, integral]
      rw [if_pos]
      split <;> omega

end FlatLiquid.Decimal
