/-!
Contract: the exact value of a finite double.

Owns:
- the value as a sign, a significand and a power of two;
- the test that the value is a whole number.
-/

namespace FlatLiquid.Decimal

/-- The number `significand * 2 ^ exponent`, negated if `negative`. A zero keeps its sign. -/
structure Dyadic where
  negative : Bool
  significand : Nat
  exponent : Int
deriving DecidableEq, Repr

/-- The least exponent of a double. -/
def Dyadic.leastExponent : Int := -1074

/-- The value of a double, unless it is infinite or not a number. -/
def Dyadic.ofFloat? (x : Float) : Option Dyadic :=
  let bits := x.toBits.toNat
  let negative := bits / Nat.pow 2 63 == 1
  let biased := bits / Nat.pow 2 52 % Nat.pow 2 11
  let fraction := bits % Nat.pow 2 52
  if biased == Nat.pow 2 11 - 1 then none
  else if biased == 0 then some ⟨negative, fraction, leastExponent⟩
  else some ⟨negative, fraction + Nat.pow 2 52, leastExponent + (biased - 1 : Nat)⟩

/-- The absolute value as a quotient of natural numbers. -/
def Dyadic.quotient (value : Dyadic) : Nat × Nat :=
  (value.significand * Nat.pow 2 value.exponent.toNat, Nat.pow 2 (-value.exponent).toNat)

/-- The value, if it is a whole number. -/
def Dyadic.whole? (value : Dyadic) : Option Int :=
  let (numerator, denominator) := value.quotient
  if numerator % denominator == 0 then
    let magnitude : Int := (numerator / denominator : Nat)
    some (if value.negative then -magnitude else magnitude)
  else none

end FlatLiquid.Decimal
