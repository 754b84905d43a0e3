import FlatLiquid.Decimal.Dyadic

/-!
Contract: the shortest decimal that reads back as a given double.

Owns:
- decimals as a whole coefficient and a power of ten;
- the interval of numbers that round to a double;
- the search for the coarsest power of ten with a multiple in that interval.

Does not own: how a decimal is laid out as text, which is in FlatLiquid.Decimal.Format.
-/

namespace FlatLiquid.Decimal

/-- The number `coefficient * 10 ^ exponent`. -/
structure Decadic where
  coefficient : Nat
  exponent : Int
deriving DecidableEq, Repr

/-- Which of two multiples at the same distance is taken. -/
inductive Tie where
  | toEven
  | up
deriving DecidableEq, Repr

/-- The numbers that round to a double, as numerators over one denominator. The two ends belong to
the interval exactly if `closed`. -/
structure Rounding where
  low : Nat
  value : Nat
  high : Nat
  denominator : Nat
  closed : Bool

/-- The interval reaches half way to the two neighbours. Below a power of two the neighbour is half
as far away, unless the exponent is the least one. -/
def Rounding.ofDyadic (value : Dyadic) : Rounding :=
  let scale := Nat.pow 2 (value.exponent - 2).toNat
  let narrow := value.significand == Nat.pow 2 52 && value.exponent != Dyadic.leastExponent
  { low := (4 * value.significand - (if narrow then 1 else 2)) * scale
    value := 4 * value.significand * scale
    high := (4 * value.significand + 2) * scale
    denominator := Nat.pow 2 (2 - value.exponent).toNat
    closed := value.significand % 2 == 0 }

/-- The interval measured in units of a power of ten: every end becomes a numerator, and the
denominator is one unit. -/
def Rounding.inUnits (interval : Rounding) (exponent : Int) : Rounding :=
  let finer := Nat.pow 10 (-exponent).toNat
  { low := interval.low * finer
    value := interval.value * finer
    high := interval.high * finer
    denominator := interval.denominator * Nat.pow 10 exponent.toNat
    closed := interval.closed }

/-- This many units lie in the interval. -/
def Rounding.contains (interval : Rounding) (count : Nat) : Bool :=
  let place := count * interval.denominator
  if interval.closed then interval.low ≤ place && place ≤ interval.high
  else interval.low < place && place < interval.high

/-- The number of units in the interval that is nearest to the value, if there is one. -/
def Rounding.nearest? (interval : Rounding) (tie : Tie) : Option Nat :=
  let below := interval.value / interval.denominator
  match interval.contains below, interval.contains (below + 1) with
  | false, false => none
  | true, false => some below
  | false, true => some (below + 1)
  | true, true =>
    let beyond := 2 * (interval.value % interval.denominator)
    if beyond < interval.denominator then some below
    else if interval.denominator < beyond then some (below + 1)
    else match tie with
      | .up => some (below + 1)
      | .toEven => some (if below % 2 == 0 then below else below + 1)

/-- The decimal on the coarsest grid that has a point in the interval. The grids are those of the
powers of ten from `steps - 325` downwards. -/
def Rounding.search (interval : Rounding) (tie : Tie) : Nat → Decadic
  | 0 => ⟨0, 0⟩
  | steps + 1 =>
    let exponent : Int := steps - 325
    match (interval.inUnits exponent).nearest? tie with
    | some coefficient => ⟨coefficient, exponent⟩
    | none => interval.search tie steps

/-- The decimal with the fewest digits that reads back as the absolute value, and of those the
nearest. -/
def shortest (tie : Tie) (value : Dyadic) : Decadic :=
  if value.significand == 0 then ⟨0, 0⟩
  else (Rounding.ofDyadic value).search tie 635

end FlatLiquid.Decimal
