import FlatLiquid.Decimal.Shortest

/-!
Contract: the text of a double.

Owns:
- the two layouts of a decimal, positional and scientific;
- the choices that make up a number format, and the two formats in use.
-/

namespace FlatLiquid.Decimal

def Decadic.digits (decimal : Decadic) : List Char :=
  Nat.toDigits 10 decimal.coefficient

/-- The power of ten of the leading digit. -/
def Decadic.magnitude (decimal : Decadic) : Int :=
  decimal.exponent + (decimal.digits.length - 1 : Nat)

/-- The choices of a number format. -/
structure NumberFormat where
  /-- Which of two equally short and equally near decimals is written. -/
  tie : Tie
  /-- The leading digits whose powers of ten are written without an exponent mark. -/
  isPositional : Int → Bool
  /-- A whole number is written with a fraction of zero. -/
  keepsFraction : Bool

/-- Numbers in JSON text: an exponent mark from `1e+16` and below `1e-5`, and always a fraction
otherwise. -/
def NumberFormat.json : NumberFormat where
  tie := .toEven
  isPositional := fun magnitude => -5 ≤ magnitude && magnitude ≤ 15
  keepsFraction := true

/-- Numbers in templates: never an exponent mark, and a fraction only where there is one. -/
def NumberFormat.plain : NumberFormat where
  tie := .up
  isPositional := fun _ => true
  keepsFraction := false

/-- The decimal as digits around a point. -/
def NumberFormat.positional (format : NumberFormat) (decimal : Decadic) : List Char :=
  let digits := decimal.digits
  if 0 ≤ decimal.exponent then
    digits ++ List.replicate decimal.exponent.toNat '0' ++
      (if format.keepsFraction then ['.', '0'] else [])
  else
    let places := (-decimal.exponent).toNat
    let padded := List.replicate (places + 1 - digits.length) '0' ++ digits
    padded.take (padded.length - places) ++ '.' :: padded.drop (padded.length - places)

/-- The decimal as one digit, the further digits after a point, and a signed power of ten. -/
def Decadic.scientific (decimal : Decadic) : List Char :=
  let fraction := match decimal.digits.drop 1 with
    | [] => []
    | digits => '.' :: digits
  let sign := if 0 ≤ decimal.magnitude then '+' else '-'
  decimal.digits.take 1 ++ fraction ++ 'e' :: sign :: Nat.toDigits 10 decimal.magnitude.natAbs

def NumberFormat.text (format : NumberFormat) (x : Float) : String :=
  match Dyadic.ofFloat? x with
  | none => if x.isNaN then "NaN" else if 0 < x then "inf" else "-inf"
  | some value =>
    let decimal := shortest format.tie value
    let magnitude :=
      if format.isPositional decimal.magnitude then format.positional decimal
      else decimal.scientific
    String.ofList (if value.negative then '-' :: magnitude else magnitude)

end FlatLiquid.Decimal
