/-!
Contract: the double that a decimal text names.

Owns:
- the grammar of decimal texts: a sign, digits with a point, an exponent, or a word for infinity or
  for no number;
- the rounding of a decimal to the nearest double.
-/

namespace FlatLiquid.Decimal

/-- The number that a run of digits names, going on from `high`. -/
def natOfDigits (digits : List Char) (high : Nat) : Nat :=
  digits.foldl (fun value digit => 10 * value + (digit.toNat - 48)) high

/-- The double nearest to `coefficient * 10 ^ exponent`. Beyond the range of doubles the answer is
infinity or zero. -/
def nearestFloat (coefficient : Nat) (exponent : Int) : Float :=
  let magnitude := exponent + (Nat.toDigits 10 coefficient).length
  if coefficient == 0 || magnitude < -400 then 0
  else if 400 < magnitude then 1 / 0
  else Float.ofScientific coefficient (exponent < 0) exponent.natAbs

/-- The exponent after its mark: an optional sign and at least one digit, up to the end. -/
def readExponent? (text : List Char) : Option Int :=
  let (negative, digits) := match text with
    | '+' :: rest => (false, rest)
    | '-' :: rest => (true, rest)
    | rest => (false, rest)
  if digits.isEmpty || !digits.all Char.isDigit then none
  else
    let magnitude : Int := natOfDigits digits 0
    some (if negative then -magnitude else magnitude)

/-- An unsigned number: digits, an optional point with digits, an optional exponent. There is at
least one digit on one side of the point. -/
def readMagnitude? (text : List Char) : Option Float :=
  let whole := text.takeWhile Char.isDigit
  let afterWhole := text.dropWhile Char.isDigit
  let (fraction, afterFraction) := match afterWhole with
    | '.' :: rest => (rest.takeWhile Char.isDigit, rest.dropWhile Char.isDigit)
    | rest => ([], rest)
  if whole.isEmpty && fraction.isEmpty then none
  else
    let coefficient := natOfDigits fraction (natOfDigits whole 0)
    let finish (exponent : Int) := nearestFloat coefficient (exponent - fraction.length)
    match afterFraction with
    | [] => some (finish 0)
    | mark :: rest => if mark == 'e' || mark == 'E' then (readExponent? rest).map finish else none

/-- The double that a whole text names. -/
def readFloat? (text : List Char) : Option Float :=
  let (negative, rest) := match text with
    | '+' :: rest => (false, rest)
    | '-' :: rest => (true, rest)
    | rest => (false, rest)
  let word := String.ofList (rest.map Char.toLower)
  let magnitude :=
    if word == "inf" || word == "infinity" then some (1 / 0)
    else if word == "nan" then some (0 / 0)
    else readMagnitude? rest
  magnitude.map fun x => if negative then -x else x

end FlatLiquid.Decimal
