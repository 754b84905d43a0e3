import FlatLiquid.Json.Fault
import FlatLiquid.Decimal.Reading

/-!
Contract: numbers as a JSON text spells them.

Owns:
- numerals, which keep the digits of each part;
- the value of a numeral: a whole number if it is one and fits into 64 bits, else a double;
- the way in which a double is computed from the digits, which is quick and not always the nearest.
-/

namespace FlatLiquid.Json

/-- A number as it is spelled. -/
structure Numeral where
  negative : Bool
  whole : List Char
  fraction : List Char
  /-- The sign and the digits after an exponent mark. -/
  exponent : Option (Bool × List Char)

def significandLimit : Nat := Nat.pow 2 64 - 1

def exponentLimit : Nat := Nat.pow 2 31 - 1

/-- Appends digits to a number as long as it stays within a limit. Answers the number and how many
digits were left over: from the first one that does not fit on, none is taken. -/
def appendDigits (limit : Nat) : Nat → List Char → Nat × Nat
  | value, [] => (value, 0)
  | value, digit :: rest =>
    let next := 10 * value + (digit.toNat - 48)
    if limit < next then (value, rest.length + 1) else appendDigits limit next rest

/-- A power of ten as a double. The exponent is at most 308. -/
def powerOfTen (exponent : Nat) : Float :=
  Float.ofScientific 1 false exponent

/-- Divides by a power of ten: in steps of 308, and the rest at once. A zero stays zero. -/
def divideByPower (x : Float) (exponent : Nat) : Float :=
  if exponent ≤ 308 then x / powerOfTen exponent
  else if x == 0 then x
  else divideByPower (x / powerOfTen 308) (exponent - 308)
termination_by exponent

/-- The double for a significand and a power of ten, in one multiplication or one division. There is
none beyond the greatest double. -/
def scaleFloat? (significand : Nat) (exponent : Int) : Option Float :=
  let x := Float.ofNat significand
  if 0 ≤ exponent then
    if exponent ≤ 308 then
      let scaled := x * powerOfTen exponent.toNat
      if scaled.isInf then none else some scaled
    else if significand == 0 then some x else none
  else some (divideByPower x exponent.natAbs)

/-- The value of a numeral that ends after this many bytes. One that is too great is a fault. -/
def Numeral.value (numeral : Numeral) (ending : Nat) : Except Fault Number :=
  let (wholePart, dropped) := appendDigits significandLimit 0 numeral.whole
  let signed (x : Float) : Number := .real (if numeral.negative then -x else x)
  let outOfRange (offset : Nat) := Fault.at .numberOutOfRange offset
  if numeral.fraction.isEmpty && numeral.exponent.isNone && dropped == 0 then
    if !numeral.negative then .ok (.whole wholePart)
    else if wholePart == 0 || Nat.pow 2 63 < wholePart then .ok (signed (Float.ofNat wholePart))
    else .ok (.whole (-wholePart))
  else
    let (significand, ignored) := appendDigits significandLimit wholePart numeral.fraction
    let start : Int := dropped - (numeral.fraction.length - ignored : Nat)
    let scaled (exponent : Int) : Except Fault Number :=
      match scaleFloat? significand exponent with
      | some x => .ok (signed x)
      | none => .error (outOfRange ending)
    match numeral.exponent with
    | none => scaled start
    | some (negative, digits) =>
      let (magnitude, excess) := appendDigits exponentLimit 0 digits
      if excess == 0 then scaled (if negative then start - magnitude else start + magnitude)
      else if significand == 0 || negative then .ok (signed 0)
      else .error (outOfRange (ending - (excess - 1)))

end FlatLiquid.Json
