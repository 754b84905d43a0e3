import FlatLiquid.Decimal.Reading
import FlatLiquid.Text.Blank
import FlatLiquid.Toml.Basic
import FlatLiquid.Toml.Quotation

/-!
Contract: the values of a TOML document that hold no others.

Owns:
- whole numbers in four bases, within 64 bits;
- decimal numbers, infinity and what is no number;
- dates that the calendar has, and times of day;
- truth values and strings.
-/

namespace FlatLiquid.Toml

/-! ## Numbers -/

/-- The digits of a number without the underscores between them. -/
def joinDigits? (isDigit : Char → Bool) (text : List Char) : Option (List Char) :=
  let groups := Text.split '_' text
  if groups.all fun group => !group.isEmpty && group.all isDigit then some groups.flatten else none

/-- A natural number in a base of at most 16. -/
def readNatural? (base : Nat) (text : List Char) : Option Nat := do
  let digits ← joinDigits? (fun c => (Json.hexDigit? c).any (· < base)) text
  let digits ← digits.mapM Json.hexDigit?
  some (digits.foldl (fun value digit => value * base + digit) 0)

/-- Decimal digits that start with a zero only if it is the one digit. -/
def readLeading? (text : List Char) : Option (List Char) := do
  let digits ← joinDigits? Char.isDigit text
  if digits.head? == some '0' && 1 < digits.length then none else some digits

/-- The text after a sign, and whether the sign is a minus. -/
def readSign (text : List Char) : Bool × List Char :=
  match text with
  | '-' :: rest => (true, rest)
  | '+' :: rest => (false, rest)
  | rest => (false, rest)

/-- A whole number. Only a decimal one has a sign. -/
def readWhole? (text : List Char) : Option Int := do
  let value : Int ← match text with
    | '0' :: 'x' :: digits => (readNatural? 16 digits).map Int.ofNat
    | '0' :: 'o' :: digits => (readNatural? 8 digits).map Int.ofNat
    | '0' :: 'b' :: digits => (readNatural? 2 digits).map Int.ofNat
    | _ =>
      let (negative, digits) := readSign text
      (readLeading? digits).map fun digits =>
        let magnitude : Int := Decimal.natOfDigits digits 0
        if negative then -magnitude else magnitude
  let limit : Int := Nat.pow 2 63
  if -limit ≤ value && value < limit then some value else none

/-- The exponent of a decimal number, from its mark on, if there is one. -/
def readPower? (text : List Char) : Option Int :=
  match text with
  | [] => some 0
  | _ :: rest =>
    let (negative, digits) := readSign rest
    (joinDigits? Char.isDigit digits).map fun digits =>
      let magnitude : Int := Decimal.natOfDigits digits 0
      if negative then -magnitude else magnitude

/-- The digits after the point of a decimal number, from the point on, if there is one. -/
def readFraction? (text : List Char) : Option (List Char) :=
  match text with
  | [] => some []
  | _ :: rest => joinDigits? Char.isDigit rest

/-- A decimal number without its sign. It has digits before the point, and it has a point or an
exponent. -/
def readUnsigned? (text : List Char) : Option Float := do
  let isMark (c : Char) : Bool := c == 'e' || c == 'E'
  guard (text.any fun c => c == '.' || isMark c)
  let mantissa := text.takeWhile fun c => !isMark c
  let whole ← readLeading? (mantissa.takeWhile (· != '.'))
  let fraction ← readFraction? (mantissa.dropWhile (· != '.'))
  let exponent ← readPower? (text.dropWhile fun c => !isMark c)
  let coefficient := Decimal.natOfDigits fraction (Decimal.natOfDigits whole 0)
  some (Decimal.nearestFloat coefficient (exponent - fraction.length))

/-- A decimal number. One too great for a double is none, though one below all doubles is the negative
infinity. -/
def readDecimal? (text : List Char) : Option Float :=
  let (negative, rest) := readSign text
  let magnitude? : Option Float :=
    if rest == ['i', 'n', 'f'] then some (1 / 0)
    else if rest == ['n', 'a', 'n'] then some (0 / 0)
    else (readUnsigned? rest).filter fun magnitude => negative || !magnitude.isInf
  magnitude?.map fun magnitude => if negative then -magnitude else magnitude

/-! ## Dates and times -/

/-- A number of so many digits, and what follows it. -/
def readDigits? (count : Nat) (text : List Char) : Option (Nat × List Char) :=
  let digits := text.take count
  if digits.length == count && digits.all Char.isDigit then
    some (Decimal.natOfDigits digits 0, text.drop count)
  else none

/-- A number of two digits within bounds, and what follows it. -/
def readBetween? (least greatest : Nat) (text : List Char) : Option (Nat × List Char) := do
  let (value, after) ← readDigits? 2 text
  if least ≤ value && value ≤ greatest then some (value, after) else none

def daysOfMonth (year month : Nat) : Nat :=
  let isLeap := year % 4 == 0 && (year % 100 != 0 || year % 400 == 0)
  match month with
  | 2 => if isLeap then 29 else 28
  | 4 | 6 | 9 | 11 => 30
  | _ => 31

/-- The text after a date that the calendar has. -/
def afterDate? (text : List Char) : Option (List Char) := do
  let (year, after) ← readDigits? 4 text
  let (month, after) ← readBetween? 1 12 (← Text.afterPrefix? ['-'] after)
  let (_, after) ← readBetween? 1 (daysOfMonth year month) (← Text.afterPrefix? ['-'] after)
  some after

/-- The text after an hour and a minute. -/
def afterMinute? (text : List Char) : Option (List Char) := do
  let (_, after) ← readBetween? 0 23 text
  let (_, after) ← readBetween? 0 59 (← Text.afterPrefix? [':'] after)
  some after

/-- The text after a time of day. A second may have a fraction, and there may be a leap second. -/
def afterTime? (text : List Char) : Option (List Char) := do
  let (_, after) ← readBetween? 0 60 (← Text.afterPrefix? [':'] (← afterMinute? text))
  match after with
  | '.' :: rest =>
    if rest.head?.any Char.isDigit then some (rest.dropWhile Char.isDigit) else some after
  | _ => some after

/-- The text after the distance from universal time, if there is one. -/
def afterOffset (text : List Char) : List Char :=
  match text with
  | 'Z' :: rest => rest
  | 'z' :: rest => rest
  | '+' :: rest => (afterMinute? rest).getD text
  | '-' :: rest => (afterMinute? rest).getD text
  | rest => rest

/-- The text after a date, a time of day, or a date and a time. -/
def afterMoment? (text : List Char) : Option (List Char) :=
  match afterDate? text with
  | none => afterTime? text
  | some after =>
    match after with
    | separator :: rest =>
      if separator == 'T' || separator == 't' || separator == ' ' then
        some (((afterTime? rest).map afterOffset).getD after)
      else some after
    | [] => some []

/-! ## All -/

/-- A character of a number or of a truth value. -/
def isWordChar (c : Char) : Bool :=
  c.isAlphanum || c == '_' || c == '+' || c == '-' || c == '.'

/-- A truth value or a number. -/
def readWord? (extent : Extent) (word : List Char) : Option Item :=
  if word == ['t', 'r', 'u', 'e'] then some (.bool extent true)
  else if word == ['f', 'a', 'l', 's', 'e'] then some (.bool extent false)
  else
    match readWhole? word with
    | some value => some (.whole extent value)
    | none => (readDecimal? word).map (.decimal extent)

/-- A value that holds no others, and what follows it. -/
def readScalar? (text : List Char) : Option (Item × List Char) :=
  match readString? text with
  | some (content, after) =>
    some (.string (.between text after) (String.ofList content), after)
  | none =>
    match afterMoment? text with
    | some after => some (.moment (.between text after), after)
    | none =>
      let after := text.dropWhile isWordChar
      (readWord? (.between text after) (text.takeWhile isWordChar)).map fun item => (item, after)

end FlatLiquid.Toml
