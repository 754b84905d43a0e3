import FlatLiquid.Json.Basic
import FlatLiquid.Decimal.Format

/-!
Contract: JSON text as it is written.

Owns:
- the escapes of strings and the texts of numbers;
- the compact form, without any blank;
- the indented form, with one item on a line.
-/

namespace FlatLiquid.Json

/-- One character of a string. Quotes, backslashes and control characters are escaped, and nothing
else is. -/
def escapeChar (c : Char) : List Char :=
  match c with
  | '"' => ['\\', '"']
  | '\\' => ['\\', '\\']
  | '\x08' => ['\\', 'b']
  | '\x0c' => ['\\', 'f']
  | '\n' => ['\\', 'n']
  | '\r' => ['\\', 'r']
  | '\t' => ['\\', 't']
  | c =>
    if c.toNat < 0x20 then
      let digits := Nat.toDigits 16 c.toNat
      ['\\', 'u'] ++ List.replicate (4 - digits.length) '0' ++ digits
    else [c]

def printString (text : String) : List Char :=
  '"' :: text.toList.flatMap escapeChar ++ ['"']

/-- The digits of a whole number, or the text of a real one. A real number that is not finite has no
text of its own and is written as null. -/
def printNumber : Number → List Char
  | .whole value => (toString value).toList
  | .real value =>
    if value.isFinite then (Decimal.NumberFormat.json.text value).toList else "null".toList

mutual

/-- A value without blanks. -/
def printCompact : Json → List Char
  | .null => "null".toList
  | .bool value => (if value then "true" else "false").toList
  | .number value => printNumber value
  | .string text => printString text
  | .array items => '[' :: printItems items ++ [']']
  | .object fields => '\x7b' :: printFields fields ++ ['\x7d']

/-- Items with commas between them. -/
def printItems : List Json → List Char
  | [] => []
  | [item] => printCompact item
  | item :: rest => printCompact item ++ ',' :: printItems rest

/-- Fields with commas between them. -/
def printFields : List (String × Json) → List Char
  | [] => []
  | [(key, value)] => printString key ++ ':' :: printCompact value
  | (key, value) :: rest => printString key ++ ':' :: printCompact value ++ ',' :: printFields rest

end

/-- A new line at a depth of indentation, two spaces each. -/
def newLine (depth : Nat) : List Char :=
  '\n' :: List.replicate (2 * depth) ' '

mutual

/-- A value with one item on a line. The lines inside it are indented one step deeper than `depth`;
an empty array or object stays on its line. -/
def printIndented (depth : Nat) : Json → List Char
  | .array [] => "[]".toList
  | .array items => '[' :: printItemLines depth items ++ newLine depth ++ [']']
  | .object [] => ['\x7b', '\x7d']
  | .object fields => '\x7b' :: printFieldLines depth fields ++ newLine depth ++ ['\x7d']
  | .null => "null".toList
  | .bool value => (if value then "true" else "false").toList
  | .number value => printNumber value
  | .string text => printString text

/-- Items, each on a line of its own. -/
def printItemLines (depth : Nat) : List Json → List Char
  | [] => []
  | [item] => newLine (depth + 1) ++ printIndented (depth + 1) item
  | item :: rest =>
    newLine (depth + 1) ++ printIndented (depth + 1) item ++ ',' :: printItemLines depth rest

/-- Fields, each on a line of its own. -/
def printFieldLines (depth : Nat) : List (String × Json) → List Char
  | [] => []
  | [(key, value)] =>
    newLine (depth + 1) ++ printString key ++ ':' :: ' ' :: printIndented (depth + 1) value
  | (key, value) :: rest =>
    newLine (depth + 1) ++ printString key ++ ':' :: ' ' :: printIndented (depth + 1) value ++
      ',' :: printFieldLines depth rest

end

/-- The text of a value without blanks. -/
def compact (value : Json) : String :=
  String.ofList value.printCompact

/-- The text of a value with one item on a line. -/
def indented (value : Json) : String :=
  String.ofList (value.printIndented 0)

end FlatLiquid.Json
