/-!
Contract: JSON values.

Owns:
- values, whose objects keep the order of their fields;
- the equality of values, which does not look at the order of fields and tells a whole number from a
  real one;
- the reading of a field, of an array and of a string.

Does not own: text, which is read in FlatLiquid.Json.Reading and written in FlatLiquid.Json.Printer.
-/

namespace FlatLiquid

/-- A number of a JSON value. A whole number without fraction and exponent stays a whole number as
long as it fits into 64 bits; all others are doubles. -/
inductive Json.Number where
  | whole (value : Int)
  | real (value : Float)

/-- A JSON value. -/
inductive Json where
  | null
  | bool (value : Bool)
  | number (value : Json.Number)
  | string (text : String)
  | array (items : List Json)
  | object (fields : List (String × Json))

instance : Inhabited Json := ⟨.null⟩

namespace Json

/-- Two numbers are the same if they are of one kind and of one value. -/
def Number.same : Number → Number → Bool
  | .whole left, .whole right => left == right
  | .real left, .real right => left == right
  | _, _ => false

def Number.toFloat : Number → Float
  | .whole value => Float.ofInt value
  | .real value => value

mutual

/-- Two values are the same if they are of one kind and have the same contents. Objects are compared
key by key. -/
def same : Json → Json → Bool
  | .null, .null => true
  | .bool left, .bool right => left == right
  | .number left, .number right => left.same right
  | .string left, .string right => left == right
  | .array left, .array right => sameItems left right
  | .object left, .object right => left.length == right.length && sameFields left right
  | _, _ => false

/-- Two lists have the same values in the same order. -/
def sameItems : List Json → List Json → Bool
  | [], [] => true
  | left :: lefts, right :: rights => same left right && sameItems lefts rights
  | _, _ => false

/-- Every field on the left has the same value on the right. -/
def sameFields : List (String × Json) → List (String × Json) → Bool
  | [], _ => true
  | (key, left) :: lefts, rights =>
    (match rights.lookup key with
      | some right => same left right
      | none => false) && sameFields lefts rights

end

/-- The value of a field. -/
def field? : Json → String → Option Json
  | .object fields, key => fields.lookup key
  | _, _ => none

/-- The text of a string. -/
def text? : Json → Option String
  | .string text => some text
  | _ => none

end Json

end FlatLiquid
