import FlatLiquid.Json.Codec

/-!
Contract: the values of settings.

Owns:
- the kinds of values, with their equality;
- the form of a value in JSON and the text of a value;
- the values of a whole section or block, in their order.
-/

namespace FlatLiquid

/-- The value of a setting. Arrays and objects are kept, but no variable can hold them. -/
inductive SettingValue where
  | bool (value : Bool)
  | number (value : Float)
  | string (text : String)
  | nil
  | unsupported (value : Json)

/-- The values of settings under their ids. -/
abbrev SettingValues := OrderedMap SettingValue

/-- A number of ordinary size without a fraction. -/
def wholeNumber? (x : Float) : Option Int := do
  let value ← (← Decimal.Dyadic.ofFloat? x).whole?
  if value.natAbs < 9000000000000000 then some value else none

/-- The text of a number in a template. -/
def numberText (x : Float) : String :=
  match wholeNumber? x with
  | some value => toString value
  | none => Decimal.NumberFormat.plain.text x

namespace SettingValue

/-- Two values are the same if they are of one kind and have the same contents. -/
def same : SettingValue → SettingValue → Bool
  | .bool left, .bool right => left == right
  | .number left, .number right => left == right
  | .string left, .string right => left == right
  | .nil, .nil => true
  | .unsupported left, .unsupported right => left.same right
  | _, _ => false

/-- The value as JSON. A number of ordinary size without a fraction is a whole number; one that is
not finite is null. -/
def toJson : SettingValue → Json
  | .bool value => .bool value
  | .number value =>
    match wholeNumber? value with
    | some whole => .number (.whole whole)
    | none => if value.isFinite then .number (.real value) else .null
  | .string text => .string text
  | .nil => .null
  | .unsupported value => value

/-- The value that JSON stands for. -/
def ofJson : Json → SettingValue
  | .bool value => .bool value
  | .number value => .number value.toFloat
  | .string text => .string text
  | .null => .nil
  | .array items => .unsupported (.array items)
  | .object fields => .unsupported (.object fields)

def text : SettingValue → String
  | .bool value => toString value
  | .number value => numberText value
  | .string text => text
  | .nil => "nil"
  | .unsupported value => value.compact

def string? : SettingValue → Option String
  | .string text => some text
  | _ => none

def codec : Json.Codec SettingValue where
  read := fun depth node => (node.read depth).map ofJson
  write := toJson

end SettingValue

end FlatLiquid
