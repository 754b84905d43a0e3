import FlatLiquid.Json.Cursor
import FlatLiquid.Json.Printer
import FlatLiquid.Text.Quoted

/-!
Contract: what can be wrong with a JSON text.

Owns:
- the causes, of the grammar and of the types that a reader asks for, with their wording;
- faults, which are causes at a place;
- reports, which are faults with a line and a column.
-/

namespace FlatLiquid.Json

/-- What stands where a value of another type is asked for. -/
inductive Found where
  | null
  | bool (value : Bool)
  | number (value : Number)
  | string (text : String)
  | sequence
  | map

/-- Why a text cannot be read. -/
inductive Cause where
  | endInValue
  | endInList
  | endInObject
  | endInString
  | valueMissing
  | wordMismatch
  | keyNotString
  | colonMissing
  | itemSeparatorMissing
  | fieldSeparatorMissing
  | trailingComma
  | trailingCharacters
  | invalidNumber
  | numberOutOfRange
  | invalidEscape
  | loneSurrogate
  | unfinishedSurrogate
  | controlCharacter
  | tooDeep
  | wrongType (found : Found) (expected : String)
  | wrongValue (found : Found) (expected : String)
  | missingField (name : String)
  | duplicateField (name : String)
  | wrongLength (length : Nat) (shape : String) (size : Nat)
  | noVariant (name : String)

def Found.text : Found → String
  | .null => "null"
  | .bool value => s!"boolean `{value}`"
  | .number (.whole value) => s!"integer `{value}`"
  | .number (.real value) => "floating point `" ++ Decimal.NumberFormat.json.text value ++ "`"
  | .string text => "string " ++ Text.quoted text
  | .sequence => "sequence"
  | .map => "map"

def Cause.text : Cause → String
  | .endInValue => "EOF while parsing a value"
  | .endInList => "EOF while parsing a list"
  | .endInObject => "EOF while parsing an object"
  | .endInString => "EOF while parsing a string"
  | .valueMissing => "expected value"
  | .wordMismatch => "expected ident"
  | .keyNotString => "key must be a string"
  | .colonMissing => "expected `:`"
  | .itemSeparatorMissing => "expected `,` or `]`"
  | .fieldSeparatorMissing => "expected `,` or `\x7d`"
  | .trailingComma => "trailing comma"
  | .trailingCharacters => "trailing characters"
  | .invalidNumber => "invalid number"
  | .numberOutOfRange => "number out of range"
  | .invalidEscape => "invalid escape"
  | .loneSurrogate => "lone leading surrogate in hex escape"
  | .unfinishedSurrogate => "unexpected end of hex escape"
  | .controlCharacter => "control character (\\u0000-\\u001F) found while parsing a string"
  | .tooDeep => "recursion limit exceeded"
  | .wrongType found expected => "invalid type: " ++ found.text ++ ", expected " ++ expected
  | .wrongValue found expected => "invalid value: " ++ found.text ++ ", expected " ++ expected
  | .missingField name => "missing field `" ++ name ++ "`"
  | .duplicateField name => "duplicate field `" ++ name ++ "`"
  | .wrongLength length shape size =>
    s!"invalid length {length}, expected struct {shape} with {size} elements"
  | .noVariant name => "data did not match any variant of untagged enum " ++ name

/-- A cause, and the number of bytes that were looked at when it showed. A cause without a place
gets that of the structure in which it shows. -/
structure Fault where
  cause : Cause
  offset : Option Nat

/-- A cause that shows after this many bytes. -/
def Fault.at (cause : Cause) (offset : Nat) : Fault :=
  ⟨cause, some offset⟩

/-- A fault without a place gets this one. -/
def Fault.placed (fault : Fault) (offset : Nat) : Fault :=
  { fault with offset := some (fault.offset.getD offset) }

/-- A fault with its place as a line and a column. -/
structure Report where
  cause : Cause
  position : Position

/-- The report of a fault in a text. -/
def Fault.report (fault : Fault) (text : List Char) : Report :=
  ⟨fault.cause, Position.ofOffset text (fault.offset.getD 0)⟩

def Report.text (report : Report) : String :=
  report.cause.text ++ s!" at line {report.position.line} column {report.position.column}"

end FlatLiquid.Json
