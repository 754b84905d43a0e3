import FlatLiquid.Json.Node
import FlatLiquid.OrderedMap

/-!
Contract: what a JSON text says, without regard to types.

Owns:
- the value of a node, for one who reads it;
- the check of a node, for one who skips it;
- the limit on how deep arrays and objects nest;
- the reading of a whole text.
-/

namespace FlatLiquid.Json

/-- Arrays and objects nest less deep than this. -/
def depthLimit : Nat := 128

/-- Goes into a bracket, at a depth of so many brackets around it. -/
def enter (depth : Nat) (start : Cursor) : Except Fault Nat :=
  if depth + 1 < depthLimit then .ok (depth + 1) else .error (.at .tooDeep start.reach)

/-- The fault of an ending, for one who reads. -/
def Ending.read : Ending → Except Fault Unit
  | .closed _ => .ok ()
  | .broken stop => .error stop.reading

/-- The fault of an ending, for one who skips. -/
def Ending.skip : Ending → Except Fault Unit
  | .closed _ => .ok ()
  | .broken stop => .error stop.skipping

mutual

/-- The value of a node inside so many brackets. -/
def Node.read (depth : Nat) : Node → Except Fault Json
  | .null _ => .ok .null
  | .bool value _ => .ok (.bool value)
  | .number numeral after => (numeral.value after.offset).map .number
  | .string text _ => text.map fun text => .string (String.ofList text)
  | .array start items ending => do
    let inner ← enter depth start
    let items ← readItems inner items
    ending.read
    pure (.array items)
  | .object start fields ending => do
    let inner ← enter depth start
    let fields ← readFields inner fields
    ending.read
    pure (.object (fields.foldl (fun known field => putEntry known field.1 field.2) []))
  | .broken stop => .error stop.reading

/-- The values of nodes, up to the first fault. -/
def readItems (depth : Nat) : List Node → Except Fault (List Json)
  | [] => .ok []
  | item :: rest => do
    let value ← item.read depth
    let values ← readItems depth rest
    pure (value :: values)

/-- The keys and values of fields, up to the first fault. A repeated key is still there twice. -/
def readFields (depth : Nat) : List (Key × Node) → Except Fault (List (String × Json))
  | [] => .ok []
  | (key, value) :: rest => do
    let name ← key.text
    let value ← value.read depth
    let fields ← readFields depth rest
    pure ((String.ofList name, value) :: fields)

end

mutual

/-- Checks the grammar of a node that nobody asks for. -/
def Node.skip : Node → Except Fault Unit
  | .array _ items ending => do
    skipItems items
    ending.skip
  | .object _ fields ending => do
    skipFields fields
    ending.skip
  | .broken stop => .error stop.skipping
  | _ => .ok ()

def skipItems : List Node → Except Fault Unit
  | [] => .ok ()
  | item :: rest => do
    item.skip
    skipItems rest

def skipFields : List (Key × Node) → Except Fault Unit
  | [] => .ok ()
  | (_, value) :: rest => do
    value.skip
    skipFields rest

end

/-- Reads a whole text: a value, and nothing but blanks after it. -/
def readText {α : Type} (reader : Node → Except Fault α) (text : List Char) : Except Fault α := do
  let node := Node.ofText text
  let value ← reader node
  match node.finish with
  | .error stop => .error stop.reading
  | .ok after =>
    let gap := after.skipBlanks
    if gap.rest.isEmpty then pure value else .error (.at .trailingCharacters gap.reach)

/-- The value of a whole text. -/
def parse (text : List Char) : Except Fault Json :=
  readText (Node.read 0) text

end FlatLiquid.Json
