import FlatLiquid.Json.Reading

/-!
Contract: values of a type as JSON.

Owns:
- codecs, which read a value of a type from a node and write it as JSON;
- the codecs of strings, numbers, truth values, lists and ordered maps;
- shapes, which make a codec of a structure from its fields.

A structure is read from an object, whose unknown fields are skipped, or from an array of its fields
in their order. It is written as an object.
-/

namespace FlatLiquid.Json

/-- How a type is read from a node inside so many brackets, and how it is written. -/
structure Codec (α : Type) where
  read : Nat → Node → Except Fault α
  write : α → Json

/-- The fault of a node that is of another type than is asked for. It shows after a single value and
before a bracket. What cannot be read at all is a fault of its own. -/
def Node.wrongType (node : Node) (expected : String) : Fault :=
  let mismatch (found : Found) (offset : Nat) : Fault := .at (.wrongType found expected) offset
  match node with
  | .null after => mismatch .null after.offset
  | .bool value after => mismatch (.bool value) after.offset
  | .number numeral after =>
    match numeral.value after.offset with
    | .ok value => mismatch (.number value) after.offset
    | .error fault => fault
  | .string text after =>
    match text with
    | .ok text => mismatch (.string (String.ofList text)) after.offset
    | .error fault => fault
  | .array start _ _ => mismatch .sequence start.offset
  | .object start _ _ => mismatch .map start.offset
  | .broken stop => stop.reading

/-! ## Single values -/

def Codec.text : Codec String where
  read := fun _ node =>
    match node with
    | .string text _ => text.map String.ofList
    | other => .error (other.wrongType "a string")
  write := .string

def Codec.bool : Codec Bool where
  read := fun _ node =>
    match node with
    | .bool value _ => .ok value
    | other => .error (other.wrongType "a boolean")
  write := .bool

/-- Natural numbers of so many bits. A number with a fraction or an exponent is of another type,
even if it is whole. -/
def Codec.natural (bits : Nat) (expected : String) : Codec Nat where
  read := fun _ node =>
    match node with
    | .number numeral after => do
      match ← numeral.value after.offset with
      | .whole value =>
        if 0 ≤ value && value < Nat.pow 2 bits then pure value.toNat
        else throw (.at (.wrongValue (.number (.whole value)) expected) after.offset)
      | .real _ => throw (node.wrongType expected)
    | other => .error (other.wrongType expected)
  write := fun value => .number (.whole value)

/-- Doubles. Every number is one. -/
def Codec.real : Codec Float where
  read := fun _ node =>
    match node with
    | .number numeral after => (numeral.value after.offset).map Number.toFloat
    | other => .error (other.wrongType "f64")
  write := fun value => .number (.real value)

/-! ## Lists and maps -/

def Codec.list {α : Type} (codec : Codec α) : Codec (List α) where
  read := fun depth node =>
    match node with
    | .array start items ending => do
      let inner ← enter depth start
      let values ← items.mapM (codec.read inner)
      ending.read
      pure values
    | other => .error (other.wrongType "a sequence")
  write := fun values => .array (values.map codec.write)

/-- The keys and the values of fields, up to the first fault. -/
def Codec.readFields {α : Type} (codec : Codec α) (depth : Nat) (fields : List (Key × Node)) :
    Except Fault (List (String × α)) :=
  fields.mapM fun (key, value) => do
    let name ← key.text
    let value ← codec.read depth value
    pure (String.ofList name, value)

/-- Ordered maps. A repeated key keeps its place and takes the last value. -/
def Codec.map {α : Type} (codec : Codec α) : Codec (OrderedMap α) where
  read := fun depth node =>
    match node with
    | .object start fields ending => do
      let inner ← enter depth start
      let entries ← codec.readFields inner fields
      ending.read
      pure (OrderedMap.ofList entries)
    | other => .error (other.wrongType "a map")
  write := fun map => .object (map.entries.map fun (key, value) => (key, codec.write value))

/-! ## Structures -/

/-- A field of a structure: how it is read into a value of the structure, and how it is written, if
it is. -/
structure Field (σ : Type) where
  name : String
  required : Bool
  read : Nat → Node → σ → Except Fault σ
  write : σ → Option Json

namespace Field

variable {σ α : Type}

/-- A field that is always written, and keeps its first value if it is missing. -/
def plain (name : String) (codec : Codec α) (get : σ → α) (set : σ → α → σ) : Field σ where
  name := name
  required := false
  read := fun depth node value => (codec.read depth node).map (set value)
  write := fun value => some (codec.write (get value))

/-- A field that must be there. -/
def needed (name : String) (codec : Codec α) (get : σ → α) (set : σ → α → σ) : Field σ :=
  { plain name codec get set with required := true }

/-- A field that may be null, and is written only if it has a value. -/
def optional (name : String) (codec : Codec α) (get : σ → Option α) (set : σ → Option α → σ) :
    Field σ where
  name := name
  required := false
  read := fun depth node value =>
    match node with
    | .null _ => .ok (set value none)
    | other => (codec.read depth other).map fun item => set value (some item)
  write := fun value => (get value).map codec.write

/-- A list that is written only if it has items. -/
def items (name : String) (codec : Codec α) (get : σ → List α) (set : σ → List α → σ) :
    Field σ :=
  { plain name codec.list get set with
    write := fun value =>
      if (get value).isEmpty then none else some (codec.list.write (get value)) }

end Field

/-- A structure as JSON sees it: its name in messages, the value before any field is read, and its
fields in their order. -/
structure Shape (σ : Type) where
  name : String
  blank : σ
  fields : List (Field σ)

/-- The end of an array whose items have all been read. Another item is one too many. -/
def closeArray (after : Cursor) : Except Fault Unit :=
  let gap := after.skipBlanks
  match gap.rest with
  | [] => .error (.at .endInList gap.reach)
  | ']' :: _ => .ok ()
  | ',' :: _ =>
    let next := gap.step.skipBlanks
    if next.rest.head? == some ']' then .error (.at .trailingComma next.reach)
    else .error (.at .trailingCharacters next.reach)
  | _ => .error (.at .trailingCharacters gap.reach)

/-- Where a fault without a place shows after an item of an array: after the closing bracket or the
comma, if one of them is next. -/
def afterItem (node : Node) : Nat :=
  match node.finish with
  | .error _ => 0
  | .ok after =>
    let gap := after.skipBlanks
    if gap.rest.head? == some ',' then gap.step.skipBlanks.offset else (gap.stepPast ']').offset

/-- Where a fault without a place shows after a field: after the closing brace, if it is next. -/
def afterField (node : Node) : Nat :=
  match node.finish with
  | .error _ => 0
  | .ok after => (after.stepPast '\x7d').offset

namespace Shape

variable {σ : Type}

/-- Reads the fields of an object. The names in `seen` have been read already. -/
def readObject (shape : Shape σ) (depth : Nat) (ending : Ending) :
    List String → σ → List (Key × Node) → Except Fault σ
  | seen, value, [] =>
    match ending with
    | .broken stop => .error stop.reading
    | .closed after =>
      match shape.fields.find? (fun field => field.required && !seen.contains field.name) with
      | some field => .error (.at (.missingField field.name) after.offset)
      | none => .ok value
  | seen, value, (key, node) :: rest => do
    let name ← key.text
    match shape.fields.find? (fun field => field.name.toList == name) with
    | none =>
      node.skip
      shape.readObject depth ending seen value rest
    | some field =>
      if seen.contains field.name then
        .error (.at (.duplicateField field.name) (key.after.stepPast '\x7d').offset)
      else
        let value ← (field.read depth node value).mapError (·.placed (afterField node))
        shape.readObject depth ending (field.name :: seen) value rest

/-- Reads the items of an array as the fields of the structure. `count` fields have been read, the
last of them up to `last`. -/
def readArray (shape : Shape σ) (depth : Nat) (ending : Ending) :
    Nat → Cursor → σ → List (Field σ) → List Node → Except Fault σ
  | _, last, value, [], _ => do
    closeArray last
    pure value
  | count, _, value, fields, [] =>
    match ending with
    | .broken stop => .error stop.reading
    | .closed after =>
      match fields.findIdx? (fun field => field.required) with
      | some index =>
        .error (.at (.wrongLength (count + index) shape.name shape.fields.length) after.offset)
      | none => .ok value
  | count, last, value, field :: fields, item :: rest => do
    let value ← (field.read depth item value).mapError (·.placed (afterItem item))
    let last := match item.finish with
      | .ok after => after
      | .error _ => last
    shape.readArray depth ending (count + 1) last value fields rest

def readFields (shape : Shape σ) (depth : Nat) (start : Cursor) (fields : List (Key × Node))
    (ending : Ending) : Except Fault σ := do
  let inner ← enter depth start
  shape.readObject inner ending [] shape.blank fields

def codec (shape : Shape σ) : Codec σ where
  read := fun depth node =>
    match node with
    | .object start fields ending => shape.readFields depth start fields ending
    | .array start items ending => do
      let inner ← enter depth start
      shape.readArray inner ending 0 start shape.blank shape.fields items
    | other => .error (other.wrongType ("struct " ++ shape.name))
  write := fun value =>
    .object (shape.fields.filterMap fun field =>
      (field.write value).map fun written => (field.name, written))

/-- The codec of a structure that may not be written as an array. -/
def objectCodec (shape : Shape σ) : Codec σ where
  read := fun depth node =>
    match node with
    | .object start fields ending => shape.readFields depth start fields ending
    | other => .error (other.wrongType ("struct " ++ shape.name))
  write := shape.codec.write

end Shape

/-- Reads a whole text as a value of a type. -/
def Codec.parse {α : Type} (codec : Codec α) (text : List Char) : Except Report α :=
  (readText (codec.read 0) text).mapError (·.report text)

end FlatLiquid.Json
