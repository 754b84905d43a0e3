import FlatLiquid.Schema.Block
import FlatLiquid.Schema.Definition

/-!
Contract: the schema of a template.

Owns:
- the reading of the schema block of a template;
- the excerpt around a place in a schema, with a caret under the place;
- the fault of a schema that cannot be read, with its wording.
-/

namespace FlatLiquid

/-- The lines around a place in a schema, each with its number. -/
structure Excerpt where
  lines : List (Nat × List Char)
  line : Nat
  column : Nat

namespace Excerpt

/-- How many lines are shown before and after the line in question. -/
def radius : Nat := 2

/-- The excerpt around a line and a column. -/
def around (interior : List Char) (line column : Nat) : Excerpt :=
  let first := max (line - radius) 1
  let numbered := (Text.lines interior).mapIdx fun index text => (index + 1, text)
  { lines := (numbered.drop (first - 1)).take (line + radius + 1 - first)
    line := line
    column := column }

/-- A line with its number, which is at least four characters wide. -/
def numberedLine (number : Nat) (text : List Char) : List Char :=
  let digits := Nat.toDigits 10 number
  List.replicate (4 - digits.length) ' ' ++ digits ++ " | ".toList ++ text ++ ['\n']

/-- The line with a caret under a column. -/
def caretLine (column : Nat) : List Char :=
  "     | ".toList ++ List.replicate (column - 1) ' ' ++ ['^', '\n']

/-- The lines, with the caret right after the line in question. -/
def text (excerpt : Excerpt) : String :=
  String.ofList (excerpt.lines.flatMap fun (number, line) =>
    numberedLine number line ++
      if number == excerpt.line then caretLine excerpt.column else [])

end Excerpt

structure SchemaFault where
  report : Json.Report
  excerpt : Excerpt

/-- The fault of a schema's text. Lines and columns are counted from one. -/
def SchemaFault.ofReport (report : Json.Report) (interior : List Char) : SchemaFault :=
  ⟨report, .around interior (max report.position.line 1) (max report.position.column 1)⟩

def SchemaFault.text (fault : SchemaFault) : String :=
  s!"Schema JSON error: {fault.report.text} at line {fault.excerpt.line}, " ++
    s!"column {fault.excerpt.column}\n" ++ fault.excerpt.text

/-- Reads the text between the markers. -/
def Schema.ofInterior (interior : List Char) : Except SchemaFault Schema :=
  let interior := Text.trim interior
  (Schema.shape.codec.parse interior).mapError (SchemaFault.ofReport · interior)

/-- Reads the schema of a template. A template without a schema block has none. -/
def Schema.read (template : List Char) : Except SchemaFault (Option Schema) :=
  match SchemaBlock.find? template with
  | none => .ok none
  | some block => (Schema.ofInterior block.interior).map some

/-- The schema of a template, if it has one that can be read. -/
def Schema.ofTemplate? (template : List Char) : Option Schema :=
  match Schema.read template with
  | .ok schema => schema
  | .error _ => none

/-- The name is missing or blank. -/
def Schema.isUnnamed (schema : Schema) : Bool :=
  (Text.trim schema.name.toList).isEmpty

end FlatLiquid
