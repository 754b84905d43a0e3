import FlatLiquid.Text.Blank
import FlatLiquid.Text.Replace

/-!
Contract: where a template holds its schema.

Owns:
- the markers of a schema block;
- the first schema block of a template, as the parts that the template falls into;
- the template without its schema blocks.

A marker is a tag of one word. A dash may stand at either end of it, blanks around the word, and the
word may be in upper case.
-/

namespace FlatLiquid

/-- A character that is the same as a small letter but for its case. The long s is an s. -/
def foldsTo (letter c : Char) : Bool :=
  c.toLower == letter || (letter == 's' && c == '\u017f')

/-- The text after a word in any case. -/
def afterFolded? : List Char → List Char → Option (List Char)
  | [], text => some text
  | _ :: _, [] => none
  | letter :: word, c :: rest => if foldsTo letter c then afterFolded? word rest else none

/-- The text after a dash, if there is one. -/
def dropDash : List Char → List Char
  | '-' :: rest => rest
  | text => text

/-- The text after the marker of a word, if the text starts with one. -/
def afterMarker? (word : List Char) : List Char → Option (List Char)
  | '\x7b' :: '%' :: rest => do
    let rest ← afterFolded? word (Text.skipBlanks (dropDash rest))
    match dropDash (Text.skipBlanks rest) with
    | '%' :: '\x7d' :: rest => some rest
    | _ => none
  | _ => none

/-- The word of the marker before a schema. -/
def schemaWord : List Char := "schema".toList

/-- The word of the marker after a schema. -/
def endSchemaWord : List Char := "endschema".toList

/-- A text cut at its first marker of a word: what stands before it, the marker, and what stands
after it. -/
def cutAtMarker? (word : List Char) : List Char → Option (List Char × List Char × List Char)
  | [] => none
  | c :: rest =>
    match afterMarker? word (c :: rest) with
    | some after => some ([], (c :: rest).take (rest.length + 1 - after.length), after)
    | none => (cutAtMarker? word rest).map fun (before, cut) => (c :: before, cut)

/-- A template cut at its first schema block. -/
structure SchemaBlock where
  before : List Char
  opening : List Char
  interior : List Char
  closing : List Char
  after : List Char
deriving DecidableEq

namespace SchemaBlock

/-- The schema block that a text starts with. It ends at the first closing marker. -/
def at? (text : List Char) : Option SchemaBlock := do
  let afterOpening ← afterMarker? schemaWord text
  let (interior, closing, after) ← cutAtMarker? endSchemaWord afterOpening
  some ⟨[], text.take (text.length - afterOpening.length), interior, closing, after⟩

/-- The first schema block of a template. -/
def find? : List Char → Option SchemaBlock
  | [] => none
  | c :: rest =>
    match at? (c :: rest) with
    | some block => some block
    | none => (find? rest).map fun block => { block with before := c :: block.before }

end SchemaBlock

/-- Recognizes a schema block and makes nothing of it. -/
def schemaBlockRule : Text.Rule (List Char) := fun _ text =>
  (SchemaBlock.at? text).map fun block => ([], block.after)

/-- The template without its schema blocks. -/
def stripSchema (template : List Char) : List Char :=
  Text.replaceAll schemaBlockRule template

end FlatLiquid
