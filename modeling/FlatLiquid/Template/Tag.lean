import FlatLiquid.Text.Blank
import FlatLiquid.Text.Word

/-!
Contract: the tags of a template.

Owns:
- tags, with their name and their markup;
- the pieces of a template, which are its tags and the characters between them;
- the verbatim regions, inside which nothing is a tag.

The pieces of a template, as they are written, are the template.
-/

namespace FlatLiquid

open Text (skipBlanks)

/-- A tag: its name, what follows the name, and the whole tag as it is written. -/
structure Tag where
  name : List Char
  markup : List Char
  source : List Char
deriving DecidableEq

/-- A piece of a template. -/
inductive Piece where
  | char (c : Char)
  | tag (tag : Tag)

def Piece.source : Piece → List Char
  | .char c => [c]
  | .tag written => written.source

def sourceOf (pieces : List Piece) : List Char :=
  pieces.flatMap Piece.source

/-- The text up to the first end of a tag, and the text after it. A dash right before the end
belongs to the end. -/
def closeTag? : List Char → Option (List Char × List Char)
  | '-' :: '%' :: '\x7d' :: rest => some ([], rest)
  | '%' :: '\x7d' :: rest => some ([], rest)
  | c :: rest => (closeTag? rest).map fun (markup, after) => (c :: markup, after)
  | [] => none

/-- The text from the name of a tag on, if the text starts with a tag. -/
def openTag? : List Char → Option (List Char)
  | '\x7b' :: '%' :: '-' :: rest => some (skipBlanks rest)
  | '\x7b' :: '%' :: rest => some (skipBlanks rest)
  | _ => none

/-- The tag that a text starts with, and the text after it. -/
def tag? (text : List Char) : Option (Tag × List Char) := do
  let rest ← openTag? text
  let name := Text.wordOf rest
  if name.isEmpty then none
  else
    let (markup, after) ← closeTag? (Text.afterWord rest)
    some (⟨name, markup, text.take (text.length - after.length)⟩, after)

/-- The pieces of a text, after `skip` characters that an earlier tag covers. -/
def piecesFrom : Nat → List Char → List Piece
  | _, [] => []
  | skip + 1, _ :: rest => piecesFrom skip rest
  | 0, c :: rest =>
    match tag? (c :: rest) with
    | some (tag, _) => .tag tag :: piecesFrom (tag.source.length - 1) rest
    | none => .char c :: piecesFrom 0 rest

/-- The tag that ends the verbatim region that a tag starts. -/
def verbatimEnd? (name : List Char) : Option (List Char) :=
  if name = "raw".toList then some "endraw".toList
  else if name = "comment".toList then some "endcomment".toList
  else none

/-- Takes the tags of verbatim regions for plain characters. `ending` is the tag that ends the
region that is open, if one is. -/
def hideVerbatim (ending : Option (List Char)) : List Piece → List Piece
  | [] => []
  | .char c :: rest => .char c :: hideVerbatim ending rest
  | .tag tag :: rest =>
    match ending with
    | some name =>
      tag.source.map .char ++ hideVerbatim (if tag.name = name then none else some name) rest
    | none =>
      match verbatimEnd? tag.name with
      | some name => tag.source.map .char ++ hideVerbatim (some name) rest
      | none => .tag tag :: hideVerbatim none rest

def pieces (template : List Char) : List Piece :=
  hideVerbatim none (piecesFrom 0 template)

end FlatLiquid
