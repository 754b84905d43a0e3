import FlatLiquid.Template.Pickers
import FlatLiquid.Text.Blank
import FlatLiquid.Text.Prefix
import FlatLiquid.Text.Replace
import FlatLiquid.Text.Word

/-!
Contract: accessors of settings, and the variables that take their place.

Owns:
- the grammar of an accessor: an object, `.settings`, and a key after a dot or in brackets;
- the passes that put variables in place of the section's settings and of the number of blocks.
-/

namespace FlatLiquid

open Text (Rule afterPrefix? skipBlanks startsWord endsWord replaceAll)

def isKeyChar (c : Char) : Bool :=
  isIdentifierChar c || c == '-'

/-- The key at the front of a text, and the text after it. A key does not end in a dash: a dash
there belongs to what follows. -/
def key? (text : List Char) : Option (List Char × List Char) :=
  let run := text.takeWhile isKeyChar
  let key := (run.reverse.dropWhile (· == '-')).reverse
  match key with
  | first :: _ => if isIdentifierStart first then some (key, text.drop key.length) else none
  | [] => none

/-- The key between quotes and brackets, from the text after the opening bracket on. -/
def bracketedKey? (text : List Char) : Option (List Char × List Char) := do
  match skipBlanks text with
  | quote :: rest =>
    if quote == '\'' || quote == '"' then
      let (key, rest) ← key? rest
      let rest ← afterPrefix? [quote] rest
      let rest ← afterPrefix? [']'] (skipBlanks rest)
      some (key, rest)
    else none
  | [] => none

/-- Recognizes an accessor of an object's settings and answers its key. -/
def accessorRule (object : List Char) : Rule (List Char) := fun before text =>
  if startsWord before then do
    let rest ← afterPrefix? (object ++ ".settings".toList) text
    match rest with
    | '.' :: rest => key? rest
    | '[' :: rest => bracketedKey? rest
    | _ => none
  else none

/-- What a rule recognized, as it is written. -/
def recognized (text after : List Char) : List Char :=
  text.take (text.length - after.length)

theorem recognized_append (covered after : List Char) :
    recognized (covered ++ after) after = covered := by
  rw [recognized, List.length_append, Nat.add_sub_cancel, List.take_left]

/-- Puts variables in place of accessors. An accessor whose key becomes no identifier stays as it is
written. -/
def variableRule (object scope : List Char) (pickers : Pickers) : Rule (List Char) :=
  fun before text =>
    (accessorRule object before text).map fun (key, after) =>
      ((pickers.flatName? scope key).getD (recognized text after), after)

/-- The object that a template reads its section from. -/
def sectionObject : List Char := "section".toList

/-- The template with variables in place of the section's settings. -/
def flattenSettings (pickers : Pickers) (template : List Char) : List Char :=
  replaceAll (variableRule sectionObject sectionScope pickers) template

/-- Recognizes a word as a whole: no word runs on into what follows. -/
def afterWholeWord? (word text : List Char) : Option (List Char) := do
  let rest ← afterPrefix? word text
  if endsWord rest then some rest else none

/-- Recognizes the number of blocks, which is written as a property or with a filter. -/
def blockCountRule : Rule (List Char) := fun before text =>
  if startsWord before then do
    let rest ← afterPrefix? "section.blocks".toList text
    let after ← match afterWholeWord? ".size".toList rest with
      | some after => some after
      | none => do
        let rest ← afterPrefix? ['|'] (skipBlanks rest)
        afterWholeWord? "size".toList (skipBlanks rest)
    some (blockCountName, after)
  else none

/-- The template with a variable in place of the number of blocks. -/
def flattenBlockCount (template : List Char) : List Char :=
  replaceAll blockCountRule template

end FlatLiquid
