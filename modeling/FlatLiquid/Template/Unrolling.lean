import FlatLiquid.Template.Accessor
import FlatLiquid.Template.BlockLoop

/-!
Contract: guarded copies in place of loops over blocks.

Owns:
- the copy of a loop's body for one block: variables in place of what belongs to the loop;
- the copies of a whole loop, each behind a test that there is a block for it;
- the template with copies in place of its loops.

A loop that holds another iteration stays as it is written. So does everything from a loop on that
has no end.

Assumption: the patterns of every loop's variable compile. The copies are made by two patterns that
hold the name of the variable, and a library of patterns may refuse a pattern for its size. A loop
with a variable too long for that would stay as it is written and be counted neither as unrolled nor
as left; here no name is too long.
-/

namespace FlatLiquid

open Text (Rule afterPrefix? startsWord replaceAll)

/-! ## The copy for one block -/

/-- Puts variables in place of the id and the type of a block. -/
def blockFieldRule (variableName scope : List Char) : Rule (List Char) := fun before text =>
  if startsWord before then do
    let rest ← afterPrefix? (variableName ++ ['.']) text
    let field := Text.wordOf rest
    if field = "type".toList ∨ field = "id".toList then
      some (scopedName scope field, Text.afterWord rest)
    else none
  else none

/-- The text that takes the place of a property of the loop in the copy for an index. -/
def loopProperty? (index : Nat) (name : List Char) : Option (List Char) :=
  if name = "index0".toList then some (Nat.toDigits 10 index)
  else if name = "index".toList then some (Nat.toDigits 10 (index + 1))
  else if name = "first".toList then some (if index = 0 then "true" else "false").toList
  else if name = "length".toList then some blockCountName
  else none

/-- Puts constants in place of the properties of the loop. -/
def loopPropertyRule (index : Nat) : Rule (List Char) := fun before text =>
  if startsWord before then do
    let rest ← afterPrefix? "forloop.".toList text
    let value ← loopProperty? index (Text.wordOf rest)
    some (value, Text.afterWord rest)
  else none

/-- Puts a test in place of the property of being last. -/
def lastRule (index : Nat) : Rule (List Char) := fun before text =>
  if startsWord before then do
    let rest ← afterWholeWord? "forloop.last".toList text
    some (blockCountName ++ " == ".toList ++ Nat.toDigits 10 (index + 1), rest)
  else none

/-- Tags with a condition. -/
def conditionTags : List (List Char) :=
  ["if", "elsif", "unless"].map String.toList

/-- Recognizes a tag with a condition, wherever it stands, and replaces the property of being last
in its markup. -/
def conditionRule (index : Nat) : Rule (List Char) := fun _ text => do
  let rest ← openTag? text
  let name := Text.wordOf rest
  if conditionTags.contains name then
    let body := Text.afterWord rest
    let (markup, after) ← closeTag? body
    let opening := recognized text body
    let closing := recognized (body.drop markup.length) after
    some (opening ++ replaceAll (lastRule index) markup ++ closing, after)
  else none

/-- The copy of a text for the block at an index. -/
def copyFor (variableName : List Char) (pickers : Pickers) (index : Nat) (text : List Char) :
    List Char :=
  let scope := blockScope index
  let text := replaceAll (variableRule variableName scope pickers) text
  let text := replaceAll (blockFieldRule variableName scope) text
  let text := replaceAll (loopPropertyRule index) text
  replaceAll (conditionRule index) text

/-! ## The copies of a loop -/

/-- A text behind a test of the number of blocks. -/
def guarded (test : List Char) (text : List Char) : List Char :=
  tagText ("if ".toList ++ blockCountName ++ test) ++ text ++ tagText "endif".toList

/-- The copy for the block at an index, behind the test that there is one. -/
def guardedCopy (variableName : List Char) (pickers : Pickers) (body : List Char) (index : Nat) :
    List Char :=
  guarded (" > ".toList ++ Nat.toDigits 10 index) (copyFor variableName pickers index body)

/-- The copies of a loop, one on a line, and after them its alternative behind the test that there
are no blocks. -/
def LoopParts.copies (parts : LoopParts) (variableName : List Char) (pickers : Pickers)
    (count : Nat) : List Char :=
  let copies := (List.range count).map (guardedCopy variableName pickers (sourceOf parts.body))
  let alternative := parts.alternative.toList.map fun (_, pieces) =>
    guarded " == 0".toList (sourceOf pieces)
  List.intercalate ['\n'] (copies ++ alternative)

/-! ## The template -/

/-- A template after unrolling, the number of loops with copies in their place, and the number of
loops left because of an iteration inside them. -/
structure Unrolled where
  template : List Char
  unrolled : Nat
  nested : Nat

/-- More text in front of what is unrolled. -/
def Unrolled.push (text : List Char) (rest : Unrolled) : Unrolled :=
  { rest with template := text ++ rest.template }

/-- The pieces with copies in place of their loops over blocks. A loop that does not iterate is always
replaced, as the patterns of its variable are assumed to compile. -/
def unrollPieces (count : Nat) (pickers : Pickers) : List Piece → Unrolled
  | [] => ⟨[], 0, 0⟩
  | .char c :: rest => (unrollPieces count pickers rest).push [c]
  | .tag tag :: rest =>
    match tag.blockLoopVariable? with
    | none => (unrollPieces count pickers rest).push tag.source
    | some variableName =>
      match found : LoopParts.find? [] rest with
      | none => ⟨sourceOf (.tag tag :: rest), 0, 0⟩
      | some parts =>
        have := LoopParts.after_length_le found
        let after := unrollPieces count pickers parts.after
        if parts.iterates then
          let text := tag.source ++ sourceOf parts.inner ++ parts.closing.source
          { after.push text with nested := after.nested + 1 }
        else
          let text := parts.copies variableName pickers count
          { after.push text with unrolled := after.unrolled + 1 }
termination_by pieces => pieces.length
decreasing_by all_goals simp only [List.length_cons]; omega

/-- The template with `count` copies in place of each loop over blocks. -/
def unroll (count : Nat) (pickers : Pickers) (template : List Char) : Unrolled :=
  unrollPieces count pickers (pieces template)

end FlatLiquid
