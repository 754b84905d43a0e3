import FlatLiquid.Template.Tag
import FlatLiquid.Text.Prefix

/-!
Contract: loops over the blocks of a section.

Owns:
- the tags that open a block, those that iterate, and those that start a loop over blocks;
- the parts of a loop: its body, its alternative for no blocks, its end, and what follows it.

A closing tag ends the innermost open block of its name, together with the blocks inside it. One
that ends no open block is passed over.
-/

namespace FlatLiquid

open Text (afterPrefix? skipBlanks)

/-- Tags that repeat their body. -/
def iterationTags : List (List Char) :=
  ["for", "tablerow", "paginate"].map String.toList

/-- Tags with a body and a closing tag. -/
def blockTags : List (List Char) :=
  ["for", "tablerow", "paginate", "if", "unless", "case", "capture", "form", "style", "javascript",
    "stylesheet", "schema"].map String.toList

/-- Some line of the markup starts with a tag that repeats its body. -/
def linesIterate (markup : List Char) : Bool :=
  (Text.lines markup).any fun line =>
    match Text.firstWord? line with
    | some word => iterationTags.contains word
    | none => false

/-- The tag repeats something: its body, or one that is written inside it line by line. -/
def Tag.iterates (tag : Tag) : Bool :=
  iterationTags.contains tag.name || (tag.name == "liquid".toList && linesIterate tag.markup)

/-- At least one blank, and the text after the blanks. -/
def afterBlanks? (text : List Char) : Option (List Char) :=
  match text with
  | c :: rest => if Text.isBlank c then some (skipBlanks rest) else none
  | [] => none

/-- The variable of a loop over blocks, from the markup of its tag. -/
def blockLoopVariable? (markup : List Char) : Option (List Char) := do
  let text := skipBlanks markup
  let name := Text.wordOf text
  if name.isEmpty then none
  else
    let rest ← afterBlanks? (Text.afterWord text)
    let rest ← afterPrefix? "in".toList rest
    let rest ← afterBlanks? rest
    let rest ← afterPrefix? "section.blocks".toList rest
    if (skipBlanks rest).isEmpty then some name else none

/-- The variable of the loop over blocks that a tag starts. -/
def Tag.blockLoopVariable? (tag : Tag) : Option (List Char) :=
  if tag.name = "for".toList then FlatLiquid.blockLoopVariable? tag.markup else none

/-- What a tag does inside a loop whose open blocks are known. -/
inductive LoopStep where
  | closes
  | otherwise
  | inside (stack : List (List Char))

/-- The open blocks after a closing tag, innermost first. -/
def closeBlock (name : List Char) (stack : List (List Char)) : List (List Char) :=
  match stack.dropWhile (· != name) with
  | _ :: outer => outer
  | [] => stack

/-- What a tag does inside a loop. `stack` holds the open blocks, innermost first. -/
def loopStep (stack : List (List Char)) (tag : Tag) : LoopStep :=
  if blockTags.contains tag.name then .inside (tag.name :: stack)
  else
    match afterPrefix? "end".toList tag.name with
    | some name =>
      if stack.isEmpty then (if name = "for".toList then .closes else .inside [])
      else .inside (closeBlock name stack)
    | none =>
      if tag.name = "else".toList && stack.isEmpty then .otherwise else .inside stack

/-- The parts of a loop after its opening tag. -/
structure LoopParts where
  body : List Piece
  /-- The last loop-level else tag, and the pieces between it and the closing tag. -/
  alternative : Option (Tag × List Piece)
  closing : Tag
  after : List Piece

namespace LoopParts

/-- The parts with one more piece at the front of the body. -/
def push (piece : Piece) (parts : LoopParts) : LoopParts :=
  { parts with body := piece :: parts.body }

/-- The parts with a loop-level else tag at the front. Only the last such tag separates the
alternative from the body. -/
def pushElse (tag : Tag) (parts : LoopParts) : LoopParts :=
  match parts.alternative with
  | some _ => parts.push (.tag tag)
  | none => { parts with body := [], alternative := some (tag, parts.body) }

/-- Finds the end of a loop in the pieces after its opening tag. -/
def find? (stack : List (List Char)) : List Piece → Option LoopParts
  | [] => none
  | .char c :: rest => (find? stack rest).map (push (.char c))
  | .tag tag :: rest =>
    match loopStep stack tag with
    | .closes => some ⟨[], none, tag, rest⟩
    | .otherwise => (find? stack rest).map (pushElse tag)
    | .inside stack => (find? stack rest).map (push (.tag tag))

/-- The pieces of the alternative, with its else tag. -/
def alternativePieces (parts : LoopParts) : List Piece :=
  match parts.alternative with
  | some (tag, pieces) => .tag tag :: pieces
  | none => []

/-- The pieces between the opening and the closing tag. -/
def inner (parts : LoopParts) : List Piece :=
  parts.body ++ parts.alternativePieces

/-- The loop holds a tag that iterates. -/
def iterates (parts : LoopParts) : Bool :=
  parts.inner.any fun piece =>
    match piece with
    | .tag tag => tag.iterates
    | .char _ => false

/-- How the search comes to the parts of a loop: one step for each piece up to the closing tag, and
what the step does to the parts that are found behind it. -/
inductive Found : List (List Char) → List Piece → LoopParts → Prop where
  | closes {stack : List (List Char)} {tag : Tag} (step : loopStep stack tag = .closes)
      (rest : List Piece) : Found stack (.tag tag :: rest) ⟨[], none, tag, rest⟩
  | char {stack : List (List Char)} {rest : List Piece} {parts : LoopParts} (c : Char)
      (later : Found stack rest parts) : Found stack (.char c :: rest) (push (.char c) parts)
  | otherwise {stack : List (List Char)} {tag : Tag} {rest : List Piece} {parts : LoopParts}
      (step : loopStep stack tag = .otherwise) (later : Found stack rest parts) :
      Found stack (.tag tag :: rest) (pushElse tag parts)
  | inside {stack next : List (List Char)} {tag : Tag} {rest : List Piece} {parts : LoopParts}
      (step : loopStep stack tag = .inside next) (later : Found next rest parts) :
      Found stack (.tag tag :: rest) (push (.tag tag) parts)

theorem found_of_find? {stack : List (List Char)} {pieces : List Piece} {parts : LoopParts}
    (found : find? stack pieces = some parts) : Found stack pieces parts := by
  induction pieces generalizing stack parts with
  | nil => contradiction
  | cons piece rest inductionHypothesis =>
    cases piece with
    | char c =>
      obtain ⟨later, laterFound, rfl⟩ := Option.map_eq_some_iff.mp found
      exact .char c (inductionHypothesis laterFound)
    | tag tag =>
      rw [find?] at found
      split at found
      · next step =>
        obtain rfl := Option.some.inj found
        exact .closes step rest
      · next step =>
        obtain ⟨later, laterFound, rfl⟩ := Option.map_eq_some_iff.mp found
        exact .otherwise step (inductionHypothesis laterFound)
      · next next step =>
        obtain ⟨later, laterFound, rfl⟩ := Option.map_eq_some_iff.mp found
        exact .inside step (inductionHypothesis laterFound)

theorem after_push (piece : Piece) (parts : LoopParts) : (push piece parts).after = parts.after :=
  rfl

theorem after_pushElse (tag : Tag) (parts : LoopParts) :
    (pushElse tag parts).after = parts.after := by
  unfold pushElse
  split <;> rfl

/-- What follows a loop is part of the pieces after its opening tag. -/
theorem after_length_le {stack : List (List Char)} {pieces : List Piece} {parts : LoopParts}
    (found : find? stack pieces = some parts) : parts.after.length ≤ pieces.length := by
  replace found := found_of_find? found
  induction found with
  | closes _ rest => exact Nat.le_succ rest.length
  | char _ _ inductionHypothesis =>
    rw [after_push]
    exact Nat.le_succ_of_le inductionHypothesis
  | otherwise _ _ inductionHypothesis =>
    rw [after_pushElse]
    exact Nat.le_succ_of_le inductionHypothesis
  | inside _ _ inductionHypothesis =>
    rw [after_push]
    exact Nat.le_succ_of_le inductionHypothesis

end LoopParts

end FlatLiquid
