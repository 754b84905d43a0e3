import FlatLiquid.Template.Unrolling
import FlatLiquid.Proofs.Template.Pieces

/-!
Contract: the tags around a loop over the blocks.

Owns:
- the opening and the closing tag of a loop, as they are read from a template, and its variable;
- the step of the unroller over plain characters and over a loop that it replaces.
-/

namespace FlatLiquid

open Text (isWordChar skipBlanks afterPrefix?)

/-! ## The tags -/

/-- What follows the variable in the markup of a loop over the blocks. -/
def overBlocks : List Char :=
  " in section.blocks ".toList

/-- The variable of a loop over blocks is a word. -/
theorem word_of_blockLoopVariable? {markup name : List Char}
    (found : blockLoopVariable? markup = some name) :
    name ≠ [] ∧ name.all isWordChar = true := by
  unfold blockLoopVariable? at found
  simp only at found
  split at found
  · contradiction
  · next nonempty =>
    have same : Text.wordOf (Text.skipBlanks markup) = name := by
      simp only [Option.bind_eq_bind, Option.bind_eq_some_iff] at found
      obtain ⟨_, _, _, _, _, _, _, _, last⟩ := found
      split at last
      · exact Option.some.inj last
      · contradiction
    rw [same] at nonempty
    refine ⟨fun empty => nonempty (List.isEmpty_iff.mpr empty), ?_⟩
    rw [← same]
    exact List.all_takeWhile

theorem Tag.word_of_blockLoopVariable? {tag : Tag} {name : List Char}
    (loop : tag.blockLoopVariable? = some name) :
    name ≠ [] ∧ name.all isWordChar = true := by
  unfold Tag.blockLoopVariable? at loop
  split at loop
  · exact FlatLiquid.word_of_blockLoopVariable? loop
  · contradiction

/-- The markup of a tag that starts a loop over the blocks tells the loop's variable. -/
theorem blockLoopVariable?_markup {variableName : List Char} (named : variableName ≠ [])
    (word : variableName.all isWordChar = true) :
    blockLoopVariable? (' ' :: (variableName ++ overBlocks)) = some variableName := by
  have inside : ∀ c ∈ variableName, isWordChar c = true := List.all_eq_true.mp word
  have start := Text.skipBlanks_word named inside overBlocks
  have ends : Text.endsWord overBlocks = true := by decide
  have name := Text.wordOf_append inside ends
  have tail := Text.afterWord_append inside ends
  have nonempty : variableName.isEmpty = false := List.isEmpty_eq_false_iff.mpr named
  have keywords : (do
      let rest ← afterBlanks? overBlocks
      let rest ← afterPrefix? "in".toList rest
      let rest ← afterBlanks? rest
      let rest ← afterPrefix? "section.blocks".toList rest
      if (skipBlanks rest).isEmpty then some variableName else none) = some variableName := by
    rfl
  rw [blockLoopVariable?, start, name, tail, nonempty]
  exact keywords

/-- The tag that opens the loop. -/
def loopTag (variableName : List Char) : Tag :=
  ⟨"for".toList, ' ' :: (variableName ++ overBlocks),
    tagText ("for ".toList ++ variableName ++ " in section.blocks".toList)⟩

/-- The tag that closes the loop. -/
def loopEndTag : Tag :=
  ⟨"endfor".toList, [' '], tagText "endfor".toList⟩

theorem tag?_loopTag {variableName : List Char} (word : variableName.all isWordChar = true)
    (rest : List Char) :
    tag? ((loopTag variableName).source ++ rest) = some (loopTag variableName, rest) := by
  have space : ∀ c ∈ (' ' :: (variableName ++ " in section.blocks".toList)).head?,
      isWordChar c = false := by
    rintro c ⟨⟩
    decide
  have noPercent : '%' ∉ ' ' :: (variableName ++ " in section.blocks".toList) := by
    have inVariable : '%' ∉ variableName := fun member =>
      absurd (List.all_eq_true.mp word _ member) (by decide)
    have inKeywords : '%' ∉ " in section.blocks".toList := by decide
    rw [List.mem_cons, List.mem_append, not_or, not_or]
    exact ⟨by decide, inVariable, inKeywords⟩
  have read := tag?_tagText "for".toList _ (by decide) (by decide) space noPercent rest
  have markup : ' ' :: (variableName ++ " in section.blocks".toList) ++ [' '] =
      ' ' :: (variableName ++ overBlocks) := by
    rw [List.cons_append, List.append_assoc]
    rfl
  rw [markup] at read
  exact read

theorem tag?_loopEndTag (rest : List Char) :
    tag? (loopEndTag.source ++ rest) = some (loopEndTag, rest) := by
  have read := tag?_tagText "endfor".toList [] (by decide) (by decide)
    (by simp) (by simp) rest
  rw [List.append_nil] at read
  exact read

/-! ## Steps of the unroller -/

/-- A tag that starts no loop over blocks is kept. -/
theorem unrollPieces_tag {tag : Tag} (count : Nat) (pickers : Pickers)
    (plain : tag.blockLoopVariable? = none) (rest : List Piece) :
    unrollPieces count pickers (.tag tag :: rest) =
      (unrollPieces count pickers rest).push tag.source := by
  rw [unrollPieces]
  split
  · rfl
  · next some => rw [plain] at some; contradiction

/-- A loop without an end is kept, and all that follows it. -/
theorem unrollPieces_endless {tag : Tag} {rest : List Piece} {variableName : List Char}
    (count : Nat) (pickers : Pickers) (loop : tag.blockLoopVariable? = some variableName)
    (endless : LoopParts.find? [] rest = none) :
    unrollPieces count pickers (.tag tag :: rest) = ⟨sourceOf (.tag tag :: rest), 0, 0⟩ := by
  rw [unrollPieces]
  split
  · next none => rw [loop] at none; contradiction
  · split
    · rfl
    · next found => rw [endless] at found; contradiction

/-- A loop with an end stays if it holds an iteration, and otherwise gives way to its copies. -/
theorem unrollPieces_ended {tag : Tag} {rest : List Piece} {parts : LoopParts}
    {variableName : List Char} (count : Nat) (pickers : Pickers)
    (loop : tag.blockLoopVariable? = some variableName)
    (found : LoopParts.find? [] rest = some parts) :
    unrollPieces count pickers (.tag tag :: rest) =
      let after := unrollPieces count pickers parts.after
      if parts.iterates then
        { after.push (tag.source ++ sourceOf parts.inner ++ parts.closing.source) with
          nested := after.nested + 1 }
      else
        { after.push (parts.copies variableName pickers count) with
          unrolled := after.unrolled + 1 } := by
  rw [unrollPieces]
  split
  · next none => rw [loop] at none; contradiction
  · next other same =>
    obtain rfl := Option.some.inj (loop.symm.trans same)
    split
    · next none => rw [found] at none; contradiction
    · next others same =>
      obtain rfl := Option.some.inj (found.symm.trans same)
      rfl

/-- A loop that holds no iteration gives way to its copies. -/
theorem unrollPieces_loop {tag : Tag} {rest : List Piece} {parts : LoopParts}
    {variableName : List Char} (count : Nat) (pickers : Pickers)
    (loop : tag.blockLoopVariable? = some variableName)
    (found : LoopParts.find? [] rest = some parts) (single : parts.iterates = false) :
    unrollPieces count pickers (.tag tag :: rest) =
      { (unrollPieces count pickers parts.after).push (parts.copies variableName pickers count) with
        unrolled := (unrollPieces count pickers parts.after).unrolled + 1 } := by
  rw [unrollPieces_ended count pickers loop found, single]
  rfl

/-- Plain characters are kept in front of what the unroller makes of the rest. -/
theorem unrollPieces_map_char (count : Nat) (pickers : Pickers) (text : List Char)
    (rest : List Piece) :
    unrollPieces count pickers (text.map .char ++ rest) =
      (unrollPieces count pickers rest).push text := by
  induction text with
  | nil => rfl
  | cons c tail inductionHypothesis =>
    rw [List.map_cons, List.cons_append, unrollPieces, inductionHypothesis]
    rfl

end FlatLiquid
