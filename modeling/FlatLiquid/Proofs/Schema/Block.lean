import FlatLiquid.Proofs.Schema.Marker
import FlatLiquid.Proofs.Text.Replacement

/-!
Contract: the first schema block of a template.

Owns:
- the parts of a block and what they must be for the block to be found as these parts;
- the template without its schema blocks, from the first block on.

The parts can be told apart again: no opening marker stands in the text before a block, and no
closing marker in its interior. These two are all that has to be checked when a part is exchanged.
-/

namespace FlatLiquid

namespace SchemaBlock

/-- The template that a block is cut from. -/
def text (block : SchemaBlock) : List Char :=
  block.before ++ (block.opening ++ (block.interior ++ (block.closing ++ block.after)))

/-- The parts are such that a template is cut into them. -/
structure IsFirst (block : SchemaBlock) : Prop where
  opening : IsMarker schemaWord block.opening
  closing : IsMarker endSchemaWord block.closing
  before : cutAtMarker? schemaWord block.before = none
  interior : cutAtMarker? endSchemaWord block.interior = none

end SchemaBlock

/-- No marker stands before the first one. -/
theorem cutAtMarker?_before {word text before marker after : List Char} (isWord : IsWord word)
    (cut : cutAtMarker? word text = some (before, marker, after)) :
    cutAtMarker? word before = none := by
  obtain ⟨rfl, isMarker⟩ := cutAtMarker?_split isWord cut
  rw [cutAtMarker?_append isWord isMarker] at cut
  cases earlier : cutAtMarker? word before with
  | none => rfl
  | some parts =>
    obtain ⟨front, first, between⟩ := parts
    obtain ⟨split, isFirst⟩ := cutAtMarker?_split isWord earlier
    obtain ⟨tail, shape, _⟩ := isFirst.exists_tail isWord
    rw [earlier] at cut
    have same : front = before := congrArg Prod.fst (Option.some.inj cut)
    have size := congrArg List.length split
    rw [same, shape, List.length_append, List.length_append, List.length_cons] at size
    omega

theorem cutAtMarker?_eq_none_iff_cons (word : List Char) (c : Char) (rest : List Char) :
    cutAtMarker? word (c :: rest) = none ↔
      afterMarker? word (c :: rest) = none ∧ cutAtMarker? word rest = none := by
  rw [cutAtMarker?]
  cases afterMarker? word (c :: rest) <;> simp

theorem take_sub_length (front back : List Char) :
    (front ++ back).take ((front ++ back).length - back.length) = front := by
  rw [List.length_append, Nat.add_sub_cancel, List.take_left]

namespace SchemaBlock

/-- A text that starts with an opening marker is cut at the closing marker after it. -/
theorem at?_of_cut {opening rest interior closing after : List Char}
    (isOpening : IsMarker schemaWord opening)
    (cut : cutAtMarker? endSchemaWord rest = some (interior, closing, after)) :
    at? (opening ++ rest) = some ⟨[], opening, interior, closing, after⟩ := by
  rw [at?, afterMarker?_append isWord_schemaWord isOpening]
  simp [cut]

/-- A block whose parts can be told apart is found as these parts. -/
theorem find?_text {block : SchemaBlock} (isFirst : block.IsFirst) : find? block.text = some block := by
  obtain ⟨before, opening, interior, closing, after⟩ := block
  obtain ⟨isOpening, isClosing, beforeFree, interiorFree⟩ := isFirst
  simp only [text] at *
  have cut := cutAtMarker?_append isWord_endSchemaWord isClosing interior after
  rw [interiorFree] at cut
  have here := at?_of_cut isOpening cut
  obtain ⟨tail, braced, _⟩ := isOpening.exists_tail isWord_schemaWord
  induction before with
  | nil =>
    rw [braced] at here ⊢
    simp only [List.nil_append, List.cons_append] at here ⊢
    rw [find?, here]
  | cons c rest inductionHypothesis =>
    obtain ⟨unfit, restFree⟩ := (cutAtMarker?_eq_none_iff_cons schemaWord c rest).mp beforeFree
    have noneHere : at? (c :: (rest ++ (opening ++ (interior ++ (closing ++ after))))) = none := by
      rw [braced, List.cons_append, ← List.cons_append, at?,
        afterMarker?_barrier isWord_schemaWord (List.cons_ne_nil c rest), unfit]
      rfl
    rw [List.cons_append, find?, noneHere]
    simp only
    rw [inductionHypothesis restFree]
    rfl

/-- The block that is found makes up the template, and its parts can be told apart. -/
theorem isFirst_of_find? {template : List Char} {block : SchemaBlock}
    (found : find? template = some block) : template = block.text ∧ block.IsFirst := by
  induction template generalizing block with
  | nil => contradiction
  | cons c rest inductionHypothesis =>
    rw [find?] at found
    cases here : at? (c :: rest) with
    | some first =>
      rw [here] at found
      obtain rfl := Option.some.inj found
      rw [at?] at here
      obtain ⟨afterOpening, opened, here⟩ := Option.bind_eq_some_iff.mp here
      obtain ⟨⟨interior, closing, after⟩, cut, here⟩ := Option.bind_eq_some_iff.mp here
      obtain rfl := Option.some.inj here
      obtain ⟨opening, isOpening, shape⟩ := exists_marker opened
      obtain ⟨split, isClosing⟩ := cutAtMarker?_split isWord_endSchemaWord cut
      have taken : (c :: rest).take ((c :: rest).length - afterOpening.length) = opening := by
        rw [shape, take_sub_length]
      refine ⟨?_, ?_, isClosing, rfl, cutAtMarker?_before isWord_endSchemaWord cut⟩
      · rw [text, taken, ← split, shape]
        rfl
      · rw [taken]
        exact isOpening
    | none =>
      rw [here] at found
      obtain ⟨inner, innerFound, rfl⟩ := Option.map_eq_some_iff.mp found
      obtain ⟨split, isFirst⟩ := inductionHypothesis innerFound
      refine ⟨by rw [split]; rfl, isFirst.opening, isFirst.closing, ?_, isFirst.interior⟩
      refine (cutAtMarker?_eq_none_iff_cons schemaWord c inner.before).mpr ⟨?_, isFirst.before⟩
      cases earlier : afterMarker? schemaWord (c :: inner.before) with
      | none => rfl
      | some between =>
        -- the closing marker of the block would close this one too
        obtain ⟨marker, isMarker, shape⟩ := exists_marker earlier
        have cut := cutAtMarker?_append isWord_endSchemaWord isFirst.closing
          (between ++ (inner.opening ++ inner.interior)) inner.after
        have whole : c :: rest = marker ++ (between ++ (inner.opening ++ inner.interior) ++
            (inner.closing ++ inner.after)) := by
          rw [split, text, ← List.cons_append, shape]
          simp only [List.append_assoc]
        rw [whole, at?_of_cut isMarker cut] at here
        contradiction

/-- The parts that a template is cut into are the only ones that can be told apart. -/
theorem find?_eq_some_iff (template : List Char) (block : SchemaBlock) :
    find? template = some block ↔ template = block.text ∧ block.IsFirst := by
  constructor
  · exact isFirst_of_find?
  · rintro ⟨rfl, isFirst⟩
    exact find?_text isFirst

end SchemaBlock

/-! ## The template without its schema blocks -/

/-- What stands before a place makes no difference to the pass from there on. -/
theorem replaceFrom_schemaBlockRule (left right : Option Char) (text : List Char) :
    Text.replaceFrom schemaBlockRule left 0 text = Text.replaceFrom schemaBlockRule right 0 text := by
  cases text with
  | nil => rfl
  | cons c rest => rfl

theorem replaceFrom_of_find? {template : List Char} {block : SchemaBlock} (previous : Option Char)
    (found : SchemaBlock.find? template = some block) :
    Text.replaceFrom schemaBlockRule previous 0 template =
      block.before ++ stripSchema block.after := by
  induction template generalizing block previous with
  | nil => contradiction
  | cons c rest inductionHypothesis =>
    cases here : SchemaBlock.at? (c :: rest) with
    | some first =>
      obtain ⟨split, isFirst⟩ := SchemaBlock.isFirst_of_find? found
      rw [SchemaBlock.find?, here] at found
      obtain rfl := Option.some.inj found
      have nothing : first.before = [] := by
        rw [SchemaBlock.at?] at here
        obtain ⟨_, _, here⟩ := Option.bind_eq_some_iff.mp here
        obtain ⟨_, _, here⟩ := Option.bind_eq_some_iff.mp here
        rw [← Option.some.inj here]
      have fits : schemaBlockRule previous (c :: rest) = some ([], first.after) := by
        rw [schemaBlockRule, here]
        rfl
      obtain ⟨tail, braced, _⟩ := isFirst.opening.exists_tail isWord_schemaWord
      have covered : c :: rest =
          '\x7b' :: (tail ++ (first.interior ++ first.closing)) ++ first.after := by
        rw [split, SchemaBlock.text, nothing, braced]
        simp
      rw [covered] at fits ⊢
      rw [Text.replaceFrom_of_fit fits, nothing, replaceFrom_schemaBlockRule _ none]
      rfl
    | none =>
      rw [SchemaBlock.find?, here] at found
      obtain ⟨inner, innerFound, rfl⟩ := Option.map_eq_some_iff.mp found
      have unfit : schemaBlockRule previous (c :: rest) = none := by
        rw [schemaBlockRule, here]
        rfl
      rw [Text.replaceFrom, unfit]
      exact congrArg (c :: ·) (inductionHypothesis (some c) innerFound)

/-- The text before the first block stays, and the text after it is stripped on its own. -/
theorem stripSchema_of_find? {template : List Char} {block : SchemaBlock}
    (found : SchemaBlock.find? template = some block) :
    stripSchema template = block.before ++ stripSchema block.after :=
  replaceFrom_of_find? none found

end FlatLiquid
