import FlatLiquid.Proofs.Template.Joining
import FlatLiquid.Proofs.Template.LoopTags
import FlatLiquid.Proofs.Template.Nesting

/-!
Contract: what an unrolled loop looks like, wherever it stands.

Owns:
- the texts that can stand in a loop which is unrolled, and their two parts;
- the pieces of a template around such a loop;
- the shape of the copies, in front of what becomes of the rest of the template.

That such a loop is unrolled whatever its variable is called rests on the assumption that the patterns
of the variable compile, which FlatLiquid.Template.Unrolling makes.
-/

namespace FlatLiquid

open Text (isWordChar)

/-- A loop over the blocks around a body. -/
def loopText (variableName body : List Char) : List Char :=
  (loopTag variableName).source ++ (body ++ loopEndTag.source)

/-- A text that can be the body of a loop which is unrolled. Each of its tags ends inside it, and so
does each verbatim region. Its blocks are well nested, and nothing in it iterates. `first` is what
is repeated, and `second` what follows an else tag of the loop. -/
structure IsLoopBody (body first : List Char) (second : Option (List Char)) : Prop where
  complete : TagsComplete body
  closed : openRegion none (piecesFrom 0 body) = none
  single : ∀ tag, .tag tag ∈ pieces body → tag.iterates = false
  divides : ∃ repeated otherwise, Divides (pieces body) repeated otherwise ∧
    sourceOf repeated = first ∧ otherwise.map sourceOf = second

/-- What takes the place of a loop: one guarded copy for each index, and after them the alternative
for no blocks. -/
def loopCopies (variableName : List Char) (pickers : Pickers) (count : Nat) (first : List Char)
    (second : Option (List Char)) : List Char :=
  List.intercalate ['\n']
    ((List.range count).map (fun index =>
        guarded (" > ".toList ++ Nat.toDigits 10 index) (copyFor variableName pickers index first)) ++
      second.toList.map (guarded " == 0".toList))

theorem copies_eq_loopCopies (parts : LoopParts) (variableName : List Char) (pickers : Pickers)
    (count : Nat) :
    parts.copies variableName pickers count =
      loopCopies variableName pickers count (sourceOf parts.body)
        ((parts.alternative.map Prod.snd).map sourceOf) := by
  rw [LoopParts.copies, loopCopies, Option.toList_map, Option.toList_map, List.map_map, List.map_map]
  rfl

theorem iterates_eq_false {parts : LoopParts}
    (single : ∀ tag, .tag tag ∈ parts.inner → tag.iterates = false) : parts.iterates = false := by
  refine List.any_eq_false.mpr fun piece member => ?_
  cases piece with
  | char c => simp
  | tag tag => simp [single tag member]

/-- A template around a loop falls into the characters before it, the tags of the loop with the
pieces of its body between them, and the pieces of the rest. -/
theorem pieces_loopText {variableName before body : List Char} (word : variableName.all isWordChar = true)
    (free : HoldsNoOpening before) (complete : TagsComplete body)
    (closed : openRegion none (piecesFrom 0 body) = none) (after : List Char) :
    pieces (before ++ (loopText variableName body ++ after)) =
      before.map .char ++
        .tag (loopTag variableName) :: (pieces body ++ .tag loopEndTag :: pieces after) := by
  have openingSeam (more : List Char) :
      ((loopTag variableName).source ++ more).head? ≠ some '%' :=
    fun same => absurd (Option.some.inj same) (show '\x7b' ≠ '%' by decide)
  have closingSeam (more : List Char) : (loopEndTag.source ++ more).head? ≠ some '%' :=
    fun same => absurd (Option.some.inj same) (show '\x7b' ≠ '%' by decide)
  have shape : loopText variableName body ++ after =
      (loopTag variableName).source ++ (body ++ (loopEndTag.source ++ after)) := by
    rw [loopText, List.append_assoc, List.append_assoc]
  have opening := pieces_tag (List.cons_ne_nil _ _)
    (tag?_loopTag word (body ++ (loopEndTag.source ++ after))) rfl
  have closing := pieces_tag (List.cons_ne_nil _ _) (tag?_loopEndTag after) (by decide)
  rw [shape, free.pieces_append (openingSeam _), opening, pieces_append complete closed (closingSeam _),
    closing]

/-- A text without tags holds nothing to unroll. -/
theorem unroll_of_holdsNoOpening {text : List Char} (free : HoldsNoOpening text) (count : Nat)
    (pickers : Pickers) : unroll count pickers text = ⟨text, 0, 0⟩ := by
  have written : pieces text = text.map .char ++ [] := by
    have alone : pieces (text ++ []) = _ := free.pieces_append (by simp)
    rw [List.append_nil] at alone
    exact alone
  have nothing : unrollPieces count pickers [] = ⟨[], 0, 0⟩ := by rw [unrollPieces]
  rw [unroll, written, unrollPieces_map_char, nothing]
  simp [Unrolled.push]

/-- A loop gives way to its copies, whatever stands before and after it, and the rest of the template
is unrolled as if it stood alone. -/
theorem unroll_loopText {variableName before body first : List Char} {second : Option (List Char)}
    (named : variableName ≠ []) (word : variableName.all isWordChar = true)
    (free : HoldsNoOpening before) (isBody : IsLoopBody body first second) (count : Nat)
    (pickers : Pickers) (after : List Char) :
    unroll count pickers (before ++ (loopText variableName body ++ after)) =
      { template := before ++ (loopCopies variableName pickers count first second ++
          (unroll count pickers after).template)
        unrolled := (unroll count pickers after).unrolled + 1
        nested := (unroll count pickers after).nested } := by
  obtain ⟨repeated, otherwise, divides, rfl, rfl⟩ := isBody.divides
  obtain ⟨parts, found, inner, body, alternative, -, rest⟩ :=
    LoopParts.find?_of_divides divides (show loopEndTag.name = "endfor".toList from rfl) (pieces after)
  have loop : (loopTag variableName).blockLoopVariable? = some variableName :=
    blockLoopVariable?_markup named word
  have single : parts.iterates = false := iterates_eq_false (inner ▸ isBody.single)
  have copies := copies_eq_loopCopies parts variableName pickers count
  rw [body, alternative] at copies
  rw [unroll, pieces_loopText word free isBody.complete isBody.closed, unrollPieces_map_char,
    unrollPieces_loop count pickers loop found single, copies, rest]
  rfl

/-- The body holds a condition with an else tag of its own, and an else tag of the loop. -/
theorem unroll_loopText_of_condition :
    let first := "\x7b% if block.id %\x7d+\x7b% else %\x7d-\x7b% endif %\x7d".toList
    let body := first ++ "\x7b% else %\x7dnone".toList
    IsLoopBody body first (some "none".toList) ∧
      unroll 2 .empty ("<ul>".toList ++ (loopText "block".toList body ++ "</ul>".toList)) =
        { template := "<ul>".toList ++ (List.intercalate ['\n']
            [ guarded " > 0".toList
                "\x7b% if block_0_id %\x7d+\x7b% else %\x7d-\x7b% endif %\x7d".toList,
              guarded " > 1".toList
                "\x7b% if block_1_id %\x7d+\x7b% else %\x7d-\x7b% endif %\x7d".toList,
              guarded " == 0".toList "none".toList ] ++ "</ul>".toList)
          unrolled := 1
          nested := 0 } := by
  intro first body
  let condition : Tag := ⟨"if".toList, " block.id ".toList, "\x7b% if block.id %\x7d".toList⟩
  let otherwise : Tag := ⟨"else".toList, " ".toList, "\x7b% else %\x7d".toList⟩
  let closing : Tag := ⟨"endif".toList, " ".toList, "\x7b% endif %\x7d".toList⟩
  let inside : List Piece := [.char '+', .tag otherwise, .char '-']
  let repeated : List Piece := .tag condition :: (inside ++ [.tag closing])
  have fallsApart : pieces body = repeated ++ .tag otherwise :: "none".toList.map .char := by rfl
  have inner : Balanced true inside := .char '+' (.otherwise rfl (.char '-' .nil))
  have nested : Balanced false repeated := .block (by decide) rfl inner .nil
  have divides : Divides (pieces body) repeated (some ("none".toList.map .char)) := by
    rw [fallsApart]
    exact .parted rfl nested (.char 'n' (.char 'o' (.char 'n' (.char 'e' .nil))))
  have single : ∀ tag, .tag tag ∈ pieces body → tag.iterates = false := by
    intro tag member
    rw [fallsApart] at member
    have known : tag = condition ∨ tag = otherwise ∨ tag = closing := by
      simp [repeated, inside] at member
      grind
    rcases known with rfl | rfl | rfl <;> rfl
  have isBody : IsLoopBody body first (some "none".toList) :=
    ⟨by decide +kernel, by decide +kernel, single, repeated, _, divides, by rfl, by rfl⟩
  have firstCopy : copyFor "block".toList .empty 0 first =
      "\x7b% if block_0_id %\x7d+\x7b% else %\x7d-\x7b% endif %\x7d".toList := by decide +kernel
  have secondCopy : copyFor "block".toList .empty 1 first =
      "\x7b% if block_1_id %\x7d+\x7b% else %\x7d-\x7b% endif %\x7d".toList := by decide +kernel
  have plain : HoldsNoOpening "<ul>".toList ∧ HoldsNoOpening "</ul>".toList := by
    unfold HoldsNoOpening
    decide
  refine ⟨isBody, ?_⟩
  rw [unroll_loopText (by decide) (by decide) plain.1 isBody, unroll_of_holdsNoOpening plain.2,
    ← firstCopy, ← secondCopy]
  rfl

end FlatLiquid
