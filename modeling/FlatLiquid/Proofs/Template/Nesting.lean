import FlatLiquid.Template.BlockLoop

/-!
Contract: the parts of a loop whose body is well nested.

Owns:
- pieces in which every block is closed by its own closing tag, to any depth;
- the division of such a body by an else tag of the loop itself;
- the search for the end of a loop, which passes over such pieces.

An else tag inside a block belongs to the block, and there may be any number of them. Closing tags
of what is no block are plain tags.
-/

namespace FlatLiquid

/-- The tag neither opens nor closes a block, and is no else tag. -/
def Tag.isPlain (tag : Tag) : Bool :=
  !blockTags.contains tag.name && tag.name != "else".toList &&
    !blockTags.any fun block => tag.name == "end".toList ++ block

/-- Well-nested pieces. `inBlock` tells that they stand inside a block, to which an else tag among
them belongs. -/
inductive Balanced : Bool → List Piece → Prop where
  | nil {inBlock : Bool} : Balanced inBlock []
  | char {inBlock : Bool} {rest : List Piece} (c : Char) (more : Balanced inBlock rest) :
      Balanced inBlock (.char c :: rest)
  | plain {inBlock : Bool} {tag : Tag} {rest : List Piece} (isPlain : tag.isPlain = true)
      (more : Balanced inBlock rest) : Balanced inBlock (.tag tag :: rest)
  | otherwise {tag : Tag} {rest : List Piece} (named : tag.name = "else".toList)
      (more : Balanced true rest) : Balanced true (.tag tag :: rest)
  | block {inBlock : Bool} {opening closing : Tag} {inside rest : List Piece}
      (opens : blockTags.contains opening.name = true)
      (closes : closing.name = "end".toList ++ opening.name) (inner : Balanced true inside)
      (more : Balanced inBlock rest) :
      Balanced inBlock (.tag opening :: (inside ++ .tag closing :: rest))

/-- How a body falls into what is repeated and, after an else tag of the loop itself, the
alternative for no blocks. -/
inductive Divides : List Piece → List Piece → Option (List Piece) → Prop where
  | whole {body : List Piece} (nested : Balanced false body) : Divides body body none
  | parted {first second : List Piece} {middle : Tag} (named : middle.name = "else".toList)
      (before : Balanced false first) (after : Balanced false second) :
      Divides (first ++ .tag middle :: second) first (some second)

/-! ## Steps of the search -/

theorem loopStep_of_block {tag : Tag} (opens : blockTags.contains tag.name = true)
    (stack : List (List Char)) : loopStep stack tag = .inside (tag.name :: stack) := by
  rw [loopStep, opens]
  rfl

/-- No block is named as the closing tag of another one. -/
theorem not_isBlock_closing {name : List Char} (isBlock : blockTags.contains name = true) :
    blockTags.contains ("end".toList ++ name) = false := by
  have all : ∀ block ∈ blockTags, blockTags.contains ("end".toList ++ block) = false := by decide
  exact all name (List.contains_iff_mem.mp isBlock)

/-- A closing tag ends the block that was opened last if it is the block's own. -/
theorem loopStep_of_closing {closing : Tag} {name : List Char}
    (isBlock : blockTags.contains name = true) (closes : closing.name = "end".toList ++ name)
    (stack : List (List Char)) : loopStep (name :: stack) closing = .inside stack := by
  have ended : closeBlock name (name :: stack) = stack := by
    rw [closeBlock, List.dropWhile_cons]
    simp
  rw [loopStep, closes, not_isBlock_closing isBlock, Text.afterPrefix?_append]
  simp [ended]

theorem loopStep_of_else {tag : Tag} (named : tag.name = "else".toList) (stack : List (List Char)) :
    loopStep stack tag = if stack.isEmpty then .otherwise else .inside stack := by
  rw [loopStep, named]
  cases stack <;> rfl

/-- A name that is not among the open blocks closes none of them. -/
theorem closeBlock_of_not_mem {name : List Char} {stack : List (List Char)} (other : name ∉ stack) :
    closeBlock name stack = stack := by
  have all : ∀ block ∈ stack, (block != name) = true := by
    intro block member
    refine bne_iff_ne.mpr ?_
    rintro rfl
    exact other member
  have passed : stack.dropWhile (· != name) = [] := by
    rw [← List.append_nil stack, List.dropWhile_append_of_pos all]
    rfl
  rw [closeBlock, passed]

theorem loopStep_of_isPlain {tag : Tag} (isPlain : tag.isPlain = true) {stack : List (List Char)}
    (known : ∀ name ∈ stack, blockTags.contains name = true) : loopStep stack tag = .inside stack := by
  simp only [Tag.isPlain, Bool.and_eq_true, Bool.not_eq_true', bne_iff_ne] at isPlain
  obtain ⟨⟨noBlock, noElse⟩, noClosing⟩ := isPlain
  rw [loopStep, noBlock]
  cases closed : Text.afterPrefix? "end".toList tag.name with
  | none =>
    have isElse : (decide (tag.name = "else".toList) && stack.isEmpty) = false := by
      rw [decide_eq_false noElse, Bool.false_and]
    simp only [Bool.false_eq_true, if_false, isElse]
  | some name =>
    have named : tag.name = "end".toList ++ name := Text.eq_append_of_afterPrefix? closed
    have unknown : name ∉ blockTags := by
      intro member
      have same := List.any_eq_false.mp noClosing name member
      exact same (beq_iff_eq.mpr named)
    have notLoop : name ≠ "for".toList := by
      rintro rfl
      exact unknown (by decide)
    have notOpen : name ∉ stack := fun member =>
      unknown (List.contains_iff_mem.mp (known name member))
    have kept := closeBlock_of_not_mem notOpen
    cases stack with
    | nil => simp only [Bool.false_eq_true, if_false, List.isEmpty_nil, if_true, notLoop]
    | cons block outer => simp only [Bool.false_eq_true, if_false, List.isEmpty_cons, kept]

/-! ## The search over well-nested pieces -/

namespace LoopParts

/-- The parts with more pieces at the front of the body. -/
def prepend (pieces : List Piece) (parts : LoopParts) : LoopParts :=
  { parts with body := pieces ++ parts.body }

theorem map_prepend_nil (found : Option LoopParts) : found.map (prepend []) = found := by
  cases found <;> rfl

/-- The search passes over well-nested pieces, which become part of the body. -/
theorem find?_append_of_balanced {inBlock : Bool} {pieces : List Piece}
    (nested : Balanced inBlock pieces) {stack : List (List Char)}
    (known : ∀ name ∈ stack, blockTags.contains name = true)
    (level : inBlock = true → stack ≠ []) (rest : List Piece) :
    find? stack (pieces ++ rest) = (find? stack rest).map (prepend pieces) := by
  induction nested generalizing stack rest with
  | nil => rw [List.nil_append, map_prepend_nil]
  | char c _ inductionHypothesis =>
    rw [List.cons_append, find?, inductionHypothesis known level, Option.map_map]
    rfl
  | plain isPlain _ inductionHypothesis =>
    rw [List.cons_append, find?, loopStep_of_isPlain isPlain known]
    simp only
    rw [inductionHypothesis known level, Option.map_map]
    rfl
  | otherwise named _ inductionHypothesis =>
    have inside : stack.isEmpty = false := List.isEmpty_eq_false_iff.mpr (level rfl)
    rw [List.cons_append, find?, loopStep_of_else named, inside]
    simp only [Bool.false_eq_true, if_false]
    rw [inductionHypothesis known level, Option.map_map]
    rfl
  | @block _ opening closing inside others opens closes _ _ innerHypothesis outerHypothesis =>
    have stillKnown : ∀ name ∈ opening.name :: stack, blockTags.contains name = true :=
      List.forall_mem_cons.mpr ⟨opens, known⟩
    have closed (after : List Piece) : find? (opening.name :: stack) (.tag closing :: after) =
        (find? stack after).map (push (.tag closing)) := by
      rw [find?, loopStep_of_closing opens closes]
    rw [List.cons_append, List.append_assoc, List.cons_append, find?, loopStep_of_block opens]
    simp only
    rw [innerHypothesis stillKnown (fun _ => List.cons_ne_nil _ _), closed,
      outerHypothesis known level, Option.map_map, Option.map_map, Option.map_map]
    congr 1
    funext parts
    simp [Function.comp, push, prepend]

/-- The search over the pieces of a loop whose body and alternative are well nested answers its
parts. -/
theorem find?_of_balanced (parts : LoopParts) (repeated : Balanced false parts.body)
    (alternative : ∀ part ∈ parts.alternative,
      part.1.name = "else".toList ∧ Balanced false part.2)
    (closes : parts.closing.name = "endfor".toList) :
    find? [] (parts.inner ++ .tag parts.closing :: parts.after) = some parts := by
  have known : ∀ name ∈ ([] : List (List Char)), blockTags.contains name = true :=
    fun name member => absurd member List.not_mem_nil
  have unnested : false = true → ([] : List (List Char)) ≠ [] := fun level =>
    absurd level Bool.false_ne_true
  obtain ⟨first, second, closing, after⟩ := parts
  have ended : find? [] (.tag closing :: after) = some ⟨[], none, closing, after⟩ := by
    have step : loopStep [] closing = .closes := by
      rw [loopStep, closes]
      rfl
    rw [find?, step]
  cases second with
  | none =>
    show find? [] (first ++ [] ++ .tag closing :: after) = _
    rw [List.append_nil, find?_append_of_balanced repeated known unnested, ended]
    simp [prepend]
  | some part =>
    obtain ⟨middle, pieces⟩ := part
    obtain ⟨named, behind⟩ := alternative (middle, pieces) rfl
    have afterElse : find? [] (.tag middle :: (pieces ++ .tag closing :: after)) =
        some ⟨[], some (middle, pieces), closing, after⟩ := by
      rw [find?, loopStep_of_else named]
      simp only [List.isEmpty_nil, if_true]
      rw [find?_append_of_balanced behind known unnested, ended]
      simp [prepend, pushElse]
    show find? [] (first ++ .tag middle :: pieces ++ .tag closing :: after) = _
    rw [List.append_assoc, List.cons_append,
      find?_append_of_balanced repeated known unnested, afterElse]
    simp [prepend]

/-- The search for the end of a loop with a well-nested body finds the loop's own closing tag and
the loop's own else tag. -/
theorem find?_of_divides {inner first : List Piece} {second : Option (List Piece)} {closing : Tag}
    (divides : Divides inner first second) (closes : closing.name = "endfor".toList)
    (after : List Piece) :
    ∃ parts, find? [] (inner ++ .tag closing :: after) = some parts ∧ parts.inner = inner ∧
      parts.body = first ∧ parts.alternative.map Prod.snd = second ∧ parts.closing = closing ∧
      parts.after = after := by
  cases divides with
  | whole nested =>
    have found := find?_of_balanced ⟨inner, none, closing, after⟩ nested
      (fun part isPart => nomatch isPart) closes
    have whole : LoopParts.inner ⟨inner, none, closing, after⟩ = inner := List.append_nil inner
    rw [whole] at found
    exact ⟨_, found, whole, rfl, rfl, rfl, rfl⟩
  | @parted _ second middle named before behind =>
    have found := find?_of_balanced ⟨first, some (middle, second), closing, after⟩ before
      (by rintro part ⟨⟩; exact ⟨named, behind⟩) closes
    exact ⟨_, found, rfl, rfl, rfl, rfl, rfl⟩

end LoopParts

end FlatLiquid
