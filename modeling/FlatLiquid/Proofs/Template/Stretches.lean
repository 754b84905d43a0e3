import FlatLiquid.Proofs.Template.Joining
import FlatLiquid.Proofs.Template.LoopTags

/-!
Contract: a template is a row of plain pieces and loops over blocks, which the unroller rewrites one
by one.

Owns:
- the stretches of a template, which are its plain pieces and its loops with an end;
- the end of a loop: the first closing tag that stands outside every block of the body;
- what the unroller makes of each stretch.

A loop without an end is no stretch of its own. Its pieces, and all pieces after it, are plain.
-/

namespace FlatLiquid

/-! ## The end of a loop -/

/-- The blocks that are open after some pieces of a loop, innermost first. -/
def openBlocks (stack : List (List Char)) : List Piece → List (List Char)
  | [] => stack
  | .char _ :: rest => openBlocks stack rest
  | .tag tag :: rest =>
    match loopStep stack tag with
    | .inside next => openBlocks next rest
    | .closes => openBlocks stack rest
    | .otherwise => openBlocks stack rest

/-- A tag is the first end of a loop outside every block that opens after `stack` did. -/
structure EndsLoop (stack : List (List Char)) (inner : List Piece) (closing : Tag) : Prop where
  named : closing.name = "endfor".toList
  outside : openBlocks stack inner = []
  first : ∀ before tag after, inner = before ++ .tag tag :: after → openBlocks stack before = [] →
    tag.name ≠ "endfor".toList

theorem loopStep_eq_closes_iff (stack : List (List Char)) (tag : Tag) :
    loopStep stack tag = .closes ↔ stack = [] ∧ tag.name = "endfor".toList := by
  constructor
  · intro closes
    unfold loopStep at closes
    split at closes
    · contradiction
    · split at closes
      · next name closed =>
        split at closes
        · next empty =>
          split at closes
          · next isFor =>
            have named := Text.eq_append_of_afterPrefix? closed
            rw [isFor] at named
            exact ⟨List.isEmpty_iff.mp empty, named⟩
          · contradiction
        · contradiction
      · split at closes <;> contradiction
  · rintro ⟨rfl, named⟩
    rw [loopStep, named]
    rfl

theorem stack_of_otherwise {stack : List (List Char)} {tag : Tag}
    (step : loopStep stack tag = .otherwise) : stack = [] ∧ tag.name = "else".toList := by
  unfold loopStep at step
  split at step
  · contradiction
  · split at step
    · split at step
      · split at step <;> contradiction
      · contradiction
    · split at step
      · next isElse =>
        simp only [Bool.and_eq_true, decide_eq_true_eq, List.isEmpty_iff] at isElse
        exact ⟨isElse.2, isElse.1⟩
      · contradiction

/-- A piece at the front that closes nothing leaves the end of the loop where it is. -/
theorem EndsLoop.cons {stack next : List (List Char)} {piece : Piece} {inner : List Piece}
    {closing : Tag} (ends : EndsLoop next inner closing)
    (step : ∀ rest, openBlocks stack (piece :: rest) = openBlocks next rest)
    (other : ∀ tag, piece = .tag tag → stack = [] → tag.name ≠ "endfor".toList) :
    EndsLoop stack (piece :: inner) closing where
  named := ends.named
  outside := by rw [step, ends.outside]
  first := by
    intro before tag after split outside
    cases before with
    | nil => exact other tag (List.cons.inj split).1 outside
    | cons head tail =>
      obtain ⟨rfl, others⟩ := List.cons.inj split
      rw [step] at outside
      exact ends.first tail tag after others outside

namespace LoopParts

theorem inner_pushElse (tag : Tag) (parts : LoopParts) :
    (pushElse tag parts).inner = .tag tag :: parts.inner := by
  unfold pushElse
  cases alternative : parts.alternative with
  | some _ => rfl
  | none => simp [inner, alternativePieces, alternative]

theorem closing_pushElse (tag : Tag) (parts : LoopParts) :
    (pushElse tag parts).closing = parts.closing := by
  unfold pushElse
  split <;> rfl

/-- The parts of a loop make up the pieces after its opening tag, and its closing tag is the first
end outside the blocks of the body. -/
theorem endsLoop_of_find? {stack : List (List Char)} {pieces : List Piece} {parts : LoopParts}
    (found : find? stack pieces = some parts) :
    pieces = parts.inner ++ .tag parts.closing :: parts.after ∧
      EndsLoop stack parts.inner parts.closing := by
  replace found := found_of_find? found
  induction found with
  | @closes stack tag step rest =>
    obtain ⟨rfl, named⟩ := (loopStep_eq_closes_iff stack tag).mp step
    refine ⟨rfl, named, rfl, ?_⟩
    intro before other after split
    cases before <;> simp [inner, alternativePieces] at split
  | char c _ inductionHypothesis =>
    obtain ⟨split, ends⟩ := inductionHypothesis
    exact ⟨congrArg _ split, ends.cons (fun _ => rfl) fun tag same => Piece.noConfusion same⟩
  | otherwise step _ inductionHypothesis =>
    obtain ⟨split, ends⟩ := inductionHypothesis
    obtain ⟨rfl, named⟩ := stack_of_otherwise step
    rw [inner_pushElse, closing_pushElse, after_pushElse]
    refine ⟨congrArg _ split, ends.cons (fun more => by rw [openBlocks, step]) ?_⟩
    intro other same _
    obtain rfl := Piece.tag.inj same
    rw [named]
    decide
  | @inside stack next tag _ _ step _ inductionHypothesis =>
    obtain ⟨split, ends⟩ := inductionHypothesis
    refine ⟨congrArg _ split, ends.cons (fun more => by rw [openBlocks, step]) ?_⟩
    intro other same outside isEnd
    obtain rfl := Piece.tag.inj same
    rw [(loopStep_eq_closes_iff stack tag).mpr ⟨outside, isEnd⟩] at step
    contradiction

/-- The alternative of a loop starts with an else tag. -/
theorem otherwise_of_find? {stack : List (List Char)} {written : List Piece}
    {parts : LoopParts} (found : find? stack written = some parts) :
    ∀ other ∈ parts.alternative, other.1.name = "else".toList := by
  replace found := found_of_find? found
  induction found with
  | closes _ _ => exact fun _ isPart => absurd isPart (Option.not_mem_none _)
  | char _ _ inductionHypothesis => exact inductionHypothesis
  | otherwise step _ inductionHypothesis =>
    unfold pushElse
    split
    · exact inductionHypothesis
    · rintro other ⟨⟩
      exact (stack_of_otherwise step).2
  | inside _ _ inductionHypothesis => exact inductionHypothesis

end LoopParts

/-! ## Stretches -/

/-- A part of a template that the unroller treats as a whole. -/
inductive Stretch where
  | plain (piece : Piece)
  | loop (opening : Tag) (variableName : List Char) (parts : LoopParts)

namespace Stretch

def pieces : Stretch → List Piece
  | .plain piece => [piece]
  | .loop opening _ parts => .tag opening :: (parts.inner ++ [.tag parts.closing])

/-- The text of a stretch. -/
def source (stretch : Stretch) : List Char :=
  sourceOf stretch.pieces

theorem source_plain (piece : Piece) : (Stretch.plain piece).source = piece.source :=
  List.append_nil _

theorem source_loop (opening : Tag) (variableName : List Char) (parts : LoopParts) :
    (Stretch.loop opening variableName parts).source =
      opening.source ++ (sourceOf parts.inner ++ parts.closing.source) := by
  rw [source, pieces, sourceOf_cons, sourceOf_append, sourceOf_cons]
  exact congrArg (fun last => opening.source ++ (sourceOf parts.inner ++ last)) (List.append_nil _)

/-- If the stretch is a loop, a tag starts it and the first end outside its blocks ends it. -/
def IsSound : Stretch → Prop
  | .plain _ => True
  | .loop opening variableName parts =>
    opening.blockLoopVariable? = some variableName ∧ EndsLoop [] parts.inner parts.closing

/-- The stretch is a loop that gives way to copies. -/
def isReplaced : Stretch → Bool
  | .plain _ => false
  | .loop _ _ parts => !parts.iterates

/-- The stretch is a loop that stays because something in it iterates. -/
def isLeft : Stretch → Bool
  | .plain _ => false
  | .loop _ _ parts => parts.iterates

/-- What the unroller writes for a stretch. -/
def result (count : Nat) (pickers : Pickers) : Stretch → List Char
  | .plain piece => piece.source
  | .loop opening variableName parts =>
    if parts.iterates then source (.loop opening variableName parts)
    else parts.copies variableName pickers count

end Stretch

/-- The stretches of a row of pieces. -/
def stretches : List Piece → List Stretch
  | [] => []
  | .char c :: rest => .plain (.char c) :: stretches rest
  | .tag tag :: rest =>
    match tag.blockLoopVariable? with
    | none => .plain (.tag tag) :: stretches rest
    | some variableName =>
      match found : LoopParts.find? [] rest with
      | none => (.tag tag :: rest).map .plain
      | some parts =>
        have := LoopParts.after_length_le found
        .loop tag variableName parts :: stretches parts.after
termination_by pieces => pieces.length
decreasing_by all_goals simp only [List.length_cons]; omega

/-! ### Steps -/

theorem stretches_tag {tag : Tag} (plain : tag.blockLoopVariable? = none) (rest : List Piece) :
    stretches (.tag tag :: rest) = .plain (.tag tag) :: stretches rest := by
  rw [stretches]
  split
  · rfl
  · next some => rw [plain] at some; contradiction

theorem stretches_endless {tag : Tag} {rest : List Piece} {variableName : List Char}
    (loop : tag.blockLoopVariable? = some variableName) (endless : LoopParts.find? [] rest = none) :
    stretches (.tag tag :: rest) = (.tag tag :: rest).map .plain := by
  rw [stretches]
  split
  · next none => rw [loop] at none; contradiction
  · split
    · rfl
    · next found => rw [endless] at found; contradiction

theorem stretches_ended {tag : Tag} {rest : List Piece} {variableName : List Char}
    {parts : LoopParts} (loop : tag.blockLoopVariable? = some variableName)
    (found : LoopParts.find? [] rest = some parts) :
    stretches (.tag tag :: rest) = .loop tag variableName parts :: stretches parts.after := by
  rw [stretches]
  split
  · next none => rw [loop] at none; contradiction
  · next other same =>
    obtain rfl := Option.some.inj (loop.symm.trans same)
    split
    · next none => rw [found] at none; contradiction
    · next others same =>
      obtain rfl := Option.some.inj (found.symm.trans same)
      rfl

theorem flatMap_pieces_map_plain (written : List Piece) :
    (written.map Stretch.plain).flatMap Stretch.pieces = written := by
  induction written with
  | nil => rfl
  | cons piece rest inductionHypothesis =>
    rw [List.map_cons, List.flatMap_cons, inductionHypothesis]
    rfl

/-- The stretches make up the pieces, and the loops among them are sound. -/
theorem stretches_sound (written : List Piece) :
    (stretches written).flatMap Stretch.pieces = written ∧
      ∀ stretch ∈ stretches written, stretch.IsSound := by
  fun_induction stretches written with
  | case1 => exact ⟨rfl, fun stretch member => absurd member List.not_mem_nil⟩
  | case2 c rest inductionHypothesis =>
    refine ⟨congrArg (Piece.char c :: ·) inductionHypothesis.1, ?_⟩
    exact List.forall_mem_cons.mpr ⟨trivial, inductionHypothesis.2⟩
  | case3 tag rest _ inductionHypothesis =>
    refine ⟨congrArg (Piece.tag tag :: ·) inductionHypothesis.1, ?_⟩
    exact List.forall_mem_cons.mpr ⟨trivial, inductionHypothesis.2⟩
  | case4 tag rest variableName _ _ =>
    refine ⟨flatMap_pieces_map_plain _, fun stretch member => ?_⟩
    obtain ⟨piece, _, rfl⟩ := List.mem_map.mp member
    trivial
  | case5 tag rest variableName loop parts found _ inductionHypothesis =>
    obtain ⟨split, ends⟩ := LoopParts.endsLoop_of_find? found
    refine ⟨?_, List.forall_mem_cons.mpr ⟨⟨loop, ends⟩, inductionHypothesis.2⟩⟩
    rw [List.flatMap_cons, inductionHypothesis.1, split]
    simp [Stretch.pieces]

theorem results_map_plain (count : Nat) (pickers : Pickers) (written : List Piece) :
    (written.map Stretch.plain).flatMap (Stretch.result count pickers) = sourceOf written := by
  rw [List.flatMap_map]
  rfl

theorem countP_map_plain {counted : Stretch → Bool} (uncounted : ∀ piece, counted (.plain piece) = false)
    (written : List Piece) : (written.map Stretch.plain).countP counted = 0 := by
  rw [List.countP_eq_zero]
  intro stretch member
  obtain ⟨piece, _, rfl⟩ := List.mem_map.mp member
  simp [uncounted piece]

/-- The unroller writes its result for each stretch, and counts the loops. -/
theorem unrollPieces_eq (count : Nat) (pickers : Pickers) (written : List Piece) :
    unrollPieces count pickers written =
      { template := (stretches written).flatMap (Stretch.result count pickers)
        unrolled := (stretches written).countP Stretch.isReplaced
        nested := (stretches written).countP Stretch.isLeft } := by
  fun_induction stretches written with
  | case1 =>
    rw [unrollPieces]
    rfl
  | case2 c rest inductionHypothesis =>
    rw [unrollPieces, inductionHypothesis]
    rfl
  | case3 tag rest plain inductionHypothesis =>
    rw [unrollPieces_tag count pickers plain, inductionHypothesis]
    rfl
  | case4 tag rest variableName loop endless =>
    rw [unrollPieces_endless count pickers loop endless]
    rw [results_map_plain, countP_map_plain fun _ => rfl, countP_map_plain fun _ => rfl]
  | case5 tag rest variableName loop parts found _ inductionHypothesis =>
    rw [unrollPieces_ended count pickers loop found, inductionHypothesis]
    cases iterates : parts.iterates with
    | true =>
      simp [Unrolled.push, Stretch.result, Stretch.isReplaced, Stretch.isLeft, iterates,
        Stretch.source_loop]
    | false => simp [Unrolled.push, Stretch.result, Stretch.isReplaced, Stretch.isLeft, iterates]

end FlatLiquid
