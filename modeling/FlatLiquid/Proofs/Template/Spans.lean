import FlatLiquid.Proofs.Template.LoopShape
import FlatLiquid.Proofs.Template.Stretches

/-!
Contract: unrolling replaces spans of a template and keeps all else.

Owns:
- the offsets of the loops of a template and of their parts, in the order of the template;
- the replacement of spans, with a cursor that passes from one span to the next;
- the frame of the unroller: outside the spans that it replaces no character changes.
-/

namespace FlatLiquid

/-! ## Offsets -/

/-- A loop over blocks by the offsets of its parts: from the opening tag on, the body, the
alternative, and the closing tag. -/
structure LoopSpan where
  variableName : List Char
  start : Nat
  bodyStart : Nat
  bodyStop : Nat
  alternative : Option (Nat × Nat)
  closingStart : Nat
  stop : Nat
  iterates : Bool

namespace LoopSpan

/-- The span of a loop whose opening tag stands at an offset. -/
def ofParts (start : Nat) (opening : Tag) (variableName : List Char) (parts : LoopParts) :
    LoopSpan :=
  let bodyStart := start + opening.source.length
  let bodyStop := bodyStart + (sourceOf parts.body).length
  let closingStart := bodyStart + (sourceOf parts.inner).length
  { variableName, start, bodyStart, bodyStop
    alternative := parts.alternative.map fun (middle, _) =>
      (bodyStop + middle.source.length, closingStart)
    closingStart
    stop := closingStart + parts.closing.source.length
    iterates := parts.iterates }

/-- What takes the place of a loop, from slices of the template. -/
def copies (template : List Char) (count : Nat) (pickers : Pickers) (span : LoopSpan) : List Char :=
  loopCopies span.variableName pickers count (template.extract span.bodyStart span.bodyStop)
    (span.alternative.map fun (start, stop) => template.extract start stop)

/-- Each slice of the loop starts before it stops, and they come one after the other. -/
structure IsOrdered (span : LoopSpan) : Prop where
  opening : span.start ≤ span.bodyStart
  body : span.bodyStart ≤ span.bodyStop
  alternative : ∀ part ∈ span.alternative, span.bodyStop ≤ part.1 ∧ part.1 ≤ part.2 ∧
    part.2 ≤ span.closingStart
  inner : span.bodyStop ≤ span.closingStart
  closing : span.closingStart ≤ span.stop

end LoopSpan

/-- The loops among stretches that start at an offset. -/
def spansFrom (offset : Nat) : List Stretch → List LoopSpan
  | [] => []
  | .plain piece :: rest => spansFrom (offset + piece.source.length) rest
  | .loop opening variableName parts :: rest =>
    LoopSpan.ofParts offset opening variableName parts ::
      spansFrom (offset + (Stretch.loop opening variableName parts).source.length) rest

/-- The loops of a template that have an end, in their order. -/
def loopSpans (template : List Char) : List LoopSpan :=
  spansFrom 0 (stretches (pieces template))

/-- Spans lie between a cursor and a limit, each after the one before it. -/
def InOrder (limit cursor : Nat) : List LoopSpan → Prop
  | [] => cursor ≤ limit
  | span :: rest => cursor ≤ span.start ∧ span.IsOrdered ∧ InOrder limit span.stop rest

/-- A template with other text in the place of spans, from a cursor on. -/
def replaceSpans (template : List Char) (replacement : LoopSpan → List Char) (cursor : Nat) :
    List LoopSpan → List Char
  | [] => template.drop cursor
  | span :: rest =>
    template.extract cursor span.start ++
      (replacement span ++ replaceSpans template replacement span.stop rest)

/-! ## Slices -/

theorem extract_append_extract {α : Type} (text : List α) {start middle stop : Nat}
    (first : start ≤ middle) (second : middle ≤ stop) :
    text.extract start middle ++ text.extract middle stop = text.extract start stop := by
  have rest : text.drop middle = (text.drop start).drop (middle - start) := by
    rw [List.drop_drop, Nat.add_sub_cancel' first]
  have size : stop - start = (middle - start) + (stop - middle) := by omega
  rw [List.extract_eq_take_drop, List.extract_eq_take_drop, List.extract_eq_take_drop, rest, size,
    List.take_add]

theorem extract_of_split {α : Type} {text : List α} (front : List α) {middle : List α}
    (back : List α) {start stop : Nat} (split : text = front ++ (middle ++ back)) (starts : start = front.length)
    (stops : stop = start + middle.length) : text.extract start stop = middle := by
  rw [split, stops, starts, List.extract_eq_take_drop, List.drop_left, Nat.add_sub_cancel_left,
    List.take_left]

/-- A slice up to a text goes on with the text. -/
theorem extract_append_of_split {α : Type} {text front middle back : List α} {cursor : Nat}
    (split : text = front ++ (middle ++ back)) (behind : cursor ≤ front.length) :
    text.extract cursor (front.length + middle.length) =
      text.extract cursor front.length ++ middle := by
  have own : text.extract front.length (front.length + middle.length) = middle :=
    extract_of_split front back split rfl rfl
  rw [← extract_append_extract text behind (Nat.le_add_right _ middle.length), own]

theorem extract_self {α : Type} (text : List α) (cursor : Nat) :
    text.extract cursor cursor = [] := by
  rw [List.extract_eq_take_drop, Nat.sub_self, List.take_zero]

theorem extract_to_end {α : Type} (text : List α) (cursor : Nat) :
    text.extract cursor text.length = text.drop cursor := by
  rw [List.extract_eq_take_drop]
  exact List.take_of_length_le (Nat.le_of_eq List.length_drop)

/-! ## The span of one loop -/

section OneLoop

variable (start : Nat) (opening : Tag) (variableName : List Char) (parts : LoopParts)

theorem stop_ofParts :
    (LoopSpan.ofParts start opening variableName parts).stop =
      start + (Stretch.loop opening variableName parts).source.length := by
  simp only [LoopSpan.ofParts, Stretch.source_loop, List.length_append]
  omega

/-- The alternative and its else tag stand between the body and the closing tag. -/
theorem length_inner :
    (sourceOf parts.inner).length =
      (sourceOf parts.body).length + (sourceOf parts.alternativePieces).length := by
  rw [LoopParts.inner, sourceOf_append, List.length_append]

theorem isOrdered_ofParts : (LoopSpan.ofParts start opening variableName parts).IsOrdered where
  opening := Nat.le_add_right _ _
  body := Nat.le_add_right _ _
  alternative := by
    intro part isPart
    obtain ⟨⟨middle, pieces⟩, alternative, rfl⟩ := Option.map_eq_some_iff.mp isPart
    have whole := length_inner parts
    rw [LoopParts.alternativePieces, alternative] at whole
    simp only [sourceOf_cons, Piece.source, List.length_append] at whole
    simp only [LoopSpan.ofParts]
    omega
  inner := by
    have whole := length_inner parts
    simp only [LoopSpan.ofParts]
    omega
  closing := Nat.le_add_right _ _

/-- The slices of a loop are the texts of its parts. -/
theorem copies_ofParts {template front back : List Char}
    (split : template = front ++ ((Stretch.loop opening variableName parts).source ++ back))
    (count : Nat) (pickers : Pickers) :
    (LoopSpan.ofParts front.length opening variableName parts).copies template count pickers =
      parts.copies variableName pickers count := by
  have written : template = front ++ (opening.source ++ (sourceOf parts.body ++
      (sourceOf parts.alternativePieces ++ (parts.closing.source ++ back)))) := by
    rw [split, Stretch.source_loop, LoopParts.inner, sourceOf_append]
    simp only [List.append_assoc]
  have body : template.extract (front.length + opening.source.length)
      (front.length + opening.source.length + (sourceOf parts.body).length) =
        sourceOf parts.body := by
    refine extract_of_split (front ++ opening.source)
      (sourceOf parts.alternativePieces ++ (parts.closing.source ++ back)) ?_
      List.length_append.symm rfl
    rw [written, List.append_assoc]
  have alternative : ∀ part ∈ parts.alternative,
      template.extract
        (front.length + opening.source.length + (sourceOf parts.body).length + part.1.source.length)
        (front.length + opening.source.length + (sourceOf parts.inner).length) =
          sourceOf part.2 := by
    rintro ⟨middle, pieces⟩ isPart
    have shape : sourceOf parts.alternativePieces = middle.source ++ sourceOf pieces := by
      rw [LoopParts.alternativePieces, isPart]
      exact sourceOf_cons _ _
    refine extract_of_split (front ++ opening.source ++ sourceOf parts.body ++ middle.source)
      (parts.closing.source ++ back) ?_ ?_ ?_
    · rw [written, shape]
      simp only [List.append_assoc]
    · simp only [List.length_append]
    · rw [length_inner, shape, List.length_append]
      simp only
      omega
  rw [copies_eq_loopCopies, LoopSpan.copies]
  simp only [LoopSpan.ofParts, body, Option.map_map]
  congr 1
  cases isPart : parts.alternative with
  | none => rfl
  | some part => exact congrArg some (alternative part isPart)

end OneLoop

/-! ## The spans of a template -/

/-- The text of a row of stretches. -/
def textOf (row : List Stretch) : List Char :=
  row.flatMap Stretch.source

theorem textOf_cons (stretch : Stretch) (rest : List Stretch) :
    textOf (stretch :: rest) = stretch.source ++ textOf rest :=
  List.flatMap_cons

theorem textOf_stretches (template : List Char) :
    textOf (stretches (pieces template)) = template := by
  have joined := congrArg sourceOf (stretches_sound (pieces template)).1
  rw [sourceOf_pieces, sourceOf, List.flatMap_assoc] at joined
  exact joined

theorem inOrder_spansFrom (offset : Nat) (row : List Stretch) {cursor : Nat}
    (behind : cursor ≤ offset) :
    InOrder (offset + (textOf row).length) cursor (spansFrom offset row) := by
  induction row generalizing offset cursor with
  | nil => exact Nat.le_trans behind (Nat.le_add_right _ _)
  | cons stretch rest inductionHypothesis =>
    have limit : offset + (textOf (stretch :: rest)).length =
        offset + stretch.source.length + (textOf rest).length := by
      rw [textOf_cons, List.length_append, Nat.add_assoc]
    rw [limit]
    cases stretch with
    | plain piece =>
      rw [Stretch.source_plain]
      exact inductionHypothesis _ (Nat.le_trans behind (Nat.le_add_right _ _))
    | loop opening variableName parts =>
      refine ⟨behind, isOrdered_ofParts offset opening variableName parts, ?_⟩
      exact inductionHypothesis _ (Nat.le_of_eq (stop_ofParts offset opening variableName parts))

theorem InOrder.of_le {limit cursor earlier : Nat} {spans : List LoopSpan}
    (ordered : InOrder limit cursor spans) (before : earlier ≤ cursor) :
    InOrder limit earlier spans := by
  cases spans with
  | nil => exact Nat.le_trans before ordered
  | cons span rest => exact ⟨Nat.le_trans before ordered.1, ordered.2⟩

/-- Spans stay in order when some of them are left out. -/
theorem InOrder.filter {limit cursor : Nat} {spans : List LoopSpan} (kept : LoopSpan → Bool)
    (ordered : InOrder limit cursor spans) : InOrder limit cursor (spans.filter kept) := by
  induction spans generalizing cursor with
  | nil => exact ordered
  | cons span rest inductionHypothesis =>
    obtain ⟨before, own, behind⟩ := ordered
    cases isKept : kept span with
    | true =>
      rw [List.filter_cons_of_pos isKept]
      exact ⟨before, own, inductionHypothesis behind⟩
    | false =>
      rw [List.filter_cons_of_neg (by simp [isKept])]
      have passes : cursor ≤ span.stop := by
        have opening := own.opening
        have body := own.body
        have inner := own.inner
        have closing := own.closing
        omega
      exact (inductionHypothesis behind).of_le passes

/-- Replacing the spans of loops that do not iterate writes the result of each stretch after the text
between the cursor and the first stretch. -/
theorem replaceSpans_spansFrom {template front : List Char} {row : List Stretch} {cursor : Nat}
    (split : template = front ++ textOf row) (behind : cursor ≤ front.length) (count : Nat)
    (pickers : Pickers) :
    replaceSpans template (LoopSpan.copies template count pickers) cursor
        ((spansFrom front.length row).filter fun span => !span.iterates) =
      template.extract cursor front.length ++ row.flatMap (Stretch.result count pickers) := by
  induction row generalizing front cursor with
  | nil =>
    have whole : template = front := by
      rw [split]
      exact List.append_nil front
    rw [← whole, extract_to_end]
    exact (List.append_nil _).symm
  | cons stretch rest inductionHypothesis =>
    have shape : template = front ++ (stretch.source ++ textOf rest) := by rw [split, textOf_cons]
    have moved : template = (front ++ stretch.source) ++ textOf rest := by
      rw [shape, List.append_assoc]
    have reach : (front ++ stretch.source).length = front.length + stretch.source.length :=
      List.length_append
    have joined := extract_append_of_split shape behind
    have later {cursor : Nat} (behind : cursor ≤ front.length + stretch.source.length) :=
      inductionHypothesis moved (Nat.le_trans behind (Nat.le_of_eq reach.symm))
    rw [reach] at later
    have passed := later (Nat.le_trans behind (Nat.le_add_right _ _))
    cases stretch with
    | plain piece =>
      rw [Stretch.source_plain] at passed joined
      rw [spansFrom, passed, joined, List.append_assoc]
      rfl
    | loop opening variableName parts =>
      rw [spansFrom, List.flatMap_cons]
      cases iterates : parts.iterates with
      | true =>
        rw [List.filter_cons_of_neg (by simp [LoopSpan.ofParts, iterates]), passed, joined,
          List.append_assoc, Stretch.result, if_pos iterates]
      | false =>
        have replaced := copies_ofParts opening variableName parts shape count pickers
        have after := later (Nat.le_refl _)
        rw [extract_self] at after
        rw [List.filter_cons_of_pos (by simp [LoopSpan.ofParts, iterates]), replaceSpans, replaced,
          stop_ofParts, after, Stretch.result, if_neg (by simp [iterates])]
        rfl

/-- As many spans hold no iteration as there are loops that give way to copies. -/
theorem length_filter_spansFrom (offset : Nat) (row : List Stretch) :
    ((spansFrom offset row).filter fun span => !span.iterates).length =
      row.countP Stretch.isReplaced := by
  induction row generalizing offset with
  | nil => rfl
  | cons stretch rest inductionHypothesis =>
    cases stretch with
    | plain piece =>
      rw [spansFrom, inductionHypothesis, List.countP_cons_of_neg (by simp [Stretch.isReplaced])]
    | loop opening variableName parts =>
      rw [spansFrom]
      cases iterates : parts.iterates with
      | true =>
        rw [List.filter_cons_of_neg (by simp [LoopSpan.ofParts, iterates]), inductionHypothesis,
          List.countP_cons_of_neg (by simp [Stretch.isReplaced, iterates])]
      | false =>
        rw [List.filter_cons_of_pos (by simp [LoopSpan.ofParts, iterates]), List.length_cons,
          inductionHypothesis, List.countP_cons_of_pos (by simp [Stretch.isReplaced, iterates])]

theorem exists_of_mem_spansFrom {offset : Nat} {row : List Stretch} {span : LoopSpan}
    (member : span ∈ spansFrom offset row) :
    ∃ before opening variableName parts after,
      row = before ++ .loop opening variableName parts :: after ∧
        span = .ofParts (offset + (textOf before).length) opening variableName parts := by
  induction row generalizing offset with
  | nil => exact absurd member List.not_mem_nil
  | cons stretch rest inductionHypothesis =>
    have further (inRest : span ∈ spansFrom (offset + stretch.source.length) rest) :
        ∃ before opening variableName parts after,
          stretch :: rest = before ++ .loop opening variableName parts :: after ∧
            span = .ofParts (offset + (textOf before).length) opening variableName parts := by
      obtain ⟨before, opening, variableName, parts, after, split, same⟩ := inductionHypothesis inRest
      refine ⟨stretch :: before, opening, variableName, parts, after, congrArg _ split, ?_⟩
      rw [same, textOf_cons, List.length_append, Nat.add_assoc]
    cases stretch with
    | plain piece =>
      rw [spansFrom, ← Stretch.source_plain] at member
      exact further member
    | loop opening variableName parts =>
      rcases List.mem_cons.mp member with rfl | inRest
      · exact ⟨[], opening, variableName, parts, rest, rfl, rfl⟩
      · exact further inRest

/-- A span of a template covers a loop: from a tag that starts a loop over blocks to the loop's own
end, with `inner` between the two. -/
def LoopSpan.Covers (template : List Char) (span : LoopSpan) (inner : List Piece) : Prop :=
  ∃ before opening closing after,
    pieces template = before ++ .tag opening :: (inner ++ .tag closing :: after) ∧
      opening.blockLoopVariable? = some span.variableName ∧ EndsLoop [] inner closing ∧
      span.start = (sourceOf before).length ∧
      span.stop = span.start + (opening.source ++ (sourceOf inner ++ closing.source)).length

theorem exists_covers_of_mem {template : List Char} {span : LoopSpan}
    (member : span ∈ loopSpans template) :
    ∃ parts : LoopParts, span.Covers template parts.inner ∧ span.iterates = parts.iterates := by
  obtain ⟨before, opening, variableName, parts, after, split, rfl⟩ := exists_of_mem_spansFrom member
  obtain ⟨whole, sound⟩ := stretches_sound (pieces template)
  have loopSound := sound (.loop opening variableName parts) (by rw [split]; simp)
  refine ⟨parts, ⟨before.flatMap Stretch.pieces, opening, parts.closing,
    after.flatMap Stretch.pieces, ?_, loopSound.1, loopSound.2, ?_, ?_⟩, rfl⟩
  · rw [split] at whole
    rw [← whole]
    simp [Stretch.pieces]
  · rw [sourceOf, List.flatMap_assoc]
    exact Nat.zero_add _
  · rw [stop_ofParts, Stretch.source_loop]
    rfl

/-! ## The frame of the unroller -/

/-- A tag that does not iterate is none of the iterating tags, and if it holds lines of its own none
of them starts with one. -/
theorem Tag.not_iterates {tag : Tag} (single : tag.iterates = false) :
    tag.name ∉ iterationTags ∧
      (tag.name = "liquid".toList → ∀ line ∈ Text.lines tag.markup, ∀ word,
        Text.firstWord? line = some word → word ∉ iterationTags) := by
  obtain ⟨other, lines⟩ := Bool.or_eq_false_iff.mp single
  refine ⟨fun member => ?_, fun isLiquid line inMarkup word first member => ?_⟩
  · rw [List.contains_iff_mem.mpr member] at other
    contradiction
  · rw [isLiquid, beq_self_eq_true, Bool.true_and] at lines
    have none := List.any_eq_false.mp lines line inMarkup
    rw [first] at none
    exact none (List.contains_iff_mem.mpr member)

/-- What becomes of a template: its loops without iterations give way to their copies. -/
theorem template_unroll (count : Nat) (pickers : Pickers) (template : List Char) :
    (unroll count pickers template).template =
      replaceSpans template (LoopSpan.copies template count pickers) 0
        ((loopSpans template).filter fun span => !span.iterates) := by
  have unrolled : unroll count pickers template = _ :=
    unrollPieces_eq count pickers (pieces template)
  have split : template = [] ++ textOf (stretches (pieces template)) :=
    (textOf_stretches template).symm
  have whole := replaceSpans_spansFrom split (Nat.le_refl 0) count pickers
  rw [List.length_nil, extract_self, List.nil_append] at whole
  rw [unrolled, loopSpans, whole]

/-- As many loops give way to copies as are counted. -/
theorem unrolled_unroll (count : Nat) (pickers : Pickers) (template : List Char) :
    (unroll count pickers template).unrolled =
      ((loopSpans template).filter fun span => !span.iterates).length := by
  have unrolled : unroll count pickers template = _ :=
    unrollPieces_eq count pickers (pieces template)
  rw [unrolled]
  exact (length_filter_spansFrom 0 (stretches (pieces template))).symm

/-- The unroller replaces the spans of some loops, one after the other, and keeps everything else.
None of these loops holds an iteration, there are as many as it counts, and all slices that it takes
on its way lie in order within the template. -/
theorem unroll_replaces_spans (count : Nat) (pickers : Pickers) (template : List Char) :
    let spans := loopSpans template
    let replaced := spans.filter fun span => !span.iterates
    let result := unroll count pickers template
    InOrder template.length 0 spans ∧ InOrder template.length 0 replaced ∧
      result.template = replaceSpans template (LoopSpan.copies template count pickers) 0 replaced ∧
      result.unrolled = replaced.length ∧
      (result.unrolled = 0 → result.template = template) ∧
      ∀ span ∈ replaced, ∃ inner, span.Covers template inner ∧
        ∀ tag, .tag tag ∈ inner → tag.name ∉ iterationTags ∧
          (tag.name = "liquid".toList → ∀ line ∈ Text.lines tag.markup, ∀ word,
            Text.firstWord? line = some word → word ∉ iterationTags) := by
  intro spans replaced result
  have ordered : InOrder template.length 0 spans := by
    have all := inOrder_spansFrom 0 (stretches (pieces template)) (Nat.le_refl 0)
    rw [textOf_stretches, Nat.zero_add] at all
    exact all
  have spliced := template_unroll count pickers template
  have counted := unrolled_unroll count pickers template
  refine ⟨ordered, ordered.filter _, spliced, counted, fun nothing => ?_, fun span member => ?_⟩
  · have none : replaced = [] := List.eq_nil_of_length_eq_zero (counted.symm.trans nothing)
    exact spliced.trans (congrArg (replaceSpans template _ 0) none)
  · obtain ⟨inSpans, single⟩ := List.mem_filter.mp member
    obtain ⟨parts, covers, same⟩ := exists_covers_of_mem inSpans
    refine ⟨parts.inner, covers, fun tag inside => Tag.not_iterates ?_⟩
    have alone : parts.iterates = false := by simpa [same] using single
    simpa using List.any_eq_false.mp alone (.tag tag) inside

end FlatLiquid
