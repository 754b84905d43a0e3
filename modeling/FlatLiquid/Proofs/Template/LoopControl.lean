import FlatLiquid.Proofs.Template.Matching
import FlatLiquid.Proofs.Template.Rescanning

/-!
Contract: what becomes of the tags that control a loop when the loop gives way to copies.

Owns:
- the tags of loop control, and those that a loop over blocks holds;
- the tags of the copies of a loop: its loop control once for each copy, and no loop;
- the tags of an unrolled template, stretch by stretch.

The decision to unroll a loop looks at iterations only. So the copies of a loop strand its loop
control, which stops or skips the loop around the copies, or the whole template.
-/

namespace FlatLiquid

/-! ## The tags of copies -/

/-- Tags that end or skip a turn of the loop around them. -/
def loopControlTags : List (List Char) :=
  ["break", "continue"].map String.toList

/-- The names of the tags of loop control among the pieces. -/
def loopControls (written : List Piece) : List (List Char) :=
  namesAmong loopControlTags written

theorem areKept_loopControlTags {variableName : List Char}
    (own : variableName ∉ regionNames ++ loopControlTags) :
    AreKept (regionNames ++ loopControlTags) variableName :=
  ⟨List.subset_append_left _ _, by decide, by decide, own⟩

theorem loopControls_guarded {test text : List Char} (undelimited : '%' ∉ test)
    (settled : IsSettled text) :
    loopControls (pieces (guarded test text)) = loopControls (pieces text) := by
  obtain ⟨opening, closing, isTest, isEnd, -, read⟩ := exists_tags_of_guarded undelimited settled
  have own := read []
  have nothing : pieces [] = [] := rfl
  rw [List.append_nil, nothing] at own
  rw [loopControls, own, namesAmong_tag, namesAmong_append, namesAmong_tag, isTest, isEnd]
  exact List.append_nil _

theorem loopControls_intercalate {texts : List (List Char)}
    (each : ∀ text ∈ texts, IsStandalone text) :
    loopControls (pieces (List.intercalate ['\n'] texts)) =
      texts.flatMap fun text => loopControls (pieces text) := by
  induction texts with
  | nil => rfl
  | cons text rest inductionHypothesis =>
    have later := inductionHypothesis fun other member => each other (List.mem_cons_of_mem text member)
    have own := each text List.mem_cons_self
    cases rest with
    | nil => simp
    | cons next others =>
      rw [List.intercalate_cons_cons, (own.append isStandalone_lineEnd).pieces_append.2,
        own.pieces_append.2, List.flatMap_cons, ← later, loopControls, namesAmong_append,
        namesAmong_append]
      exact congrArg (· ++ _) (List.append_nil _)

/-- The copies of a loop hold its loop control: that of the body once for each copy, and behind it
that of the alternative. -/
theorem loopControls_copies {text variableName : List Char} {parts : LoopParts} {tag : Tag}
    (split : pieces text = parts.inner ++ .tag parts.closing :: parts.after)
    (otherwise : ∀ other ∈ parts.alternative, other.1.name = "else".toList)
    (single : parts.iterates = false) (loop : tag.blockLoopVariable? = some variableName)
    (own : variableName ∉ regionNames ++ loopControlTags) (pickers : Pickers) (count : Nat) :
    loopControls (pieces (parts.copies variableName pickers count)) =
      (List.replicate count (loopControls parts.body)).flatten ++
        loopControls parts.alternativePieces := by
  obtain ⟨named, isWord⟩ := Tag.word_of_blockLoopVariable? loop
  obtain ⟨⟨settledBody, bodyPieces⟩, settledOther⟩ := settled_of_parts split
  have ownRegion : variableName ∉ regionNames := mt (List.mem_append_left _) own
  have copy (index : Nat) :
      loopControls (pieces (guardedCopy variableName pickers (sourceOf parts.body) index)) =
        loopControls parts.body := by
    obtain ⟨settledCopy, -, keptCopy⟩ :=
      settledBody.copyFor (areKept_loopControlTags own) named (List.all_eq_true.mp isWord)
    rw [guardedCopy, loopControls_guarded (not_mem_countTest index) settledCopy, loopControls,
      keptCopy loopControlTags (List.subset_append_right _ _), bodyPieces]
    rfl
  have other : (parts.alternative.toList.map fun other =>
      guarded " == 0".toList (sourceOf other.2)).flatMap (fun text => loopControls (pieces text)) =
        loopControls parts.alternativePieces := by
    cases alternative : parts.alternative with
    | none => rw [LoopParts.alternativePieces, alternative]; rfl
    | some other =>
      obtain ⟨settled, otherPieces⟩ := settledOther other alternative
      have isElse := otherwise other alternative
      rw [LoopParts.alternativePieces, alternative, Option.toList_some, List.map_singleton,
        List.flatMap_singleton, loopControls_guarded (by decide) settled, otherPieces, loopControls,
        loopControls, namesAmong_tag, isElse]
      rfl
  rw [LoopParts.copies, loopControls_intercalate
    (isStandalone_of_mem_copies split single loop ownRegion pickers count),
    List.flatMap_append, List.flatMap_map, other]
  simp only [copy]
  rw [List.flatMap_def, List.map_const', List.length_range]

/-! ## The tags of an unrolled template -/

/-- The pieces that are read where a stretch stood. -/
def Stretch.unrolled (count : Nat) (pickers : Pickers) : Stretch → List Piece
  | .plain piece => [piece]
  | .loop opening variableName parts =>
    if parts.iterates then (Stretch.loop opening variableName parts).pieces
    else FlatLiquid.pieces (parts.copies variableName pickers count)

/-- A loop among the stretches is a loop with an end among the pieces. -/
theorem exists_split_of_mem_stretches {written : List Piece} {opening : Tag}
    {variableName : List Char} {parts : LoopParts}
    (member : .loop opening variableName parts ∈ stretches written) :
    ∃ before after, written = before ++ .tag opening :: after ∧
      opening.blockLoopVariable? = some variableName ∧ LoopParts.find? [] after = some parts := by
  have behind (front : List Piece) {written : List Piece}
      (later : ∃ before after, written = before ++ .tag opening :: after ∧
        opening.blockLoopVariable? = some variableName ∧ LoopParts.find? [] after = some parts) :
      ∃ before after, front ++ written = before ++ .tag opening :: after ∧
        opening.blockLoopVariable? = some variableName ∧
          LoopParts.find? [] after = some parts := by
    obtain ⟨before, after, rfl, loop, found⟩ := later
    exact ⟨front ++ before, after, (List.append_assoc _ _ _).symm, loop, found⟩
  fun_induction stretches written with
  | case1 => contradiction
  | case2 c rest inductionHypothesis =>
    have later := (List.mem_cons.mp member).resolve_left Stretch.noConfusion
    exact behind [.char c] (inductionHypothesis later)
  | case3 tag rest _ inductionHypothesis =>
    have later := (List.mem_cons.mp member).resolve_left Stretch.noConfusion
    exact behind [.tag tag] (inductionHypothesis later)
  | case4 tag rest _ _ _ =>
    obtain ⟨piece, -, same⟩ := List.mem_map.mp member
    contradiction
  | case5 tag rest other loop first found _ inductionHypothesis =>
    rcases List.mem_cons.mp member with same | later
    · obtain ⟨rfl, rfl, rfl⟩ := Stretch.loop.inj same
      exact ⟨[], rest, rfl, loop, found⟩
    · obtain ⟨split, -⟩ := LoopParts.endsLoop_of_find? found
      rw [split]
      have whole : .tag tag :: (first.inner ++ .tag first.closing :: first.after) =
          (.tag tag :: (first.inner ++ [.tag first.closing])) ++ first.after := by simp
      rw [whole]
      exact behind _ (inductionHypothesis later)

theorem stretches_append_of_holdsNoBlockLoop {front : List Piece} (free : HoldsNoBlockLoop front)
    (rest : List Piece) : stretches (front ++ rest) = front.map .plain ++ stretches rest := by
  induction front with
  | nil => rfl
  | cons piece more inductionHypothesis =>
    have later := inductionHypothesis fun tag member => free tag (List.mem_cons_of_mem piece member)
    cases piece with
    | char c => rw [List.cons_append, stretches, later]; rfl
    | tag tag =>
      rw [List.cons_append, stretches_tag (free tag List.mem_cons_self), later]
      rfl

theorem flatMap_unrolled_map_plain (count : Nat) (pickers : Pickers) (written : List Piece) :
    (written.map Stretch.plain).flatMap (Stretch.unrolled count pickers) = written := by
  rw [List.flatMap_map]
  exact List.flatMap_singleton' written

/-- An unrolled template is read stretch by stretch. No loop's variable is named as a tag of a verbatim
region. -/
theorem pieces_unroll {template : List Char} {count : Nat} (positive : 0 < count)
    (own : ∀ tag variableName, .tag tag ∈ pieces template →
      tag.blockLoopVariable? = some variableName → variableName ∉ regionNames)
    (pickers : Pickers) :
    pieces (unroll count pickers template).template =
      (stretches (pieces template)).flatMap (Stretch.unrolled count pickers) := by
  induction template using firstLoop_induction with
  | free template free =>
    have plain := stretches_append_of_holdsNoBlockLoop free []
    rw [List.append_nil, stretches, List.append_nil] at plain
    rw [unroll_of_holdsNoBlockLoop free, plain, flatMap_unrolled_map_plain]
  | endless template before tag after variableName split free loop endless =>
    rw [unroll_endless split free loop endless, split, stretches_append_of_holdsNoBlockLoop free,
      stretches_endless loop endless, ← List.map_append, flatMap_unrolled_map_plain]
  | ended template before tag variableName parts split free loop found inductionHypothesis =>
    have around := isSplitAt_of_pieces split
    have inside := isSplitAt_of_pieces around.after_eq
    have ownAfter : ∀ other, .tag other ∈ pieces (sourceOf parts.after) → ∀ name,
        other.blockLoopVariable? = some name → name ∉ regionNames :=
      forall_tag_of_ended split fun other member name => own other name member
    have later := inductionHypothesis fun other name member => ownAfter other member name
    rw [inside.after_eq] at later
    rw [split, stretches_append_of_holdsNoBlockLoop free, stretches_ended loop found,
      List.flatMap_append, flatMap_unrolled_map_plain, List.flatMap_cons, ← later]
    cases iterates : parts.iterates with
    | true =>
      have first := unroll_iterating around free loop found iterates count pickers
        (sourceOf parts.after)
      simp only [List.append_assoc, Unrolled.push] at first
      rw [eq_append_of_ended split, first]
      simp only
      rw [around.pieces_append, inside.pieces_append, Stretch.unrolled, if_pos iterates]
      simp [Stretch.pieces]
    | false =>
      have ownName : variableName ∉ regionNames := own tag variableName (by rw [split]; simp) loop
      have first := unroll_replaced split free loop found iterates count pickers
      have standalone := isStandalone_copies around.after_eq iterates loop ownName pickers count
      simp only [Unrolled.push] at first
      rw [first]
      simp only
      -- the copies start with a tag, and what follows them is read on its own
      rw [List.append_assoc, around.settled.pieces_append
        (head?_copies positive variableName pickers _), around.before_eq,
        standalone.pieces_append.2, Stretch.unrolled, iterates]
      simp

/-! ## Stranded loop control -/

/-- The pieces that stand in a loop. -/
def Stretch.inner : Stretch → List Piece
  | .plain _ => []
  | .loop _ _ parts => parts.inner

/-- A loop gives way to copies exactly if no tag in it starts an iteration. -/
theorem Stretch.isReplaced_iff {opening : Tag} {variableName : List Char} {parts : LoopParts} :
    (Stretch.loop opening variableName parts).isReplaced = true ↔
      ¬ ∃ tag, .tag tag ∈ parts.inner ∧ tag.StartsIteration := by
  rw [← parts.iterates_iff, isReplaced, Bool.not_eq_true', Bool.not_eq_true]

/-- The unroller spares loop control exactly as far as an iteration in the same loop keeps it from
unrolling: it replaces no loop with loop control if and only if each such loop also holds an iteration.
Otherwise the loop is gone and its loop control is not. Of the unrolled template, the part that takes
the place of a loop holds no loop, but the loop control of the body once for each copy, and that of the
alternative. The second part asks that no loop's variable is named as a tag of a verbatim region or of
loop control, because the passes over a body may rename such a tag. -/
theorem unroll_strands_iff (count : Nat) (pickers : Pickers) (template : List Char) :
    let row := stretches (pieces template)
    ((∀ loop ∈ row, loop.isReplaced = true → loopControls loop.inner = []) ↔
      ∀ loop ∈ row, loopControls loop.inner ≠ [] →
        ∃ tag, .tag tag ∈ loop.inner ∧ tag.StartsIteration) ∧
    (0 < count →
      (∀ tag variableName, .tag tag ∈ pieces template →
        tag.blockLoopVariable? = some variableName →
        variableName ∉ regionNames ++ loopControlTags) →
      pieces (unroll count pickers template).template =
        row.flatMap (Stretch.unrolled count pickers) ∧
      ∀ opening variableName parts, .loop opening variableName parts ∈ row →
        (Stretch.loop opening variableName parts).isReplaced = true →
        let copies := (Stretch.loop opening variableName parts).unrolled count pickers
        IsLoopless copies ∧
          loopControls copies = (List.replicate count (loopControls parts.body)).flatten ++
            loopControls parts.alternativePieces) := by
  intro row
  constructor
  · apply forall₂_congr
    rintro (piece | ⟨opening, variableName, parts⟩) member
    · exact iff_of_true (fun replaced => absurd replaced (by simp [Stretch.isReplaced]))
        fun control => absurd rfl control
    · rw [Stretch.isReplaced_iff, ← not_imp_not, not_not]
      rfl
  · intro positive own
    have ownRegion (tag : Tag) (variableName : List Char) (member : .tag tag ∈ pieces template)
        (loop : tag.blockLoopVariable? = some variableName) : variableName ∉ regionNames :=
      mt (List.mem_append_left _) (own tag variableName member loop)
    refine ⟨pieces_unroll positive ownRegion pickers, ?_⟩
    intro opening variableName parts member replaced copies
    obtain ⟨before, after, split, loop, found⟩ := exists_split_of_mem_stretches member
    obtain ⟨rfl, -⟩ := LoopParts.endsLoop_of_find? found
    have single : parts.iterates = false := by simpa [Stretch.isReplaced] using replaced
    have isCopies : copies = pieces (parts.copies variableName pickers count) := by
      simp only [copies, Stretch.unrolled, single, Bool.false_eq_true, if_false]
    have around := isSplitAt_of_pieces split
    have inPieces : .tag opening ∈ pieces template := by
      rw [split]
      simp
    rw [isCopies]
    constructor
    · have ownName := ownRegion opening variableName inPieces loop
      exact (isStandalone_copies around.after_eq single loop ownName pickers count).pieces_append.1
    · exact loopControls_copies around.after_eq (LoopParts.otherwise_of_find? found) single loop
        (own opening variableName inPieces loop) pickers count

/-- A loop that stops in its first turn, and skips if there is no block at all. Its two copies strand
two stops, and the text for no blocks strands a skip. -/
theorem unroll_strands_iff_of_break_else_continue :
    let opening : Tag := ⟨"for".toList, " b in section.blocks ".toList,
      "\x7b% for b in section.blocks %\x7d".toList⟩
    let parts : LoopParts := ⟨[.tag (bareTag "break".toList)],
      some (bareTag "else".toList, [.tag (bareTag "continue".toList)]), bareTag "endfor".toList, []⟩
    let loop := Stretch.loop opening "b".toList parts
    let template := loop.source
    let copies := loop.unrolled 2 .empty
    stretches (pieces template) = [loop] ∧ loop.isReplaced = true ∧
      pieces (unroll 2 .empty template).template = copies ∧ IsLoopless copies ∧
        loopControls copies = ["break".toList, "break".toList, "continue".toList] := by
  intro opening parts loop template copies
  have read : pieces template = .tag opening ::
      ["break", "else", "continue", "endfor"].map fun name => .tag (bareTag name.toList) := by rfl
  have isLoop : opening.blockLoopVariable? = some "b".toList := by decide +kernel
  have found : LoopParts.find? []
      (["break", "else", "continue", "endfor"].map fun name => .tag (bareTag name.toList)) =
        some parts := by rfl
  have row : stretches (pieces template) = [loop] := by
    have nothing : stretches parts.after = [] := by simp only [parts, stretches]
    rw [read, stretches_ended isLoop found, nothing]
  have plain : ∀ name ∈ ["break", "else", "continue", "endfor"],
      (bareTag name.toList).blockLoopVariable? = none := by decide +kernel
  have own : ∀ tag variableName, .tag tag ∈ pieces template →
      tag.blockLoopVariable? = some variableName →
        variableName ∉ regionNames ++ loopControlTags := by
    intro tag variableName member isOther
    rw [read] at member
    rcases List.mem_cons.mp member with same | member
    · obtain rfl := Piece.tag.inj same
      obtain rfl := Option.some.inj (isLoop.symm.trans isOther)
      decide
    · obtain ⟨name, among, same⟩ := List.mem_map.mp member
      obtain rfl := Piece.tag.inj same
      rw [plain name among] at isOther
      contradiction
  have replaced : loop.isReplaced = true := by decide +kernel
  obtain ⟨output, stranded⟩ := (unroll_strands_iff 2 .empty template).2 (by decide) own
  obtain ⟨loopless, controls⟩ := stranded opening "b".toList parts (by simp [row, loop]) replaced
  refine ⟨row, replaced, ?_, loopless, controls⟩
  rw [output, row, List.flatMap_singleton]

/-- A loop that stops in its first turn gives way to a copy that stops what is around it. -/
theorem unroll_of_break :
    let template := "\x7b% for b in section.blocks %\x7d\x7b% break %\x7d\x7b% endfor %\x7d".toList
    let unrolled := "\x7b% if blocks_count > 0 %\x7d\x7b% break %\x7d\x7b% endif %\x7d".toList
    (unroll 1 .empty template).template = unrolled ∧ (unroll 1 .empty template).unrolled = 1 ∧
      IsLoopless (pieces unrolled) ∧ loopControls (pieces unrolled) = ["break".toList] := by
  intro template unrolled
  let condition : Tag := ⟨"if".toList, " blocks_count > 0 ".toList,
    "\x7b% if blocks_count > 0 %\x7d".toList⟩
  have read : pieces unrolled =
      [.tag condition, .tag (bareTag "break".toList), .tag (bareTag "endif".toList)] := rfl
  refine ⟨by decide +kernel, by decide +kernel, ?_, by rw [read]; rfl⟩
  rw [read, isLoopless_tag_iff, isLoopless_tag_iff, isLoopless_tag_iff]
  exact ⟨by decide, by decide, by decide, isLoopless_nil⟩

end FlatLiquid
