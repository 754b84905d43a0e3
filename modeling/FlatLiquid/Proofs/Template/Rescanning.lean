import FlatLiquid.Proofs.Template.LoopShape
import FlatLiquid.Proofs.Template.Settled
import FlatLiquid.Proofs.Template.Stretches

/-!
Contract: what the unroller writes is left as it is by a second run.

Owns:
- the stretch of a template before its first loop over blocks;
- the copies of a loop as a text that is read on its own and holds no loop;
- the second run over a template, loop by loop.

A loop that iterates, or that has no end, is the same loop for the second run. The copies of the others
hold no loop at all, because their body held none and the passes over it make none.
-/

namespace FlatLiquid

open Text (isWordChar)

/-! ## The first loop of a template -/

/-- No tag among the pieces starts a loop over blocks. -/
def HoldsNoBlockLoop (written : List Piece) : Prop :=
  ∀ tag, .tag tag ∈ written → tag.blockLoopVariable? = none

theorem IsLoopless.holdsNoBlockLoop {written : List Piece} (loopless : IsLoopless written) :
    HoldsNoBlockLoop written := by
  intro tag member
  refine if_neg fun named => loopless tag member ?_
  rw [named]
  decide

/-- Pieces without a loop over blocks are kept in front of what becomes of the rest. -/
theorem unrollPieces_append_of_holdsNoBlockLoop {front : List Piece} (free : HoldsNoBlockLoop front)
    (count : Nat) (pickers : Pickers) (rest : List Piece) :
    unrollPieces count pickers (front ++ rest) =
      (unrollPieces count pickers rest).push (sourceOf front) := by
  induction front with
  | nil => rfl
  | cons piece more inductionHypothesis =>
    have later := inductionHypothesis fun tag member => free tag (List.mem_cons_of_mem piece member)
    cases piece with
    | char c =>
      rw [List.cons_append, unrollPieces, later, sourceOf_cons]
      rfl
    | tag tag =>
      have plain : tag.blockLoopVariable? = none := free tag List.mem_cons_self
      rw [List.cons_append, unrollPieces_tag count pickers plain, later, sourceOf_cons]
      simp [Unrolled.push, Piece.source]

/-- Pieces hold no loop over blocks, or they fall apart at the first tag that starts one. -/
theorem exists_first_blockLoop (written : List Piece) :
    HoldsNoBlockLoop written ∨ ∃ before tag after variableName,
      written = before ++ .tag tag :: after ∧ HoldsNoBlockLoop before ∧
        tag.blockLoopVariable? = some variableName := by
  induction written with
  | nil => exact .inl fun tag member => absurd member List.not_mem_nil
  | cons piece rest inductionHypothesis =>
    have pushed {before : List Piece} (free : HoldsNoBlockLoop before)
        (plain : ∀ tag, piece = .tag tag → tag.blockLoopVariable? = none) :
        HoldsNoBlockLoop (piece :: before) := fun tag member =>
      (List.mem_cons.mp member).elim (fun same => plain tag same.symm) (free tag)
    by_cases plain : ∀ tag, piece = .tag tag → tag.blockLoopVariable? = none
    · rcases inductionHypothesis with free | ⟨before, tag, after, variableName, rfl, free, loop⟩
      · exact .inl (pushed free plain)
      · exact .inr ⟨piece :: before, tag, after, variableName, rfl, pushed free plain, loop⟩
    · obtain ⟨tag, others⟩ := not_forall.mp plain
      obtain ⟨rfl, starts⟩ := Classical.not_imp.mp others
      obtain ⟨variableName, loop⟩ := Option.ne_none_iff_exists'.mp starts
      exact .inr ⟨[], tag, rest, variableName, rfl, fun _ member => absurd member List.not_mem_nil,
        loop⟩

/-- The parts of a loop are found again in front of anything else. -/
theorem LoopParts.find?_inner {stack : List (List Char)} {written : List Piece} {parts : LoopParts}
    (found : find? stack written = some parts) (other : List Piece) :
    find? stack (parts.inner ++ .tag parts.closing :: other) = some { parts with after := other } := by
  replace found := found_of_find? found
  induction found with
  | closes step _ => simp [inner, alternativePieces, find?, step]
  | @char stack rest later c _ inductionHypothesis =>
    have again : find? stack (.char c :: (later.inner ++ .tag later.closing :: other)) =
        some { push (.char c) later with after := other } := by
      rw [find?, inductionHypothesis]
      rfl
    exact again
  | @otherwise stack tag rest later step _ inductionHypothesis =>
    have pushed : pushElse tag { later with after := other } =
        ⟨(pushElse tag later).body, (pushElse tag later).alternative, later.closing, other⟩ := by
      obtain ⟨body, alternative, closing, after⟩ := later
      cases alternative <;> rfl
    rw [inner_pushElse, closing_pushElse, List.cons_append, find?, step]
    simp only
    rw [inductionHypothesis, Option.map_some, pushed]
  | @inside stack next tag rest later step _ inductionHypothesis =>
    have again : find? stack (.tag tag :: (later.inner ++ .tag later.closing :: other)) =
        some { push (.tag tag) later with after := other } := by
      rw [find?, step]
      simp only
      rw [inductionHypothesis]
      rfl
    exact again

/-! ## The copies of a loop -/

/-- A text that is read on its own, whatever follows it, and holds no loop. -/
def IsStandalone (text : List Char) : Prop :=
  ∃ written, sourceOf written = text ∧ IsLoopless written ∧
    ∀ more, pieces (text ++ more) = written ++ pieces more

theorem isStandalone_nil : IsStandalone [] :=
  ⟨[], rfl, isLoopless_nil, fun _ => rfl⟩

theorem IsStandalone.append {first second : List Char} (front : IsStandalone first)
    (back : IsStandalone second) : IsStandalone (first ++ second) := by
  obtain ⟨before, rfl, looplessBefore, readBefore⟩ := front
  obtain ⟨after, rfl, looplessAfter, readAfter⟩ := back
  refine ⟨before ++ after, sourceOf_append before after,
    isLoopless_append_iff.mpr ⟨looplessBefore, looplessAfter⟩, fun more => ?_⟩
  rw [List.append_assoc, readBefore, readAfter, List.append_assoc]

/-- A text that is read on its own holds no loop, and keeps its pieces in front of any other. -/
theorem IsStandalone.pieces_append {text : List Char} (standalone : IsStandalone text) :
    IsLoopless (pieces text) ∧ ∀ more, pieces (text ++ more) = pieces text ++ pieces more := by
  obtain ⟨written, rfl, loopless, read⟩ := standalone
  have own := read []
  have nothing : pieces [] = [] := rfl
  rw [List.append_nil, nothing, List.append_nil] at own
  rw [own]
  exact ⟨loopless, read⟩

theorem isStandalone_lineEnd : IsStandalone ['\n'] := by
  refine ⟨[.char '\n'], rfl, isLoopless_map_char ['\n'], fun more => ?_⟩
  rw [pieces, List.singleton_append, piecesFrom_char (tag?_of_ne (by decide) more), hideVerbatim]
  rfl

/-- A settled text behind a test is read as the tag of the test, the pieces of the text and the tag that
ends the test. -/
theorem exists_tags_of_guarded {test text : List Char} (undelimited : '%' ∉ test)
    (settled : IsSettled text) :
    ∃ opening closing : Tag, opening.name = "if".toList ∧ closing.name = "endif".toList ∧
      guarded test text = opening.source ++ (text ++ closing.source) ∧
      ∀ more, pieces (guarded test text ++ more) =
        .tag opening :: (pieces text ++ .tag closing :: pieces more) := by
  let opening : Tag := ⟨"if".toList, ' ' :: (blockCountName ++ test) ++ [' '],
    tagText ("if ".toList ++ blockCountName ++ test)⟩
  have readOpening (more : List Char) : tag? (opening.source ++ more) = some (opening, more) := by
    apply tag?_tagText "if".toList (' ' :: (blockCountName ++ test)) (by decide) (by decide)
    · rintro c ⟨⟩
      decide
    · have inName : '%' ∉ blockCountName := by decide
      rw [List.mem_cons, List.mem_append, not_or, not_or]
      exact ⟨by decide, inName, undelimited⟩
  let closing : Tag := bareTag "endif".toList
  have readClosing (more : List Char) : tag? (closing.source ++ more) = some (closing, more) :=
    tag?_bareTag (by decide) (by decide) more
  have whole : guarded test text = opening.source ++ (text ++ closing.source) := by
    rw [guarded, List.append_assoc]
    rfl
  refine ⟨opening, closing, rfl, rfl, whole, fun more => ?_⟩
  rw [whole, List.append_assoc, List.append_assoc,
    pieces_tag (source_ne_nil_of_tag? (readOpening [])) (readOpening _) rfl,
    settled.pieces_append (head?_of_tag? (readClosing more)),
    pieces_tag (source_ne_nil_of_tag? (readClosing more)) (readClosing more) rfl]

/-- A settled text behind a test is read on its own. -/
theorem isStandalone_guarded {test text : List Char} (undelimited : '%' ∉ test)
    (settled : IsSettled text) (loopless : IsLoopless (pieces text)) :
    IsStandalone (guarded test text) := by
  obtain ⟨opening, closing, isTest, isEnd, whole, read⟩ := exists_tags_of_guarded undelimited settled
  refine ⟨.tag opening :: (pieces text ++ [.tag closing]), ?_, ?_, fun more => ?_⟩
  · rw [whole, sourceOf_cons, sourceOf_append, sourceOf_pieces]
    exact congrArg (fun last => opening.source ++ (text ++ last)) (List.append_nil _)
  · rw [isLoopless_tag_iff, isLoopless_append_iff, isLoopless_tag_iff, isTest, isEnd]
    exact ⟨by decide, loopless, by decide, isLoopless_nil⟩
  · rw [read, List.cons_append, List.append_assoc]
    rfl

theorem isStandalone_intercalate {texts : List (List Char)}
    (each : ∀ text ∈ texts, IsStandalone text) : IsStandalone (List.intercalate ['\n'] texts) := by
  induction texts with
  | nil => exact isStandalone_nil
  | cons text rest inductionHypothesis =>
    have later := inductionHypothesis fun other member => each other (List.mem_cons_of_mem text member)
    have own := each text List.mem_cons_self
    cases rest with
    | nil => simpa using own
    | cons next others =>
      rw [List.intercalate_cons_cons]
      exact (own.append isStandalone_lineEnd).append later

theorem isLoopless_of_iterates {parts : LoopParts} (single : parts.iterates = false) :
    IsLoopless parts.inner := by
  intro tag member named
  have iterates : tag.iterates = true := by
    rw [Tag.iterates, List.contains_iff_mem.mpr named, Bool.true_or]
  have some := List.any_eq_false.mp single (.tag tag) member
  exact some iterates

/-- What is repeated in a loop, and what follows its else tag, are settled texts with pieces of their
own. -/
theorem settled_of_parts {text : List Char} {parts : LoopParts}
    (split : pieces text = parts.inner ++ .tag parts.closing :: parts.after) :
    (IsSettled (sourceOf parts.body) ∧ pieces (sourceOf parts.body) = parts.body) ∧
      ∀ part ∈ parts.alternative, IsSettled (sourceOf part.2) ∧ pieces (sourceOf part.2) = part.2 := by
  cases alternative : parts.alternative with
  | none =>
    have inner : parts.inner = parts.body := by
      rw [LoopParts.inner, LoopParts.alternativePieces, alternative, List.append_nil]
    rw [inner] at split
    have around := isSplitAt_of_pieces split
    exact ⟨⟨around.settled, around.before_eq⟩, fun part isPart => absurd isPart (by simp)⟩
  | some part =>
    have inner : parts.inner = parts.body ++ .tag part.1 :: part.2 := by
      rw [LoopParts.inner, LoopParts.alternativePieces, alternative]
    rw [inner, List.append_assoc] at split
    have around := isSplitAt_of_pieces split
    have behind := isSplitAt_of_pieces around.after_eq
    refine ⟨⟨around.settled, around.before_eq⟩, fun other isPart => ?_⟩
    obtain rfl := Option.some.inj isPart
    exact ⟨behind.settled, behind.before_eq⟩

theorem not_mem_countTest (index : Nat) : '%' ∉ " > ".toList ++ Nat.toDigits 10 index := by
  have inSign : '%' ∉ " > ".toList := by decide
  rw [List.mem_append, not_or]
  exact ⟨inSign, not_mem_of_isWordChar (fun c digit => isWordChar_of_mem_toDigits digit) (by decide)⟩

/-- Each copy of a loop that does not iterate is read on its own and holds no loop, and so is its
alternative. -/
theorem isStandalone_of_mem_copies {text variableName : List Char} {parts : LoopParts} {tag : Tag}
    (split : pieces text = parts.inner ++ .tag parts.closing :: parts.after)
    (single : parts.iterates = false) (loop : tag.blockLoopVariable? = some variableName)
    (own : variableName ∉ regionNames) (pickers : Pickers) (count : Nat) :
    ∀ part ∈ (List.range count).map (guardedCopy variableName pickers (sourceOf parts.body)) ++
      parts.alternative.toList.map (fun other => guarded " == 0".toList (sourceOf other.2)),
      IsStandalone part := by
  obtain ⟨named, isWord⟩ := Tag.word_of_blockLoopVariable? loop
  obtain ⟨⟨settledBody, bodyPieces⟩, settledOther⟩ := settled_of_parts split
  have loopless := isLoopless_of_iterates single
  rw [LoopParts.inner, isLoopless_append_iff] at loopless
  intro part member
  rcases List.mem_append.mp member with isCopy | isOther
  · obtain ⟨index, -, rfl⟩ := List.mem_map.mp isCopy
    obtain ⟨settledCopy, looplessCopy, -⟩ :=
      settledBody.copyFor (areKept_regionNames own) named (List.all_eq_true.mp isWord)
    apply isStandalone_guarded (not_mem_countTest index) settledCopy
    exact looplessCopy (bodyPieces.symm ▸ loopless.1)
  · obtain ⟨other, isPart, rfl⟩ := List.mem_map.mp isOther
    have alternative : parts.alternative = some other := by simpa using isPart
    obtain ⟨settled, otherPieces⟩ := settledOther other alternative
    apply isStandalone_guarded (by decide) settled
    rw [otherPieces]
    rw [LoopParts.alternativePieces, alternative] at loopless
    exact (isLoopless_tag_iff.mp loopless.2).2

/-- The copies of a loop that does not iterate are read on their own and hold no loop. -/
theorem isStandalone_copies {text variableName : List Char} {parts : LoopParts} {tag : Tag}
    (split : pieces text = parts.inner ++ .tag parts.closing :: parts.after)
    (single : parts.iterates = false) (loop : tag.blockLoopVariable? = some variableName)
    (own : variableName ∉ regionNames) (pickers : Pickers) (count : Nat) :
    IsStandalone (parts.copies variableName pickers count) :=
  isStandalone_intercalate (isStandalone_of_mem_copies split single loop own pickers count)

theorem head?_copies {parts : LoopParts} {count : Nat} (positive : 0 < count)
    (variableName : List Char) (pickers : Pickers) (more : List Char) :
    ∀ c ∈ (parts.copies variableName pickers count ++ more).head?, c = '\x7b' := by
  obtain ⟨others, rfl⟩ := Nat.exists_eq_succ_of_ne_zero (Nat.ne_of_gt positive)
  have first (copy : List Char) (copies : List (List Char)) :
      ∃ rest, List.intercalate ['\n'] (copy :: copies) = copy ++ rest := by
    cases copies with
    | nil => exact ⟨[], by rw [List.intercalate_singleton, List.append_nil]⟩
    | cons next others => exact ⟨_, by rw [List.intercalate_cons_cons, List.append_assoc]⟩
  rw [LoopParts.copies, List.range_succ_eq_map, List.map_cons, List.cons_append]
  obtain ⟨rest, split⟩ := first (guardedCopy variableName pickers (sourceOf parts.body) 0) _
  rw [split]
  rintro c ⟨⟩
  rfl

/-! ## Two runs -/

section Runs

variable {before : List Piece} {tag : Tag} {variableName : List Char} {parts : LoopParts}

/-- A loop that iterates is left alone, whatever follows it. -/
theorem unroll_iterating
    (around : IsSplitAt before tag (parts.inner ++ .tag parts.closing :: parts.after))
    (free : HoldsNoBlockLoop before) (loop : tag.blockLoopVariable? = some variableName)
    (found : LoopParts.find? [] (parts.inner ++ .tag parts.closing :: parts.after) = some parts)
    (iterates : parts.iterates = true) (count : Nat) (pickers : Pickers) (more : List Char) :
    let text := sourceOf before ++ (tag.source ++ (sourceOf parts.inner ++ parts.closing.source))
    unroll count pickers (text ++ more) =
      { (unroll count pickers more).push text with
        nested := (unroll count pickers more).nested + 1 } := by
  intro text
  have inside := isSplitAt_of_pieces around.after_eq
  have split : pieces (text ++ more) =
      before ++ .tag tag :: (parts.inner ++ .tag parts.closing :: pieces more) := by
    rw [← inside.pieces_append more, ← around.pieces_append]
    simp only [text, List.append_assoc]
  have again := LoopParts.find?_inner found (pieces more)
  rw [unroll, split, unrollPieces_append_of_holdsNoBlockLoop free,
    unrollPieces_ended count pickers loop again]
  have stillIterates : LoopParts.iterates { parts with after := pieces more } = true := iterates
  simp only [stillIterates, if_true]
  simp [Unrolled.push, unroll, text, LoopParts.inner, LoopParts.alternativePieces]

/-- A loop that does not iterate gives way to its copies. -/
theorem unroll_replaced {template : List Char}
    (split : pieces template = before ++ .tag tag :: (parts.inner ++ .tag parts.closing :: parts.after))
    (free : HoldsNoBlockLoop before) (loop : tag.blockLoopVariable? = some variableName)
    (found : LoopParts.find? [] (parts.inner ++ .tag parts.closing :: parts.after) = some parts)
    (single : parts.iterates = false) (count : Nat) (pickers : Pickers) :
    let rest := unroll count pickers (sourceOf parts.after)
    unroll count pickers template =
      { rest.push (sourceOf before ++ parts.copies variableName pickers count) with
        unrolled := rest.unrolled + 1 } := by
  have inside := isSplitAt_of_pieces (isSplitAt_of_pieces split).after_eq
  intro rest
  rw [unroll, split, unrollPieces_append_of_holdsNoBlockLoop free,
    unrollPieces_loop count pickers loop found single]
  simp [rest, Unrolled.push, unroll, inside.after_eq]

/-- A settled text without loops and a text that is read on its own are left alone, whatever follows
them. -/
theorem unroll_standalone {text : List Char} (settled : IsSettled (sourceOf before))
    (own : pieces (sourceOf before) = before) (free : HoldsNoBlockLoop before)
    (standalone : IsStandalone text) (seam : ∀ more, ∀ c ∈ (text ++ more).head?, c = '\x7b')
    (count : Nat) (pickers : Pickers) (more : List Char) :
    unroll count pickers (sourceOf before ++ text ++ more) =
      (unroll count pickers more).push (sourceOf before ++ text) := by
  obtain ⟨written, rfl, loopless, read⟩ := standalone
  rw [List.append_assoc, unroll, settled.pieces_append (seam more), own, read,
    unrollPieces_append_of_holdsNoBlockLoop free,
    unrollPieces_append_of_holdsNoBlockLoop loopless.holdsNoBlockLoop]
  simp [Unrolled.push, unroll]

/-- A template without loops over blocks stays as it is. -/
theorem unroll_of_holdsNoBlockLoop {template : List Char} (free : HoldsNoBlockLoop (pieces template))
    (count : Nat) (pickers : Pickers) : unroll count pickers template = ⟨template, 0, 0⟩ := by
  have nothing : unrollPieces count pickers [] = ⟨[], 0, 0⟩ := by rw [unrollPieces]
  rw [unroll, ← List.append_nil (pieces template), unrollPieces_append_of_holdsNoBlockLoop free,
    nothing, Unrolled.push, sourceOf_pieces, List.append_nil]

/-- A template whose first loop has no end stays as it is. -/
theorem unroll_endless {template : List Char} {after : List Piece}
    (split : pieces template = before ++ .tag tag :: after) (free : HoldsNoBlockLoop before)
    (loop : tag.blockLoopVariable? = some variableName) (endless : LoopParts.find? [] after = none)
    (count : Nat) (pickers : Pickers) : unroll count pickers template = ⟨template, 0, 0⟩ := by
  have written := sourceOf_pieces template
  rw [split, sourceOf_append] at written
  rw [unroll, split, unrollPieces_append_of_holdsNoBlockLoop free,
    unrollPieces_endless count pickers loop endless, Unrolled.push, written]

end Runs

/-- What holds of every template holds of those without a loop over blocks, of those whose first loop
has no end, and of those whose first loop has one if it holds of what follows that loop. -/
theorem firstLoop_induction {motive : List Char → Prop}
    (free : ∀ template, HoldsNoBlockLoop (pieces template) → motive template)
    (endless : ∀ template before tag after variableName,
      pieces template = before ++ .tag tag :: after → HoldsNoBlockLoop before →
      tag.blockLoopVariable? = some variableName → LoopParts.find? [] after = none → motive template)
    (ended : ∀ template before tag variableName parts,
      pieces template = before ++ .tag tag :: (parts.inner ++ .tag parts.closing :: parts.after) →
      HoldsNoBlockLoop before → tag.blockLoopVariable? = some variableName →
      LoopParts.find? [] (parts.inner ++ .tag parts.closing :: parts.after) = some parts →
      motive (sourceOf parts.after) → motive template)
    (template : List Char) : motive template := by
  induction size : template.length using Nat.strongRecOn generalizing template with
  | ind length inductionHypothesis =>
    rcases exists_first_blockLoop (pieces template) with
      none | ⟨before, tag, after, variableName, split, first, loop⟩
    · exact free template none
    · cases found : LoopParts.find? [] after with
      | none => exact endless template before tag after variableName split first loop found
      | some parts =>
        obtain ⟨rfl, -⟩ := LoopParts.endsLoop_of_find? found
        apply ended template before tag variableName parts split first loop found
        refine inductionHypothesis _ ?_ (sourceOf parts.after) rfl
        have positive := List.length_pos_iff.mpr
          (source_ne_nil_of_tag? ((isSplitAt_of_pieces split).read []))
        rw [← size, ← sourceOf_pieces template, split, sourceOf_append, sourceOf_cons,
          sourceOf_append, sourceOf_cons]
        simp only [List.length_append, Piece.source]
        omega

/-- What holds of all tags of a template holds of those that follow its first loop. -/
theorem forall_tag_of_ended {template : List Char} {before : List Piece} {tag : Tag}
    {parts : LoopParts} {holds : Tag → Prop}
    (split : pieces template = before ++ .tag tag :: (parts.inner ++ .tag parts.closing :: parts.after))
    (all : ∀ other, .tag other ∈ pieces template → holds other) :
    ∀ other, .tag other ∈ pieces (sourceOf parts.after) → holds other := by
  have inside := isSplitAt_of_pieces (isSplitAt_of_pieces split).after_eq
  intro other member
  apply all other
  rw [inside.after_eq] at member
  rw [split]
  simp [member]

/-- A template by the source of its first loop and what stands around it. -/
theorem eq_append_of_ended {template : List Char} {before : List Piece} {tag : Tag}
    {parts : LoopParts}
    (split : pieces template =
      before ++ .tag tag :: (parts.inner ++ .tag parts.closing :: parts.after)) :
    template = sourceOf before ++ (tag.source ++
      (sourceOf parts.inner ++ (parts.closing.source ++ sourceOf parts.after))) := by
  have whole := sourceOf_pieces template
  rw [split, sourceOf_append, sourceOf_cons, sourceOf_append, sourceOf_cons] at whole
  exact whole.symm

/-- A second run changes nothing, whatever it is asked for: it finds no loop to replace, and leaves the
loops that the first run left. No loop's variable is named as a tag of a verbatim region. -/
theorem unroll_unroll {template : List Char} {count : Nat} (positive : 0 < count)
    (own : ∀ tag variableName, .tag tag ∈ pieces template →
      tag.blockLoopVariable? = some variableName → variableName ∉ regionNames)
    (pickers : Pickers) (nextCount : Nat) (nextPickers : Pickers) :
    unroll nextCount nextPickers (unroll count pickers template).template =
      { template := (unroll count pickers template).template
        unrolled := 0
        nested := (unroll count pickers template).nested } := by
  induction template using firstLoop_induction with
  | free template free => rw [unroll_of_holdsNoBlockLoop free, unroll_of_holdsNoBlockLoop free]
  | endless template before tag after variableName split free loop endless =>
    rw [unroll_endless split free loop endless, unroll_endless split free loop endless]
  | ended template before tag variableName parts split free loop found inductionHypothesis =>
    have around := isSplitAt_of_pieces split
    have ownAfter : ∀ other, .tag other ∈ pieces (sourceOf parts.after) → ∀ name,
        other.blockLoopVariable? = some name → name ∉ regionNames :=
      forall_tag_of_ended split fun other member name => own other name member
    have again := inductionHypothesis fun other name member => ownAfter other member name
    cases iterates : parts.iterates with
    | true =>
      have run := unroll_iterating around free loop found iterates
      have first := run count pickers (sourceOf parts.after)
      have second := run nextCount nextPickers
        (unroll count pickers (sourceOf parts.after)).template
      simp only [List.append_assoc, Unrolled.push] at first second
      rw [eq_append_of_ended split, first]
      simp only
      rw [second, again]
    | false =>
      have ownName : variableName ∉ regionNames := own tag variableName (by rw [split]; simp) loop
      have first := unroll_replaced split free loop found iterates count pickers
      have standalone := isStandalone_copies around.after_eq iterates loop ownName pickers count
      have second := unroll_standalone around.settled around.before_eq free standalone
        (head?_copies positive variableName pickers) nextCount nextPickers
        (unroll count pickers (sourceOf parts.after)).template
      simp only [Unrolled.push] at first second
      rw [first]
      simp only
      rw [second, again]

/-- A loop with a whole loop in a raw region is replaced, and one around another loop is left. -/
theorem unroll_unroll_of_raw :
    let raw := "\x7b% raw %\x7d\x7b% for raw in section.blocks %\x7d\x7b% endraw %\x7d".toList
    let body := "\x7b\x7b card.settings.title \x7d\x7d".toList ++ raw
    let template := loopText "card".toList body ++ loopText "row".toList (loopText "row".toList [])
    0 < 2 ∧
      (∀ tag variableName, .tag tag ∈ pieces template →
        tag.blockLoopVariable? = some variableName → variableName ∉ regionNames) ∧
      ∀ pickers nextCount nextPickers,
        unroll nextCount nextPickers (unroll 2 pickers template).template =
          { template := (unroll 2 pickers template).template
            unrolled := 0
            nested := (unroll 2 pickers template).nested } := by
  intro raw body template
  have positive : 0 < 2 := by decide
  let card := loopTag "card".toList
  let row := loopTag "row".toList
  let nested := loopText "row".toList (loopText "row".toList [])
  have bodyPieces : pieces body = body.map .char := rfl
  have nestedPieces : pieces nested =
      [.tag row, .tag row, .tag loopEndTag, .tag loopEndTag] := rfl
  have free : HoldsNoOpening [] := by
    unfold HoldsNoOpening
    decide
  have written := pieces_loopText (show "card".toList.all isWordChar = true by decide) free
    (show TagsComplete body by decide +kernel) (by decide +kernel) nested
  rw [bodyPieces, nestedPieces] at written
  have ofCard : card.blockLoopVariable? = some "card".toList := by decide +kernel
  have ofRow : row.blockLoopVariable? = some "row".toList := by decide +kernel
  have own (tag : Tag) (variableName : List Char) (member : .tag tag ∈ pieces template)
      (loop : tag.blockLoopVariable? = some variableName) : variableName ∉ regionNames := by
    rw [show pieces template = _ from written] at member
    have known : tag = card ∨ tag = row ∨ tag = loopEndTag := by
      simp at member
      grind
    rcases known with rfl | rfl | rfl
    · rw [ofCard] at loop
      obtain rfl := Option.some.inj loop
      decide
    · rw [ofRow] at loop
      obtain rfl := Option.some.inj loop
      decide
    · contradiction
  exact ⟨positive, own, unroll_unroll positive own⟩

end FlatLiquid
