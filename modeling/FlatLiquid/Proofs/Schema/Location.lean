import FlatLiquid.Proofs.Schema.Block

/-!
Contract: where the first schema block of a template stands.

Owns:
- markers and blocks by their offsets in a text, which count characters;
- the definition of the first block: the leftmost opening marker with a closing marker behind it, up
  to the leftmost closing marker there;
- the search for a block and the template without its blocks, both by this one definition.

Two markers never overlap, because each of them starts with the only opening brace that it holds.
That is why the leftmost closing marker ends the block of the leftmost opening one.
-/

namespace FlatLiquid

/-! ## Markers by their offsets -/

/-- A marker of a word stands in a text from one offset to another. -/
def MarkerAt (word text : List Char) (start stop : Nat) : Prop :=
  ∃ front marker back, text = front ++ (marker ++ back) ∧ IsMarker word marker ∧
    front.length = start ∧ start + marker.length = stop

/-- Some closing marker starts at an offset or behind it. -/
def HasClosing (text : List Char) (offset : Nat) : Prop :=
  ∃ start stop, MarkerAt endSchemaWord text start stop ∧ offset ≤ start

namespace MarkerAt

variable {word other text : List Char} {start stop later laterStop : Nat}

theorem of_isMarker {marker : List Char} (front : List Char) (isMarker : IsMarker word marker)
    (back : List Char) :
    MarkerAt word (front ++ (marker ++ back)) front.length (front.length + marker.length) :=
  ⟨front, marker, back, rfl, isMarker, rfl, rfl⟩

/-- A marker starts with an opening brace and holds no other one. -/
theorem brace (isWord : IsWord word) (marked : MarkerAt word text start stop) :
    start < stop ∧ stop ≤ text.length ∧ text[start]? = some '\x7b' ∧
      ∀ offset, start < offset → offset < stop → text[offset]? ≠ some '\x7b' := by
  obtain ⟨front, marker, back, rfl, isMarker, rfl, rfl⟩ := marked
  obtain ⟨tail, rfl, free⟩ := isMarker.exists_tail isWord
  simp only [List.length_append, List.length_cons]
  refine ⟨by omega, by omega, by simp, fun offset behind before inside => ?_⟩
  have inTail : tail[offset - front.length - 1]? = some '\x7b' := by
    have split : front ++ ('\x7b' :: tail ++ back) = (front ++ ['\x7b']) ++ (tail ++ back) := by simp
    rw [split, List.getElem?_append_right (by simp; omega), List.getElem?_append_left (by simp; omega)]
      at inside
    simpa [Nat.sub_sub] using inside
  exact free (List.mem_of_getElem? inTail)

/-- A marker that starts before another one ends before it. -/
theorem stop_le_of_lt (isWord : IsWord word) (isOther : IsWord other)
    (first : MarkerAt word text start stop) (second : MarkerAt other text later laterStop)
    (before : start < later) : stop ≤ later := by
  apply Nat.le_of_not_lt
  intro overlaps
  have onlyBrace := (first.brace isWord).2.2.2 later before overlaps
  exact onlyBrace (second.brace isOther).2.2.1

/-- Where a marker starts tells where it stops. -/
theorem stop_unique (isWord : IsWord word) (first : MarkerAt word text start stop)
    (second : MarkerAt word text start laterStop) : stop = laterStop := by
  obtain ⟨front, marker, back, rfl, isMarker, rfl, rfl⟩ := first
  obtain ⟨otherFront, otherMarker, otherBack, split, isOther, sameLength, rfl⟩ := second
  obtain ⟨-, rest⟩ := List.append_inj split sameLength.symm
  have read := afterMarker?_append isWord isMarker back
  rw [rest, afterMarker?_append isWord isOther] at read
  have sizes := congrArg List.length rest
  rw [Option.some.inj read, List.length_append, List.length_append] at sizes
  omega

/-! ### Markers in a part of a text -/

theorem append_left (front : List Char) (marked : MarkerAt word text start stop) :
    MarkerAt word (front ++ text) (front.length + start) (front.length + stop) := by
  obtain ⟨before, marker, back, rfl, isMarker, rfl, rfl⟩ := marked
  refine ⟨front ++ before, marker, back, by rw [List.append_assoc], isMarker, List.length_append, ?_⟩
  omega

theorem of_append_left {front : List Char} (marked : MarkerAt word (front ++ text) start stop)
    (behind : front.length ≤ start) :
    MarkerAt word text (start - front.length) (stop - front.length) := by
  obtain ⟨before, marker, back, split, isMarker, rfl, rfl⟩ := marked
  obtain ⟨between, rfl⟩ : ∃ between, before = front ++ between := by
    rcases List.append_eq_append_iff.mp split with ⟨more, isBefore, -⟩ | ⟨more, isFront, -⟩
    · exact ⟨more, isBefore⟩
    · rw [isFront, List.length_append] at behind
      have nothing : more = [] := List.eq_nil_of_length_eq_zero (by omega)
      exact ⟨[], by rw [isFront, nothing, List.append_nil, List.append_nil]⟩
  rw [List.append_assoc] at split
  refine ⟨between, marker, back, List.append_cancel_left split, isMarker, ?_, ?_⟩ <;>
  · rw [List.length_append]
    omega

theorem of_append_right {back : List Char} (marked : MarkerAt word (text ++ back) start stop)
    (within : stop ≤ text.length) : MarkerAt word text start stop := by
  obtain ⟨before, marker, after, split, isMarker, rfl, rfl⟩ := marked
  rw [← List.append_assoc] at split
  rcases List.append_eq_append_iff.mp split with ⟨more, isMarked, -⟩ | ⟨more, isText, -⟩
  · have sizes := congrArg List.length isMarked
    rw [List.length_append, List.length_append] at sizes
    have nothing : more = [] := List.eq_nil_of_length_eq_zero (by omega)
    refine ⟨before, marker, [], ?_, isMarker, rfl, rfl⟩
    rw [nothing, List.append_nil] at isMarked
    rw [← isMarked, List.append_nil]
  · exact ⟨before, marker, more, by rw [isText, List.append_assoc], isMarker, rfl, rfl⟩

end MarkerAt

/-- A text has no first marker if it has none at all. -/
theorem not_markerAt_of_cutAtMarker? {word text : List Char} (isWord : IsWord word)
    (free : cutAtMarker? word text = none) (start stop : Nat) : ¬ MarkerAt word text start stop := by
  rintro ⟨front, marker, back, rfl, isMarker, -, -⟩
  apply (cutAtMarker?_eq_none_iff isWord).mp free marker isMarker
  exact ⟨front, back, List.append_assoc front marker back⟩

/-! ## Blocks by their offsets -/

/-- A schema block by its offsets: where it starts, where its interior starts and stops, and where it
stops. -/
structure SchemaSpan where
  start : Nat
  interiorStart : Nat
  interiorStop : Nat
  stop : Nat
deriving DecidableEq, Repr

/-- The offsets of the parts that a template is cut into. -/
def SchemaBlock.span (block : SchemaBlock) : SchemaSpan where
  start := block.before.length
  interiorStart := block.before.length + block.opening.length
  interiorStop := block.before.length + block.opening.length + block.interior.length
  stop := block.before.length + block.opening.length + block.interior.length + block.closing.length

/-- The offsets of the first schema block of a template. -/
def schemaSpan? (template : List Char) : Option SchemaSpan :=
  (SchemaBlock.find? template).map SchemaBlock.span

namespace SchemaSpan

/-- The first schema block of a text. It starts at the leftmost opening marker that has a closing
marker behind it, and stops with the leftmost of the closing markers there. -/
structure IsFirst (text : List Char) (span : SchemaSpan) : Prop where
  opening : MarkerAt schemaWord text span.start span.interiorStart
  closing : MarkerAt endSchemaWord text span.interiorStop span.stop
  inOrder : span.interiorStart ≤ span.interiorStop
  leftmostOpening : ∀ start stop, MarkerAt schemaWord text start stop → HasClosing text stop →
    span.start ≤ start
  leftmostClosing : ∀ start stop, MarkerAt endSchemaWord text start stop →
    span.interiorStart ≤ start → span.interiorStop ≤ start

variable {text : List Char} {span other : SchemaSpan}

theorem IsFirst.hasClosing (isFirst : span.IsFirst text) : HasClosing text span.interiorStart :=
  ⟨span.interiorStop, span.stop, isFirst.closing, isFirst.inOrder⟩

/-- A text has one first block. -/
theorem IsFirst.unique (isFirst : span.IsFirst text) (isOther : other.IsFirst text) :
    span = other := by
  obtain ⟨start, interiorStart, interiorStop, stop⟩ := span
  obtain ⟨otherStart, otherInteriorStart, otherInteriorStop, otherStop⟩ := other
  have notBehind := isFirst.leftmostOpening _ _ isOther.opening isOther.hasClosing
  have notBefore := isOther.leftmostOpening _ _ isFirst.opening isFirst.hasClosing
  obtain rfl : start = otherStart := Nat.le_antisymm notBehind notBefore
  obtain rfl : interiorStart = otherInteriorStart :=
    isFirst.opening.stop_unique isWord_schemaWord isOther.opening
  have closesNotBehind := isFirst.leftmostClosing _ _ isOther.closing isOther.inOrder
  have closesNotBefore := isOther.leftmostClosing _ _ isFirst.closing isFirst.inOrder
  obtain rfl : interiorStop = otherInteriorStop := Nat.le_antisymm closesNotBehind closesNotBefore
  obtain rfl : stop = otherStop := isFirst.closing.stop_unique isWord_endSchemaWord isOther.closing
  rfl

end SchemaSpan

namespace SchemaBlock

theorem length_text (block : SchemaBlock) :
    block.text.length = block.span.stop + block.after.length := by
  simp only [text, span, List.length_append]
  omega

/-- The text before a block, by its offset. -/
theorem take_start (block : SchemaBlock) : block.text.take block.span.start = block.before :=
  List.take_left

/-- The text after a block, by its offset. -/
theorem drop_stop (block : SchemaBlock) : block.text.drop block.span.stop = block.after := by
  have size : (block.before ++ (block.opening ++ (block.interior ++ block.closing))).length =
      block.span.stop := by
    simp only [span, List.length_append]
    omega
  have split : block.text =
      (block.before ++ (block.opening ++ (block.interior ++ block.closing))) ++ block.after := by
    simp only [text, List.append_assoc]
  rw [split, ← size, List.drop_left]

theorem opening_markerAt {block : SchemaBlock} (isFirst : block.IsFirst) :
    MarkerAt schemaWord block.text block.span.start block.span.interiorStart :=
  .of_isMarker block.before isFirst.opening _

theorem closing_markerAt {block : SchemaBlock} (isFirst : block.IsFirst) :
    MarkerAt endSchemaWord block.text block.span.interiorStop block.span.stop := by
  have own := (MarkerAt.of_isMarker block.interior isFirst.closing block.after).append_left
    (block.before ++ block.opening)
  have split : block.text =
      (block.before ++ block.opening) ++ (block.interior ++ (block.closing ++ block.after)) := by
    rw [text, List.append_assoc]
  rw [split]
  simpa only [span, List.length_append, Nat.add_assoc] using own

/-- The parts that can be told apart are the first block by its offsets. -/
theorem isFirst_span {block : SchemaBlock} (isFirst : block.IsFirst) :
    block.span.IsFirst block.text where
  opening := opening_markerAt isFirst
  closing := closing_markerAt isFirst
  inOrder := Nat.le_add_right _ _
  leftmostOpening := by
    intro start stop marked _
    apply Nat.le_of_not_lt
    intro before
    have within := marked.stop_le_of_lt isWord_schemaWord isWord_schemaWord
      (opening_markerAt isFirst) before
    exact not_markerAt_of_cutAtMarker? isWord_schemaWord isFirst.before start stop
      (marked.of_append_right within)
  leftmostClosing := by
    intro start stop marked behind
    apply Nat.le_of_not_lt
    intro before
    have within := marked.stop_le_of_lt isWord_endSchemaWord isWord_endSchemaWord
      (closing_markerAt isFirst) before
    have size : (block.before ++ block.opening).length = block.span.interiorStart :=
      List.length_append
    rw [text, ← List.append_assoc] at marked
    have inRest := marked.of_append_left (size ▸ behind)
    refine not_markerAt_of_cutAtMarker? isWord_endSchemaWord isFirst.interior _ _
      (inRest.of_append_right ?_)
    rw [size]
    simp only [span] at within ⊢
    omega

/-- A text with a closing marker behind an opening one holds a block. -/
theorem isSome_find?_of_markers {text : List Char} {start stop : Nat}
    (opening : MarkerAt schemaWord text start stop) (closed : HasClosing text stop) :
    (find? text).isSome = true := by
  obtain ⟨front, marker, rest, rfl, isMarker, rfl, rfl⟩ := opening
  have isCut : ∃ parts, cutAtMarker? endSchemaWord rest = some parts := by
    apply Option.ne_none_iff_exists'.mp
    intro free
    obtain ⟨closingStart, closingStop, closing, behind⟩ := closed
    rw [← List.append_assoc] at closing
    rw [← List.length_append] at behind
    exact not_markerAt_of_cutAtMarker? isWord_endSchemaWord free _ _ (closing.of_append_left behind)
  obtain ⟨⟨interior, closing, after⟩, cut⟩ := isCut
  clear closed
  induction front with
  | nil =>
    have here := at?_of_cut isMarker cut
    obtain ⟨tail, rfl, -⟩ := isMarker.exists_tail isWord_schemaWord
    rw [List.cons_append] at here
    rw [List.nil_append, List.cons_append, find?, here]
    rfl
  | cons c front inductionHypothesis =>
    rw [List.cons_append, find?]
    cases at? (c :: (front ++ (marker ++ rest))) with
    | some block => rfl
    | none => simpa using inductionHypothesis

/-- A text holds a block exactly if a closing marker stands behind an opening one. -/
theorem isSome_find?_iff (text : List Char) :
    (find? text).isSome = true ↔
      ∃ start stop, MarkerAt schemaWord text start stop ∧ HasClosing text stop := by
  constructor
  · intro isSome
    obtain ⟨block, found⟩ := Option.isSome_iff_exists.mp isSome
    obtain ⟨rfl, isFirst⟩ := isFirst_of_find? found
    exact ⟨_, _, opening_markerAt isFirst, (isFirst_span isFirst).hasClosing⟩
  · rintro ⟨start, stop, opening, closed⟩
    exact isSome_find?_of_markers opening closed

end SchemaBlock

theorem schemaSpan?_eq_some_iff (template : List Char) (span : SchemaSpan) :
    schemaSpan? template = some span ↔ span.IsFirst template := by
  constructor
  · intro found
    obtain ⟨block, blockFound, rfl⟩ := Option.map_eq_some_iff.mp found
    obtain ⟨rfl, isFirst⟩ := SchemaBlock.isFirst_of_find? blockFound
    exact SchemaBlock.isFirst_span isFirst
  · intro isFirst
    obtain ⟨block, found⟩ := Option.isSome_iff_exists.mp
      (SchemaBlock.isSome_find?_of_markers isFirst.opening isFirst.hasClosing)
    obtain ⟨rfl, isFirstBlock⟩ := SchemaBlock.isFirst_of_find? found
    have same := (SchemaBlock.isFirst_span isFirstBlock).unique isFirst
    rw [schemaSpan?, found, Option.map_some, same]

/-- In a text without a block no block starts anywhere. -/
theorem SchemaBlock.at?_eq_none_of_suffix {text suffix : List Char} (free : find? text = none)
    (isSuffix : suffix <:+ text) : at? suffix = none := by
  obtain ⟨front, rfl⟩ := isSuffix
  induction front with
  | nil =>
    cases suffix with
    | nil => rfl
    | cons c rest =>
      rw [List.nil_append, find?] at free
      split at free
      · contradiction
      · next here => exact here
  | cons c front inductionHypothesis =>
    rw [List.cons_append, find?] at free
    split at free
    · contradiction
    · exact inductionHypothesis (Option.map_eq_none_iff.mp free)

/-- A template without a block stays as it is. -/
theorem stripSchema_of_find?_eq_none {template : List Char}
    (free : SchemaBlock.find? template = none) : stripSchema template = template := by
  apply Text.replaceFrom_of_unfit_suffix
  intro before suffix isSuffix
  rw [schemaBlockRule, SchemaBlock.at?_eq_none_of_suffix free isSuffix]
  rfl

/-- A template has a schema block exactly if a closing marker stands behind an opening one. The block
that is found is the first one by its markers, and its parts make up the template. Stripping takes out
that block, and then goes on with the text after it as if that stood alone. -/
theorem schemaSpan?_and_stripSchema (template : List Char) :
    ((schemaSpan? template).isSome = true ↔
        ∃ start stop, MarkerAt schemaWord template start stop ∧ HasClosing template stop) ∧
      (∀ span, schemaSpan? template = some span ↔ span.IsFirst template) ∧
      (∀ block, SchemaBlock.find? template = some block → block.text = template) ∧
      stripSchema template =
        match schemaSpan? template with
        | none => template
        | some span => template.take span.start ++ stripSchema (template.drop span.stop) := by
  refine ⟨?_, schemaSpan?_eq_some_iff template, ?_, ?_⟩
  · rw [schemaSpan?, Option.isSome_map]
    exact SchemaBlock.isSome_find?_iff template
  · intro block found
    exact (SchemaBlock.isFirst_of_find? found).1.symm
  · cases found : SchemaBlock.find? template with
    | none =>
      rw [schemaSpan?, found]
      exact stripSchema_of_find?_eq_none found
    | some block =>
      have stripped := stripSchema_of_find? found
      rw [schemaSpan?, found]
      obtain ⟨rfl, -⟩ := SchemaBlock.isFirst_of_find? found
      simp only [Option.map_some, SchemaBlock.take_start, SchemaBlock.drop_stop]
      exact stripped

end FlatLiquid
