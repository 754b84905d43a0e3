import FlatLiquid.Proofs.Template.FilterChains

/-!
Contract: which bars of an expression separate its parts.

Owns:
- the quoted regions of a text by their offsets, without regard to how the text is read;
- the quote that is open behind a front of a text, which tells whether the front ends in a region;
- the bars at which an expression is split: all that stand outside quoted regions.

Key step: reading one character keeps the account of regions right. A region that starts at the
character is not inside another one, and a region ends at the character only if its quote stands there.
-/

namespace FlatLiquid

/-! ## Regions by their offsets -/

/-- A stretch from a quote to the next quote of its kind, or to the end of the text. -/
structure IsQuotation (text : List Char) (mark : Char) (start stop : Nat) : Prop where
  quote : mark = '\'' ∨ mark = '"'
  opening : text[start]? = some mark
  behind : start < stop
  closing : text[stop]? = some mark ∨ stop = text.length
  nearest : ∀ offset, start < offset → offset < stop → text[offset]? ≠ some mark

/-- A quoted region of a text starts at a quote outside every region that starts before it. -/
def IsQuotedRegion (text : List Char) (start stop : Nat) : Prop :=
  (∃ mark, IsQuotation text mark start stop) ∧
    ∀ earlier, earlier < start → ∀ last, IsQuotedRegion text earlier last → last < start
termination_by start

/-- A bar outside every quoted region stands at the offset. -/
def IsSeparatingBar (text : List Char) (offset : Nat) : Prop :=
  text[offset]? = some '|' ∧
    ∀ start stop, IsQuotedRegion text start stop → ¬ (start < offset ∧ offset < stop)

namespace IsQuotation

variable {text : List Char} {mark : Char} {start stop : Nat}

theorem start_lt_length (quoted : IsQuotation text mark start stop) : start < text.length :=
  (List.getElem?_eq_some_iff.mp quoted.opening).1

/-- Only the quote that started a quotation stops it. -/
theorem closing_of_inside {c : Char} (quoted : IsQuotation text mark start stop)
    (here : text[stop]? = some c) : c = mark := by
  rcases quoted.closing with closes | atEnd
  · exact Option.some.inj (here.symm.trans closes)
  · rw [atEnd, List.getElem?_length] at here
    contradiction

/-- Where a quotation starts tells where it stops. -/
theorem stop_unique {other : Char} {otherStop : Nat} (quoted : IsQuotation text mark start stop)
    (also : IsQuotation text other start otherStop) : stop = otherStop := by
  obtain rfl : mark = other := Option.some.inj (quoted.opening.symm.trans also.opening)
  have bounded {near far : Nat} (first : IsQuotation text mark start near)
      (second : IsQuotation text mark start far) : far ≤ near := by
    apply Nat.le_of_not_lt
    intro beyond
    rcases first.closing with closes | atEnd
    · exact second.nearest near first.behind beyond closes
    · rcases second.closing with inside | alsoEnd
      · have short := (List.getElem?_eq_some_iff.mp inside).1
        omega
      · omega
  exact Nat.le_antisymm (bounded also quoted) (bounded quoted also)

end IsQuotation

/-- From every quote a quotation goes on to the next quote of its kind, or to the end. -/
theorem exists_isQuotation {text : List Char} {mark : Char} {start : Nat}
    (quote : mark = '\'' ∨ mark = '"') (opening : text[start]? = some mark) :
    ∃ stop, IsQuotation text mark start stop := by
  have within := (List.getElem?_eq_some_iff.mp opening).1
  let quoted := (text.drop (start + 1)).takeWhile (· != mark)
  have split : quoted ++ (text.drop (start + 1)).dropWhile (· != mark) = text.drop (start + 1) :=
    List.takeWhile_append_dropWhile
  have shifted (index : Nat) : text[start + 1 + index]? = (text.drop (start + 1))[index]? :=
    List.getElem?_drop.symm
  refine ⟨start + 1 + quoted.length, quote, opening, by omega, ?_, ?_⟩
  · rw [shifted, ← split, List.getElem?_append_right (Nat.le_refl _), Nat.sub_self]
    cases rest : (text.drop (start + 1)).dropWhile (· != mark) with
    | nil =>
      rw [rest, List.append_nil] at split
      have size := congrArg List.length split
      rw [List.length_drop] at size
      right
      omega
    | cons c more =>
      have stops := List.head?_dropWhile_not (· != mark) (text.drop (start + 1))
      rw [rest] at stops
      left
      simpa using stops
  · intro offset behind before marked
    obtain ⟨index, rfl⟩ := Nat.exists_eq_add_of_le behind
    rw [shifted, ← split, List.getElem?_append_left (by omega)] at marked
    have unlike := List.all_takeWhile (p := (· != mark)) (l := text.drop (start + 1))
    have same := List.all_eq_true.mp unlike mark (List.mem_of_getElem? marked)
    simp at same

namespace IsQuotedRegion

variable {text : List Char} {start stop later laterStop : Nat}

theorem exists_quotation (region : IsQuotedRegion text start stop) :
    ∃ mark, IsQuotation text mark start stop := by
  rw [IsQuotedRegion] at region
  exact region.1

/-- A region that starts behind another one starts behind its stop. -/
theorem stop_lt_of_lt (region : IsQuotedRegion text start stop)
    (next : IsQuotedRegion text later laterStop) (order : start < later) : stop < later := by
  rw [IsQuotedRegion] at next
  exact next.2 start order stop region

/-- Where a region starts tells where it stops. -/
theorem stop_unique {otherStop : Nat} (region : IsQuotedRegion text start stop)
    (also : IsQuotedRegion text start otherStop) : stop = otherStop := by
  obtain ⟨mark, quoted⟩ := region.exists_quotation
  obtain ⟨other, alsoQuoted⟩ := also.exists_quotation
  exact quoted.stop_unique alsoQuoted

end IsQuotedRegion

/-! ## The quote that is open -/

/-- What the quoted regions of a text say about the quote that is open at an offset. -/
inductive IsOpenAt (text : List Char) (offset : Nat) : Option Char → Prop
  | outside (free : ∀ start stop, IsQuotedRegion text start stop → start < offset → stop < offset) :
      IsOpenAt text offset none
  | inside {mark : Char} {start stop : Nat} (region : IsQuotedRegion text start stop)
      (opening : text[start]? = some mark) (started : start < offset) (unfinished : offset ≤ stop) :
      IsOpenAt text offset (some mark)

/-- One more character is read with one step of the open quote. -/
theorem IsOpenAt.step {text : List Char} {offset : Nat} {quote : Option Char} {c : Char}
    (isOpen : IsOpenAt text offset quote) (here : text[offset]? = some c) :
    IsOpenAt text (offset + 1) (stepQuote quote c) := by
  cases isOpen with
  | @inside mark start stop region opening started unfinished =>
    obtain ⟨other, quoted⟩ := region.exists_quotation
    obtain rfl : mark = other := Option.some.inj (opening.symm.trans quoted.opening)
    by_cases closes : c = mark
    · -- the quotation stops at the character, since its quote does not stand inside it
      have stops : stop = offset := by
        apply Nat.le_antisymm _ unfinished
        apply Nat.le_of_not_lt
        intro before
        exact quoted.nearest offset started before (closes ▸ here)
      rw [stepQuote, if_pos closes]
      refine .outside fun other otherStop found order => ?_
      rcases Nat.lt_trichotomy other start with before | rfl | behind
      · have := found.stop_lt_of_lt region before
        omega
      · have := found.stop_unique region
        omega
      · have := region.stop_lt_of_lt found behind
        omega
    · have goesOn : offset ≠ stop := by
        rintro rfl
        exact closes (quoted.closing_of_inside here)
      rw [stepQuote, if_neg closes]
      exact .inside region opening (by omega) (by omega)
  | outside free =>
    by_cases quote : c = '\'' ∨ c = '"'
    · obtain ⟨stop, quoted⟩ := exists_isQuotation quote here
      have region : IsQuotedRegion text offset stop := by
        rw [IsQuotedRegion]
        exact ⟨⟨c, quoted⟩, fun earlier before last found => free earlier last found before⟩
      rw [stepQuote, if_pos quote]
      exact .inside region here (by omega) quoted.behind
    · rw [stepQuote, if_neg quote]
      refine .outside fun start stop found order => ?_
      rcases Nat.lt_succ_iff_lt_or_eq.mp order with before | rfl
      · have := free start stop found before
        omega
      · obtain ⟨mark, quoted⟩ := found.exists_quotation
        obtain rfl : c = mark := Option.some.inj (here.symm.trans quoted.opening)
        exact absurd quoted.quote quote

/-- Behind every front of a text, the open quote is the one of the region that the front ends in. -/
theorem isOpenAt_take (text : List Char) {offset : Nat} (within : offset ≤ text.length) :
    IsOpenAt text offset ((text.take offset).foldl stepQuote none) := by
  induction offset with
  | zero => exact .outside fun _ _ _ impossible => absurd impossible (Nat.not_lt_zero _)
  | succ offset inductionHypothesis =>
    have step := (inductionHypothesis (Nat.le_of_succ_le within)).step
      (List.getElem?_eq_getElem within)
    rw [List.take_succ_eq_append_getElem within, List.foldl_append]
    exact step

/-- A bar separates parts exactly if no quote is open behind the text before it. -/
theorem isSeparatingBar_iff {text : List Char} {offset : Nat} :
    IsSeparatingBar text offset ↔
      text[offset]? = some '|' ∧ (text.take offset).foldl stepQuote none = none := by
  refine and_congr_right fun bar => ?_
  have within := (List.getElem?_eq_some_iff.mp bar).1
  have isOpen := isOpenAt_take text (Nat.le_of_lt within)
  constructor
  · intro outside
    generalize (text.take offset).foldl stepQuote none = quote at isOpen
    cases isOpen with
    | outside _ => rfl
    | @inside mark start stop region opening started unfinished =>
      obtain ⟨other, quoted⟩ := region.exists_quotation
      have isMark : offset ≠ stop := by
        rintro rfl
        obtain rfl := quoted.closing_of_inside bar
        exact absurd quoted.quote (by decide)
      exact absurd ⟨started, by omega⟩ (outside start stop region)
  · rintro closed start stop region ⟨started, unfinished⟩
    rw [closed] at isOpen
    cases isOpen with
    | outside free =>
      have := free start stop region started
      omega

/-! ## Where an expression is split -/

theorem LeadsTo.foldl_stepQuote {quote next : Option Char} {text : List Char}
    (leads : LeadsTo quote text next) : text.foldl stepQuote quote = next := by
  induction leads with
  | nil => rfl
  | cons _ _ inductionHypothesis => exact inductionHypothesis

/-- A bar that no open quote stands before splits an expression in two. -/
theorem splitFiltersFrom_append_bar {quote : Option Char} {front : List Char}
    (closed : front.foldl stepQuote quote = none) (back : List Char) :
    splitFiltersFrom quote (front ++ '|' :: back) =
      splitFiltersFrom quote front ++ splitFiltersFrom none back := by
  induction front generalizing quote with
  | nil =>
    obtain rfl : quote = none := closed
    rw [List.nil_append, splitFiltersFrom_cons, if_pos ⟨rfl, rfl⟩]
    rfl
  | cons c rest inductionHypothesis =>
    rw [List.foldl_cons] at closed
    have behind := inductionHypothesis closed
    rw [List.cons_append, splitFiltersFrom_cons, splitFiltersFrom_cons]
    split
    · next separates =>
      obtain ⟨rfl, rfl⟩ := separates
      exact congrArg ([] :: ·) behind
    · obtain ⟨part, others, shape⟩ :=
        List.exists_cons_of_ne_nil (splitFiltersFrom_ne_nil (stepQuote quote c) rest)
      rw [behind, shape]
      rfl

/-- No quote is open behind the first parts of a chain. -/
theorem IsChain.foldl_stepQuote {quote : Option Char} {front behind : List (List Char)}
    (chain : IsChain quote (front ++ behind)) (nonempty : front ≠ []) (more : behind ≠ []) :
    (List.intercalate ['|'] front).foldl stepQuote quote = none := by
  induction front generalizing quote with
  | nil => contradiction
  | cons part others inductionHypothesis =>
    cases others with
    | nil =>
      rw [List.intercalate_singleton]
      cases chain with
      | last _ => contradiction
      | more closed _ => exact closed.foldl_stepQuote
    | cons next others =>
      rw [List.intercalate_cons_cons, List.foldl_append, List.foldl_append]
      cases chain with
      | more closed rest =>
        rw [closed.foldl_stepQuote]
        exact inductionHypothesis rest (List.cons_ne_nil _ _)

/-- Every part of a chain but the last one closes its quotes. -/
theorem IsChain.leadsTo_of_mem_dropLast {parts : List (List Char)} {part : List Char}
    (chain : IsChain none parts) (member : part ∈ parts.dropLast) : LeadsTo none part none := by
  generalize quote : none = start at chain
  induction chain with
  | last _ => contradiction
  | @more start first others closed rest inductionHypothesis =>
    subst quote
    have nonempty : others ≠ [] := by
      rintro rfl
      contradiction
    rw [List.dropLast_cons_of_ne_nil nonempty] at member
    rcases List.mem_cons.mp member with rfl | later
    · exact closed
    · exact inductionHypothesis later rfl

/-- Between two parts of an expression stands a bar before which no quote is open, and two parts meet
at every such bar. -/
theorem splits_iff {expression : List Char} {offset : Nat} :
    (∃ front behind, splitFilters expression = front ++ behind ∧ front ≠ [] ∧ behind ≠ [] ∧
        (List.intercalate ['|'] front).length = offset) ↔
      expression[offset]? = some '|' ∧ (expression.take offset).foldl stepQuote none = none := by
  constructor
  · rintro ⟨front, behind, parts, nonempty, more, rfl⟩
    have chain := isChain_splitFiltersFrom none expression
    have joined := intercalate_splitFiltersFrom none expression
    rw [← splitFilters, parts] at chain joined
    rw [Text.intercalate_append nonempty more, List.singleton_append] at joined
    rw [← joined, List.take_left' rfl]
    exact ⟨by simp, chain.foldl_stepQuote nonempty more⟩
  · rintro ⟨bar, closed⟩
    obtain ⟨within, here⟩ := List.getElem?_eq_some_iff.mp bar
    have cut : expression = expression.take offset ++ '|' :: expression.drop (offset + 1) := by
      rw [← here, ← List.drop_eq_getElem_cons within, List.take_append_drop]
    refine ⟨splitFilters (expression.take offset), splitFilters (expression.drop (offset + 1)), ?_,
      splitFiltersFrom_ne_nil _ _, splitFiltersFrom_ne_nil _ _, ?_⟩
    · conv_lhs => rw [cut]
      exact splitFiltersFrom_append_bar closed _
    · rw [splitFilters, intercalate_splitFiltersFrom, List.length_take]
      exact Nat.min_eq_left (Nat.le_of_lt within)

/-- A text that leaves no quote open closes each of its quoted regions. -/
theorem IsQuotedRegion.stop_lt_length {text : List Char} {start stop : Nat}
    (region : IsQuotedRegion text start stop) (closed : text.foldl stepQuote none = none) :
    stop < text.length := by
  have isOpen := isOpenAt_take text (Nat.le_refl text.length)
  rw [List.take_length, closed] at isOpen
  obtain ⟨mark, quoted⟩ := region.exists_quotation
  cases isOpen with
  | outside free => exact free start stop region quoted.start_lt_length

/-- The parts of an expression give it back when bars join them. They meet at the bars outside quoted
regions and at no others, and no part but the last one ends inside a quoted region. -/
theorem splitFilters_at_separatingBars (expression : List Char) :
    List.intercalate ['|'] (splitFilters expression) = expression ∧
      (∀ offset, (∃ front behind, splitFilters expression = front ++ behind ∧ front ≠ [] ∧
          behind ≠ [] ∧ (List.intercalate ['|'] front).length = offset) ↔
        IsSeparatingBar expression offset) ∧
      ∀ part ∈ (splitFilters expression).dropLast, ∀ start stop,
        IsQuotedRegion part start stop → stop < part.length := by
  refine ⟨intercalate_splitFiltersFrom none expression, fun offset => ?_, ?_⟩
  · exact splits_iff.trans isSeparatingBar_iff.symm
  · intro part member start stop region
    have chain := isChain_splitFiltersFrom none expression
    exact region.stop_lt_length (chain.leadsTo_of_mem_dropLast member).foldl_stepQuote

end FlatLiquid
