import FlatLiquid.Proofs.Text.Rows

/-!
Contract: several replacement passes as one row.

Owns:
- two rows as one, if the second one replaces nothing that the first one inserted;
- passes that spare what other passes insert, and the row that such a pass makes with theirs;
- any number of passes as one row, if each spares what those before it insert.

Two passes one after another always have some text as their result. Only with their rows can it be told
whether the second one looked at what the first one inserted.
-/

namespace FlatLiquid.Text

/-! ## Two rows as one -/

/-- The second row starts from the text that the first one ends with. What the second row replaces, the
first one keeps; what the first row inserts, the second one keeps. `whole` leads from the text before
the first row to the text after the second one. -/
inductive Composes : Row → Row → Row → Prop
  | nil : Composes [] [] []
  | kept (c : Char) {first second whole : Row} (more : Composes first second whole) :
      Composes (.kept c :: first) (.kept c :: second) (.kept c :: whole)
  | earlier (original replacement : List Char) {first second whole : Row}
      (more : Composes first second whole) :
      Composes (.replaced original replacement :: first) (Row.plain replacement ++ second)
        (.replaced original replacement :: whole)
  | later (original replacement : List Char) {first second whole : Row}
      (more : Composes first second whole) :
      Composes (Row.plain original ++ first) (.replaced original replacement :: second)
        (.replaced original replacement :: whole)

section Composes

variable {first second whole : Row}

theorem Composes.original_eq (together : Composes first second whole) :
    whole.original = first.original := by
  induction together with
  | nil => rfl
  | kept c _ inductionHypothesis =>
    rw [Row.original_cons, Row.original_cons, inductionHypothesis]
  | earlier original replacement _ inductionHypothesis =>
    rw [Row.original_cons, Row.original_cons, inductionHypothesis]
  | later original replacement _ inductionHypothesis =>
    rw [Row.original_cons, Row.original_append, Row.original_plain, inductionHypothesis]
    rfl

theorem Composes.output_eq (together : Composes first second whole) :
    whole.output = second.output := by
  induction together with
  | nil => rfl
  | kept c _ inductionHypothesis => rw [Row.output_cons, Row.output_cons, inductionHypothesis]
  | earlier original replacement _ inductionHypothesis =>
    rw [Row.output_cons, Row.output_append, Row.output_plain, inductionHypothesis]
    rfl
  | later original replacement _ inductionHypothesis =>
    rw [Row.output_cons, Row.output_cons, inductionHypothesis]

theorem Composes.append {moreFirst moreSecond moreWhole : Row}
    (front : Composes first second whole) (back : Composes moreFirst moreSecond moreWhole) :
    Composes (first ++ moreFirst) (second ++ moreSecond) (whole ++ moreWhole) := by
  induction front with
  | nil => exact back
  | kept c _ inductionHypothesis => exact .kept c inductionHypothesis
  | earlier original replacement _ inductionHypothesis =>
    rw [List.append_assoc]
    exact .earlier original replacement inductionHypothesis
  | later original replacement _ inductionHypothesis =>
    rw [List.append_assoc]
    exact .later original replacement inductionHypothesis

/-- A second row that replaces nothing changes nothing. -/
theorem composes_plain (row : Row) : Composes row (Row.plain row.output) row := by
  induction row with
  | nil => exact .nil
  | cons part rest inductionHypothesis =>
    rw [Row.output_cons, Row.plain_append]
    cases part with
    | kept c => exact .kept c inductionHypothesis
    | replaced original replacement => exact .earlier original replacement inductionHypothesis

/-- A first row that replaces nothing changes nothing. -/
theorem plain_composes (row : Row) : Composes (Row.plain row.original) row row := by
  induction row with
  | nil => exact .nil
  | cons part rest inductionHypothesis =>
    rw [Row.original_cons, Row.plain_append]
    cases part with
    | kept c => exact .kept c inductionHypothesis
    | replaced original replacement => exact .later original replacement inductionHypothesis

/-- Behind a row that replaces nothing the second row is the whole. -/
theorem Composes.eq_of_plain {text : List Char} (together : Composes (Row.plain text) second whole) :
    whole = second := by
  generalize start : Row.plain text = first at together
  induction together generalizing text with
  | nil => rfl
  | kept c _ inductionHypothesis =>
    cases text with
    | nil => contradiction
    | cons d rest => rw [inductionHypothesis (List.cons.inj start).2]
  | earlier original replacement _ _ =>
    cases text with
    | nil => contradiction
    | cons d rest => exact Part.noConfusion (List.cons.inj start).1
  | later original replacement _ inductionHypothesis =>
    obtain ⟨front, back, rfl, isFront, isBack⟩ := List.map_eq_append_iff.mp start
    rw [inductionHypothesis isBack]

theorem Composes.of_kept {c d : Char}
    (together : Composes (.kept c :: first) (.kept d :: second) whole) :
    ∃ rest, Composes first second rest := by
  generalize start : Part.kept c :: first = front at together
  generalize continuation : Part.kept d :: second = back at together
  cases together with
  | nil => contradiction
  | @kept _ _ _ rest more =>
    obtain ⟨-, rfl⟩ := List.cons.inj start
    obtain ⟨-, rfl⟩ := List.cons.inj continuation
    exact ⟨rest, more⟩
  | earlier _ _ _ => exact Part.noConfusion (List.cons.inj start).1
  | later _ _ _ => exact Part.noConfusion (List.cons.inj continuation).1

/-- What both rows keep in front says nothing about the rest. -/
theorem Composes.of_plain_append {text : List Char}
    (together : Composes (Row.plain text ++ first) (Row.plain text ++ second) whole) :
    ∃ rest, Composes first second rest := by
  induction text generalizing whole with
  | nil => exact ⟨whole, together⟩
  | cons c text inductionHypothesis =>
    obtain ⟨rest, more⟩ := together.of_kept
    exact inductionHypothesis more

/-- A row cannot replace what another one has just inserted. -/
theorem not_composes_of_replaced {original replacement covered inserted : List Char}
    (isInserted : replacement ≠ []) (isCovered : covered ≠ []) :
    ¬ Composes (.replaced original replacement :: first) (.replaced covered inserted :: second)
      whole := by
  intro together
  generalize start : Part.replaced original replacement :: first = front at together
  generalize continuation : Part.replaced covered inserted :: second = back at together
  cases together with
  | nil => contradiction
  | kept c _ => exact Part.noConfusion (List.cons.inj start).1
  | earlier _ written _ =>
    obtain ⟨same, -⟩ := List.cons.inj start
    obtain ⟨rfl, rfl⟩ := Part.replaced.inj same
    obtain ⟨c, rest, rfl⟩ := List.exists_cons_of_ne_nil isInserted
    exact Part.noConfusion (List.cons.inj continuation).1
  | later _ _ _ =>
    obtain ⟨same, -⟩ := List.cons.inj continuation
    obtain ⟨rfl, rfl⟩ := Part.replaced.inj same
    obtain ⟨c, rest, rfl⟩ := List.exists_cons_of_ne_nil isCovered
    exact Part.noConfusion (List.cons.inj start).1

/-- The place of a part that only the second row replaces is known from the text between the rows,
because it does not follow what the first row inserts: that ends in a character of a word. -/
theorem Composes.placed {earlier later : List Char → List Char → Prop}
    (together : Composes first second whole)
    (words : InsertsWords earlier)
    {before between : Option Char} (front : Placed earlier before first)
    (back : Placed later between second) (same : startsWord between = true → before = between) :
    Placed (fun original replacement => earlier original replacement ∨ later original replacement)
      before whole := by
  induction together generalizing before between with
  | nil => exact .nil
  | kept c _ inductionHypothesis =>
    cases front with
    | kept front =>
      cases back with
      | kept back => exact .kept (inductionHypothesis front back fun _ => rfl)
  | earlier original replacement _ inductionHypothesis =>
    cases front with
    | replaced starts isAllowed front =>
      obtain ⟨nonempty, inside⟩ := words original replacement isAllowed
      have behind := back.of_append
      rw [Row.original_plain] at behind
      refine .replaced starts (.inl isAllowed) (inductionHypothesis front behind fun starts => ?_)
      rw [List.getLast?_eq_some_getLast nonempty] at starts
      simp [startsWord, inside _ (List.getLast_mem nonempty)] at starts
  | later original replacement _ inductionHypothesis =>
    cases back with
    | replaced starts isAllowed back =>
      have behind := front.of_append
      rw [Row.original_plain] at behind
      obtain rfl := same starts
      exact .replaced starts (.inr isAllowed) (inductionHypothesis behind back fun _ => rfl)

end Composes

/-! ## Passes that spare what is inserted -/

/-- The pass never looks at what rows with `allowed` parts insert: it fits nowhere in an inserted text,
and where it fits in kept text it makes one row with what it covers. -/
structure Pass.Spares (pass : Pass) (allowed : List Char → List Char → Prop) : Prop where
  inserted : ∀ original replacement, allowed original replacement → ∀ before rest,
    traceFrom pass.traced before 0 (replacement ++ rest) =
      Row.plain replacement ++ traceFrom pass.traced (replacement.getLast?.or before) 0 rest
  kept : ∀ outer row, Placed allowed outer row → ∀ before fit after,
    pass.traced before row.output = some (fit, after) →
      (∃ c rest, row = .kept c :: rest) →
      ∃ front back whole, row = front ++ back ∧ front ≠ [] ∧ Row.output back = after ∧
        Composes front fit whole

/-- A pass that spares inserted texts makes one row with every row that inserts such texts. -/
theorem Pass.Spares.exists_composes {pass : Pass} {allowed : List Char → List Char → Prop}
    (spares : pass.Spares allowed) {outer : Option Char} {first : Row}
    (placed : Placed allowed outer first) (before : Option Char) :
    ∃ whole, Composes first (traceFrom pass.traced before 0 first.output) whole := by
  induction size : first.length using Nat.strongRecOn generalizing first outer before with
  | ind count inductionHypothesis =>
    cases placed with
    | nil => exact ⟨[], .nil⟩
    | @kept _ c rest more =>
      rw [List.length_cons] at size
      have text : Row.output (.kept c :: rest) = c :: Row.output rest := Row.output_cons _ _
      cases answer : pass.traced before (c :: Row.output rest) with
      | none =>
        obtain ⟨whole, together⟩ := inductionHypothesis rest.length (by omega) more (some c) rfl
        rw [text, traceFrom_of_none answer]
        exact ⟨.kept c :: whole, .kept c together⟩
      | some found =>
        obtain ⟨fit, after⟩ := found
        obtain ⟨front, back, inner, split, isCovered, rfl, innerTogether⟩ :=
          spares.kept outer _ (.kept more) before fit after (text ▸ answer) ⟨c, rest, rfl⟩
        obtain ⟨covered, nonempty⟩ := pass.covers before _ fit _ answer
        have behind : Placed allowed (Row.original front |>.getLast?.or outer) back := by
          apply Placed.of_append
          rw [← split]
          exact .kept more
        have shorter : back.length < count := by
          have total := congrArg List.length split
          have positive : 0 < front.length := List.length_pos_iff.mpr isCovered
          rw [List.length_cons, List.length_append] at total
          omega
        obtain ⟨whole, together⟩ :=
          inductionHypothesis back.length shorter behind (fit.original.getLast?.or before) rfl
        rw [covered] at answer
        rw [text, covered, traceFrom_of_fit nonempty answer, split]
        exact ⟨inner ++ whole, innerTogether.append together⟩
    | @replaced _ original replacement rest starts isAllowed more =>
      rw [List.length_cons] at size
      obtain ⟨whole, together⟩ :=
        inductionHypothesis rest.length (by omega) more (replacement.getLast?.or before) rfl
      have text : Row.output (.replaced original replacement :: rest) =
          replacement ++ Row.output rest := Row.output_cons _ _
      rw [text, spares.inserted original replacement isAllowed]
      exact ⟨_, .earlier original replacement together⟩

/-! ## Passes one after another -/

/-- The passes, one after another, as one row: none of them replaces anything that an earlier one
inserted. -/
inductive Together : Row → List Pass → Row → Prop
  | nil (row : Row) : Together row [] row
  | cons {row next whole : Row} {pass : Pass} {passes : List Pass}
      (step : Composes row (pass.trace row.output) next) (more : Together next passes whole) :
      Together row (pass :: passes) whole

theorem Together.original_eq {row whole : Row} {passes : List Pass}
    (together : Together row passes whole) : whole.original = row.original := by
  induction together with
  | nil row => rfl
  | cons step _ inductionHypothesis => rw [inductionHypothesis, step.original_eq]

theorem Together.output_eq {row whole : Row} {passes : List Pass}
    (together : Together row passes whole) :
    whole.output = passes.foldl (fun text pass => (pass.trace text).output) row.output := by
  induction together with
  | nil row => rfl
  | cons step _ inductionHypothesis => rw [inductionHypothesis, step.output_eq, List.foldl_cons]

/-- What one of several passes may replace. -/
def AllowedBy (passes : List Pass) (original replacement : List Char) : Prop :=
  ∃ pass ∈ passes, pass.allowed original replacement

/-- Each pass spares what the passes before it insert, and these insert words. -/
def SparingAfter (earlier : List Pass) : List Pass → Prop
  | [] => True
  | pass :: passes => InsertsWords (AllowedBy earlier) ∧ pass.Spares (AllowedBy earlier) ∧
      SparingAfter (earlier ++ [pass]) passes

theorem Placed.eq_plain {before : Option Char} {row : Row}
    (placed : Placed (AllowedBy []) before row) : row = Row.plain row.output := by
  induction placed with
  | nil => rfl
  | kept _ inductionHypothesis =>
    rw [Row.output_cons, Row.plain_append, ← inductionHypothesis]
    rfl
  | replaced _ isAllowed _ _ =>
    obtain ⟨pass, member, -⟩ := isAllowed
    exact absurd member List.not_mem_nil

/-- Where nothing was inserted every pass is sparing. -/
theorem Pass.spares_nothing (pass : Pass) : pass.Spares (AllowedBy []) where
  inserted := by
    rintro original replacement ⟨other, member, -⟩
    exact absurd member List.not_mem_nil
  kept := by
    intro outer row placed before fit after answer _
    obtain ⟨covered, nonempty⟩ := pass.covers before _ fit after answer
    refine ⟨Row.plain fit.original, Row.plain after, fit, ?_, ?_, Row.output_plain after,
      plain_composes fit⟩
    · rw [← Row.plain_append, ← covered]
      exact placed.eq_plain
    · simpa [Row.plain] using nonempty

theorem exists_together {earlier passes : List Pass} (sparing : SparingAfter earlier passes)
    {row : Row} (placed : Placed (AllowedBy earlier) none row) :
    ∃ whole, Together row passes whole ∧ Placed (AllowedBy (earlier ++ passes)) none whole := by
  induction passes generalizing earlier row with
  | nil =>
    rw [List.append_nil]
    exact ⟨row, .nil row, placed⟩
  | cons pass passes inductionHypothesis =>
    obtain ⟨words, spares, sparingLater⟩ := sparing
    obtain ⟨next, step⟩ := spares.exists_composes placed none
    have placedNext : Placed (AllowedBy (earlier ++ [pass])) none next := by
      apply (step.placed words placed (pass.placed_trace row.output) fun _ => rfl).mono
      rintro original replacement (⟨other, member, isAllowed⟩ | isAllowed)
      · exact ⟨other, List.mem_append_left _ member, isAllowed⟩
      · exact ⟨pass, List.mem_append_right _ List.mem_cons_self, isAllowed⟩
    obtain ⟨whole, more, placedWhole⟩ := inductionHypothesis sparingLater placedNext
    rw [List.append_assoc, List.singleton_append] at placedWhole
    exact ⟨whole, .cons step more, placedWhole⟩

end FlatLiquid.Text
