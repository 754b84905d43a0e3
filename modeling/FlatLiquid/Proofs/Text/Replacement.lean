import FlatLiquid.Text.Replace
import FlatLiquid.Text.Word

/-!
Contract: how a replacement pass goes through a text that is put together from parts.

Owns:
- the step over a fit, and over characters at which the rule fits nowhere;
- texts that a rule leaves as they are;
- seams, across which the rule does not look, so that the pass treats the two sides on their own.
-/

namespace FlatLiquid.Text

variable {rule : Rule (List Char)}

/-- The character before a text that follows another one is the last one of that, if it has one. -/
theorem getLast?_cons_or (c : Char) (covered : List Char) (before : Option Char) :
    (c :: covered).getLast?.or before = covered.getLast?.or (some c) := by
  rw [List.getLast?_cons]
  cases covered.getLast? <;> rfl

/-- Characters that a fit covers are passed over. -/
theorem replaceFrom_skip (rule : Rule (List Char)) (before : Option Char) (covered rest : List Char) :
    replaceFrom rule before covered.length (covered ++ rest) =
      replaceFrom rule (covered.getLast?.or before) 0 rest := by
  induction covered generalizing before with
  | nil => rfl
  | cons c tail inductionHypothesis =>
    rw [List.length_cons, List.cons_append, replaceFrom, inductionHypothesis, getLast?_cons_or]

/-- Where the rule fits, its answer takes the place of what it covers. -/
theorem replaceFrom_of_fit {before : Option Char} {c : Char} {covered rest replacement : List Char}
    (fits : rule before (c :: covered ++ rest) = some (replacement, rest)) :
    replaceFrom rule before 0 (c :: covered ++ rest) =
      replacement ++ replaceFrom rule (c :: covered).getLast? 0 rest := by
  rw [List.cons_append] at fits ⊢
  have skipped : (covered ++ rest).length - rest.length = covered.length := by
    rw [List.length_append, Nat.add_sub_cancel]
  have lastCovered : covered.getLast?.or (some c) = (c :: covered).getLast? := by
    rw [← getLast?_cons_or c covered none, Option.or_none]
  rw [replaceFrom, fits]
  simp only
  rw [skipped, replaceFrom_skip, lastCovered]

/-- Characters at which the rule never fits stay as they are. -/
theorem replaceFrom_of_unfit {plain : List Char} (before : Option Char) (rest : List Char)
    (unfit : ∀ c ∈ plain, ∀ before tail, rule before (c :: tail) = none) :
    replaceFrom rule before 0 (plain ++ rest) =
      plain ++ replaceFrom rule (plain.getLast?.or before) 0 rest := by
  induction plain generalizing before with
  | nil => rfl
  | cons c tail inductionHypothesis =>
    have here := unfit c List.mem_cons_self before (tail ++ rest)
    have later := inductionHypothesis (some c) fun other member =>
      unfit other (List.mem_cons_of_mem c member)
    rw [List.cons_append, replaceFrom, here, getLast?_cons_or]
    simp only
    rw [later, List.cons_append]

/-- A text stays as it is if the rule fits nowhere in it. -/
theorem replaceFrom_of_unfit_suffix {text : List Char} (before : Option Char)
    (unfit : ∀ before suffix, suffix <:+ text → rule before suffix = none) :
    replaceFrom rule before 0 text = text := by
  induction text generalizing before with
  | nil => rfl
  | cons c rest inductionHypothesis =>
    have here := unfit before (c :: rest) (List.suffix_refl _)
    have later := inductionHypothesis (some c) fun before suffix isSuffix =>
      unfit before suffix (isSuffix.trans (List.suffix_cons c rest))
    rw [replaceFrom, here]
    simp only
    rw [later]

/-- A character at which the rule never fits hides what stands before it. -/
theorem replaceFrom_of_unfit_head {text : List Char} (left right : Option Char)
    (unfit : ∀ c ∈ text.head?, ∀ before tail, rule before (c :: tail) = none) :
    replaceFrom rule left 0 text = replaceFrom rule right 0 text := by
  cases text with
  | nil => rfl
  | cons c rest =>
    rw [replaceFrom, replaceFrom, unfit c rfl left rest, unfit c rfl right rest]

/-! ## Seams -/

/-- From no place in the left text does the rule look into the right one. -/
def KeepsApart (rule : Rule (List Char)) (left right : List Char) : Prop :=
  ∀ before text, text <:+ left → text ≠ [] →
    rule before (text ++ right) = (rule before text).map fun fit => (fit.1, fit.2 ++ right)

theorem KeepsApart.tail {c : Char} {left right : List Char}
    (apart : KeepsApart rule (c :: left) right) : KeepsApart rule left right :=
  fun before text isSuffix => apart before text (isSuffix.trans (List.suffix_cons c left))

theorem KeepsApart.replaceFrom_append {left right : List Char} (apart : KeepsApart rule left right)
    (before : Option Char) {skip : Nat} (within : skip ≤ left.length) :
    replaceFrom rule before skip (left ++ right) =
      replaceFrom rule before skip left ++
        replaceFrom rule (left.getLast?.or before) 0 right := by
  induction left generalizing before skip with
  | nil =>
    obtain rfl : skip = 0 := Nat.le_zero.mp within
    rfl
  | cons c rest inductionHypothesis =>
    have lastOf := getLast?_cons_or c rest before
    have later {skip : Nat} (within : skip ≤ rest.length) :=
      inductionHypothesis apart.tail (some c) within
    rw [lastOf]
    cases skip with
    | succ skip =>
      rw [List.cons_append, replaceFrom, replaceFrom, later (Nat.le_of_succ_le_succ within)]
    | zero =>
      have looked := apart before (c :: rest) (List.suffix_refl _) (List.cons_ne_nil c rest)
      rw [List.cons_append] at looked
      rw [List.cons_append, replaceFrom, replaceFrom, looked]
      cases rule before (c :: rest) with
      | none =>
        simp only [Option.map_none]
        rw [later (Nat.zero_le rest.length), List.cons_append]
      | some fit =>
        have covered : (rest ++ right).length - (fit.2 ++ right).length =
            rest.length - fit.2.length := by
          rw [List.length_append, List.length_append, Nat.add_sub_add_right]
        simp only [Option.map_some]
        rw [covered, later (Nat.sub_le rest.length fit.2.length), List.append_assoc]

/-- At a seam the pass falls into two. The right part goes on from the last character of the left
one. -/
theorem KeepsApart.replaceAll_append {left right : List Char} (apart : KeepsApart rule left right) :
    replaceAll rule (left ++ right) =
      replaceAll rule left ++ replaceFrom rule left.getLast? 0 right := by
  have parts := apart.replaceFrom_append none (Nat.zero_le left.length)
  rw [Option.or_none] at parts
  exact parts

end FlatLiquid.Text
