import FlatLiquid.Proofs.Text.Replacement

/-!
Contract: how a pass that collects goes through a text.

Owns:
- the step of the pass over a fit, over characters that a fit covers, and over characters at which the
  rule does not fit;
- where a value that is found comes from.
-/

namespace FlatLiquid.Text

variable {α : Type} {rule : Rule α}

/-- Characters that a fit covers are passed over. -/
theorem findFrom_skip (before : Option Char) (covered rest : List Char) :
    findFrom rule before covered.length (covered ++ rest) =
      findFrom rule (covered.getLast?.or before) 0 rest := by
  induction covered generalizing before with
  | nil => rfl
  | cons c tail inductionHypothesis =>
    rw [List.length_cons, List.cons_append, findFrom, inductionHypothesis, getLast?_cons_or]

/-- Where the rule fits, the pass goes on after what it covers. -/
theorem findFrom_of_fit {before : Option Char} {covered rest : List Char} {value : α}
    (nonempty : covered ≠ []) (fits : rule before (covered ++ rest) = some (value, rest)) :
    findFrom rule before 0 (covered ++ rest) =
      value :: findFrom rule (covered.getLast?.or before) 0 rest := by
  obtain ⟨c, tail, rfl⟩ := List.exists_cons_of_ne_nil nonempty
  have skipped : (tail ++ rest).length - rest.length = tail.length := by
    rw [List.length_append, Nat.add_sub_cancel]
  rw [List.cons_append] at fits ⊢
  rw [findFrom, fits, getLast?_cons_or]
  simp only
  rw [skipped, findFrom_skip]

theorem findFrom_of_none {before : Option Char} {c : Char} {rest : List Char}
    (unfit : rule before (c :: rest) = none) :
    findFrom rule before 0 (c :: rest) = findFrom rule (some c) 0 rest := by
  rw [findFrom, unfit]

/-- What is found is what the rule answers somewhere in the text. -/
theorem exists_fit_of_mem {before : Option Char} {skip : Nat} {text : List Char} {value : α}
    (member : value ∈ findFrom rule before skip text) :
    ∃ before suffix after, suffix <:+ text ∧ rule before suffix = some (value, after) := by
  induction text generalizing before skip with
  | nil => exact absurd member List.not_mem_nil
  | cons c rest inductionHypothesis =>
    have later {before : Option Char} {skip : Nat} (member : value ∈ findFrom rule before skip rest) :
        ∃ before suffix after, suffix <:+ c :: rest ∧ rule before suffix = some (value, after) := by
      obtain ⟨before, suffix, after, within, fits⟩ := inductionHypothesis member
      exact ⟨before, suffix, after, within.trans (List.suffix_cons c rest), fits⟩
    cases skip with
    | succ skip => exact later member
    | zero =>
      rw [findFrom] at member
      split at member
      · next found after fits =>
        rcases List.mem_cons.mp member with rfl | behind
        · exact ⟨before, c :: rest, after, List.suffix_refl _, fits⟩
        · exact later behind
      · exact later member

/-- In a text in which the rule fits nowhere nothing is found, up to the text behind it. -/
theorem findFrom_of_unfit {plain : List Char} (before : Option Char) (rest : List Char)
    (unfit : ∀ front c back, plain = front ++ c :: back →
      rule (front.getLast?.or before) (c :: (back ++ rest)) = none) :
    findFrom rule before 0 (plain ++ rest) =
      findFrom rule (plain.getLast?.or before) 0 rest := by
  induction plain generalizing before with
  | nil => rfl
  | cons c tail inductionHypothesis =>
    have here : rule before (c :: (tail ++ rest)) = none := unfit [] c tail rfl
    have later := inductionHypothesis (some c) fun front d back shape => by
      have unfitLater := unfit (c :: front) d back (congrArg (c :: ·) shape)
      rw [getLast?_cons_or] at unfitLater
      exact unfitLater
    rw [List.cons_append, findFrom_of_none here, later, getLast?_cons_or]

end FlatLiquid.Text
