import FlatLiquid.Text.Uppercase

/-!
Contract: what an upper case never is.

Main statements: an upper case is not empty, and it holds no small ASCII letter. The tables of
characters are gone through once, entry by entry, and each run by its two ends.
-/

namespace FlatLiquid.Text

/-- No expansion is empty, and none holds a small ASCII letter. -/
theorem expansions_apart :
    ∀ entry ∈ uppercaseExpansions, entry.2 ≠ [] ∧
      ∀ code ∈ entry.2, (Char.ofNat code).isLower = false := by
  decide +kernel

/-- No run leads to the small ASCII letters. -/
theorem runs_apart :
    ∀ run ∈ uppercaseRuns, (run.last + run.shift < 0x61 : Prop) ∨ 0x7A < run.first + run.shift := by
  decide +kernel

theorem ascii_apart : ∀ code < 0x80, (Char.ofNat code).toUpper.isLower = false := by
  decide +kernel

theorem isLower_iff {c : Char} : c.isLower = true ↔ 0x61 ≤ c.toNat ∧ c.toNat ≤ 0x7A := by
  have tested : c.isLower = (decide (0x61 ≤ c.val) && decide (c.val ≤ 0x7A)) := rfl
  simp [tested, UInt32.le_iff_toNat_le, ← Char.toNat_val]

/-- Only the code point of a small ASCII letter makes one. -/
theorem code_of_isLower_ofNat {code : Nat} (lower : (Char.ofNat code).isLower = true) :
    0x61 ≤ code ∧ code ≤ 0x7A := by
  by_cases valid : code.isValidChar
  · have made : Char.ofNat code = Char.ofNatAux code valid := dif_pos valid
    rw [made] at lower
    exact isLower_iff.mp lower
  · have made : Char.ofNat code = Char.ofNat 0 := dif_neg valid
    rw [made] at lower
    exact absurd lower (by decide)

theorem uppercase_ne_nil (c : Char) : uppercase c ≠ [] := by
  unfold uppercase
  split
  · exact List.cons_ne_nil _ _
  · split
    · next codes found =>
      have member := List.mem_of_find?_eq_some found
      simpa using (expansions_apart _ member).1
    · split <;> exact List.cons_ne_nil _ _

theorem not_isLower_of_mem_uppercase {c x : Char} (member : x ∈ uppercase c) :
    x.isLower = false := by
  unfold uppercase at member
  split at member
  · next ascii =>
    rw [List.mem_singleton.mp member, ← Char.ofNat_toNat c]
    exact ascii_apart c.toNat ascii
  · next large =>
    split at member
    · next codes found =>
      obtain ⟨code, inCodes, rfl⟩ := List.mem_map.mp member
      exact (expansions_apart _ (List.mem_of_find?_eq_some found)).2 code inCodes
    · split at member
      · next run found =>
        rw [List.mem_singleton.mp member, ← Bool.not_eq_true]
        intro lower
        have covers := List.find?_some found
        have apart := runs_apart run (List.mem_of_find?_eq_some found)
        have letters := code_of_isLower_ofNat lower
        simp only [CaseRun.covers, Bool.and_eq_true, decide_eq_true_eq] at covers
        omega
      · rw [List.mem_singleton.mp member, ← Bool.not_eq_true, isLower_iff]
        omega

end FlatLiquid.Text
