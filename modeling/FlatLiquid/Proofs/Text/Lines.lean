import FlatLiquid.Text.Blank

/-!
Contract: the lines of a text.

Owns:
- whole lines, which are the texts behind which a line starts;
- the lines of a text that starts with whole lines, and how many those are;
- rows that each end in a line feed, which are read back from the text that they make.
-/

namespace FlatLiquid.Text

/-! ## Lines of a text -/

/-- A line feed before the next character ends a line as well, so it is not looked at twice. -/
theorem lines_cons (c : Char) (rest : List Char) :
    lines (c :: rest) =
      if c = '\n' then [] :: lines rest
      else if c = '\r' ∧ rest.head? = some '\n' then lines rest
      else match lines rest with
        | [] => [[c]]
        | line :: others => (c :: line) :: others := by
  split
  · next feed => rw [feed, lines.eq_3]
  · next other =>
    split
    · next both =>
      obtain ⟨rfl, feed⟩ := both
      obtain ⟨more, rfl⟩ := List.head?_eq_some_iff.mp feed
      rw [lines.eq_2, lines.eq_3]
    · next single =>
      refine lines.eq_4 c rest ?_ other
      rintro more rfl rfl
      exact single ⟨rfl, rfl⟩

theorem lines_ne_nil {text : List Char} (nonempty : text ≠ []) : lines text ≠ [] := by
  induction text with
  | nil => contradiction
  | cons c rest inductionHypothesis =>
    rw [lines_cons]
    split
    · exact List.cons_ne_nil _ _
    · split
      · next both =>
        apply inductionHypothesis
        rintro rfl
        exact nomatch both.2
      · split <;> exact List.cons_ne_nil _ _

theorem not_mem_of_mem_lines {text line : List Char} (member : line ∈ lines text) : '\n' ∉ line := by
  induction text generalizing line with
  | nil => contradiction
  | cons c rest inductionHypothesis =>
    rw [lines_cons] at member
    split at member
    · rcases List.mem_cons.mp member with rfl | later
      · exact List.not_mem_nil
      · exact inductionHypothesis later
    · next other =>
      split at member
      · exact inductionHypothesis member
      · split at member
        · obtain rfl := List.mem_singleton.mp member
          exact fun feed => other (List.mem_singleton.mp feed).symm
        · next first others shape =>
          rw [shape] at inductionHypothesis
          rcases List.mem_cons.mp member with rfl | later
          · intro feed
            rcases List.mem_cons.mp feed with here | within
            · exact other here.symm
            · exact inductionHypothesis List.mem_cons_self within
          · exact inductionHypothesis (List.mem_cons_of_mem first later)

/-! ## Whole lines -/

/-- The text is empty or ends in a line feed. -/
def IsWholeLines (text : List Char) : Prop :=
  ∀ c ∈ text.getLast?, c = '\n'

theorem IsWholeLines.tail {c : Char} {rest : List Char} (whole : IsWholeLines (c :: rest)) :
    IsWholeLines rest := by
  intro last ends
  apply whole
  rw [List.getLast?_cons, ends]
  rfl

/-- Behind a character that is no line feed, whole lines go on. -/
theorem IsWholeLines.rest_ne_nil {c : Char} {rest : List Char} (whole : IsWholeLines (c :: rest))
    (other : c ≠ '\n') : rest ≠ [] := by
  rintro rfl
  exact other (whole c rfl)

/-- Lines are counted by their line feeds. -/
theorem IsWholeLines.length_lines {text : List Char} (whole : IsWholeLines text) :
    (lines text).length = text.count '\n' := by
  induction text with
  | nil => rfl
  | cons c rest inductionHypothesis =>
    have later := inductionHypothesis whole.tail
    rw [lines_cons, List.count_cons]
    by_cases feed : c = '\n'
    · rw [if_pos feed, if_pos (beq_iff_eq.mpr feed), List.length_cons, later]
    · rw [if_neg feed]
      have uncounted : ¬ (c == '\n') = true := fun same => feed (beq_iff_eq.mp same)
      rw [if_neg uncounted, Nat.add_zero, ← later]
      split
      · rfl
      · obtain ⟨line, others, shape⟩ :=
          List.exists_cons_of_ne_nil (lines_ne_nil (whole.rest_ne_nil feed))
        rw [shape]
        rfl

/-- Behind whole lines, a text is cut into lines as if it stood alone. -/
theorem IsWholeLines.lines_append {front : List Char} (whole : IsWholeLines front)
    (back : List Char) : lines (front ++ back) = lines front ++ lines back := by
  induction front with
  | nil => rfl
  | cons c rest inductionHypothesis =>
    rw [List.cons_append, lines_cons, lines_cons, inductionHypothesis whole.tail]
    split
    · rfl
    · next other =>
      obtain ⟨next, more, rfl⟩ := List.exists_cons_of_ne_nil (whole.rest_ne_nil other)
      rw [List.cons_append, List.head?_cons, List.head?_cons]
      split
      · rfl
      · obtain ⟨line, others, shape⟩ :=
          List.exists_cons_of_ne_nil (lines_ne_nil (List.cons_ne_nil next more))
        rw [shape]
        rfl

/-! ## Rows that end in line feeds -/

/-- Rows without line feeds are read back from the text in which each of them ends in one. -/
theorem splitOn_rows {rows : List (List Char)} (free : ∀ row ∈ rows, '\n' ∉ row) :
    (rows.flatMap (· ++ ['\n'])).splitOn '\n' = rows ++ [[]] := by
  rw [List.splitOn_eq_splitOnP]
  induction rows with
  | nil => rfl
  | cons row rows inductionHypothesis =>
    have unlike : ∀ c ∈ row, (c == '\n') = false := by
      intro c member
      rw [beq_eq_false_iff_ne]
      rintro rfl
      exact free row List.mem_cons_self member
    rw [List.flatMap_cons, List.append_assoc, List.singleton_append,
      List.splitOnP_append_cons_of_forall_mem unlike '\n' (by decide),
      inductionHypothesis fun later member => free later (List.mem_cons_of_mem row member),
      List.cons_append]

end FlatLiquid.Text
