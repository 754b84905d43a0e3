import Mathlib.Data.List.Basic

/-!
Contract: where a word can stand within a text that is put together.

Owns:
- a word at the front of a text, or within it, around a character that it does not hold;
- the parts of a joined text, and the part that holds a word of the joined text;
- parts that are joined in two groups.
-/

namespace FlatLiquid.Text

/-- A word at the front of a text does not reach a character that it does not hold. -/
theorem prefix_of_prefix_around {word front back : List Char} {c : Char} (outside : c ∉ word)
    (starts : word <+: front ++ c :: back) : word <+: front := by
  rcases Nat.lt_or_ge front.length word.length with longer | shorter
  · have begins : front ++ [c] <+: front ++ c :: back := ⟨back, by simp⟩
    have reached : front ++ [c] <+: word := by
      apply List.prefix_of_prefix_length_le begins starts
      rw [List.length_append]
      exact longer
    exact absurd (reached.subset (by simp)) outside
  · exact List.prefix_of_prefix_length_le starts (List.prefix_append _ _) shorter

theorem infix_of_infix_cons {word text : List Char} {c : Char} (outside : c ∉ word)
    (within : word <:+: c :: text) : word <:+: text := by
  rcases List.infix_cons_iff.mp within with starts | later
  · have empty : word <+: [] := prefix_of_prefix_around outside starts
    exact empty.isInfix.trans (List.nil_infix)
  · exact later

/-- A word within a text does not start in a front that does not hold its first character. -/
theorem infix_of_infix_append {first : Char} {more front back : List Char} (outside : first ∉ front)
    (within : first :: more <:+: front ++ back) : first :: more <:+: back := by
  induction front with
  | nil => exact within
  | cons c rest inductionHypothesis =>
    rcases List.infix_cons_iff.mp within with ⟨behind, starts⟩ | later
    · obtain ⟨rfl, -⟩ := List.cons.inj starts
      exact absurd List.mem_cons_self outside
    · exact inductionHypothesis (fun member => outside (List.mem_cons_of_mem c member)) later

/-- A word within a text stands on one side of a character that it does not hold. -/
theorem infix_of_infix_around {word front back : List Char} {c : Char} (outside : c ∉ word)
    (within : word <:+: front ++ c :: back) : word <:+: front ∨ word <:+: back := by
  induction front with
  | nil => exact .inr (infix_of_infix_cons outside within)
  | cons d rest inductionHypothesis =>
    rcases List.infix_cons_iff.mp within with starts | later
    · have short : word <+: d :: rest := prefix_of_prefix_around outside starts
      exact .inl short.isInfix
    · exact (inductionHypothesis later).imp_left fun found => List.infix_cons_iff.mpr (.inr found)

theorem intercalate_append {separator : List Char} {front behind : List (List Char)}
    (nonempty : front ≠ []) (more : behind ≠ []) :
    List.intercalate separator (front ++ behind) =
      List.intercalate separator front ++ (separator ++ List.intercalate separator behind) := by
  obtain ⟨first, rest, rfl⟩ := List.exists_cons_of_ne_nil nonempty
  induction rest generalizing first with
  | nil =>
    obtain ⟨next, others, rfl⟩ := List.exists_cons_of_ne_nil more
    rw [List.singleton_append, List.intercalate_cons_cons, List.intercalate_singleton,
      List.append_assoc]
  | cons second rest inductionHypothesis =>
    have later := inductionHypothesis second (List.cons_ne_nil _ _)
    rw [List.cons_append] at later
    rw [List.cons_append, List.cons_append, List.intercalate_cons_cons, List.intercalate_cons_cons,
      later]
    simp only [List.append_assoc]

theorem infix_intercalate_of_mem {part separator : List Char} {parts : List (List Char)}
    (member : part ∈ parts) : part <:+: List.intercalate separator parts := by
  induction parts with
  | nil => exact absurd member List.not_mem_nil
  | cons first rest inductionHypothesis =>
    cases rest with
    | nil =>
      obtain rfl := List.mem_singleton.mp member
      exact ⟨[], [], by rw [List.intercalate_singleton, List.nil_append, List.append_nil]⟩
    | cons second more =>
      rw [List.intercalate_cons_cons]
      rcases List.mem_cons.mp member with rfl | later
      · exact ⟨[], separator ++ List.intercalate separator (second :: more), by simp⟩
      · exact (inductionHypothesis later).trans (List.suffix_append _ _).isInfix

/-- A word within joined parts stands in one of them, if it does not hold what joins them. -/
theorem exists_part_of_infix_intercalate {word : List Char} {separator : Char}
    {parts : List (List Char)} (nonempty : parts ≠ []) (outside : separator ∉ word)
    (within : word <:+: List.intercalate [separator] parts) : ∃ part ∈ parts, word <:+: part := by
  obtain ⟨first, rest, rfl⟩ := List.exists_cons_of_ne_nil nonempty
  induction rest generalizing first with
  | nil =>
    rw [List.intercalate_singleton] at within
    exact ⟨first, List.mem_singleton_self first, within⟩
  | cons second more inductionHypothesis =>
    rw [List.intercalate_cons_cons, List.append_assoc] at within
    rcases infix_of_infix_around outside within with here | later
    · exact ⟨first, List.mem_cons_self, here⟩
    · obtain ⟨part, member, found⟩ := inductionHypothesis second (List.cons_ne_nil _ _) later
      exact ⟨part, List.mem_cons_of_mem first member, found⟩

end FlatLiquid.Text
