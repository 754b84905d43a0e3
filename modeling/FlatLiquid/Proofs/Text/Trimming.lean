import FlatLiquid.Text.Blank

/-!
Contract: texts without the blanks around them.

Owns:
- what is left of a text behind its leading blanks;
- trimmed texts, which are what trimming leaves of them among blanks.
-/

namespace FlatLiquid.Text

/-! ## Leading blanks -/

theorem skipBlanks_of_head? {text : List Char} (starts : ∀ c ∈ text.head?, isBlank c = false) :
    skipBlanks text = text := by
  cases text with
  | nil => rfl
  | cons c rest =>
    rw [skipBlanks, List.dropWhile_cons, starts c rfl]
    rfl

theorem skipBlanks_append {blanks rest : List Char} (blank : blanks.all isBlank = true)
    (starts : ∀ c ∈ rest.head?, isBlank c = false) : skipBlanks (blanks ++ rest) = rest := by
  rw [skipBlanks, List.dropWhile_append_of_pos (List.all_eq_true.mp blank)]
  exact skipBlanks_of_head? starts

theorem exists_blanks (text : List Char) :
    ∃ blanks, blanks.all isBlank = true ∧ text = blanks ++ skipBlanks text :=
  ⟨text.takeWhile isBlank, List.all_takeWhile, List.takeWhile_append_dropWhile.symm⟩

theorem head?_skipBlanks (text : List Char) :
    ∀ c ∈ (skipBlanks text).head?, isBlank c = false := by
  intro c first
  have stops := List.head?_dropWhile_not isBlank text
  rw [← skipBlanks, first] at stops
  exact stops

/-! ## Trimmed texts -/

/-- No blank stands at either end of the text. -/
structure IsTrimmed (text : List Char) : Prop where
  starts : ∀ c ∈ text.head?, isBlank c = false
  ends : ∀ c ∈ text.getLast?, isBlank c = false

/-- A trimmed text is what trimming leaves of it among blanks. -/
theorem IsTrimmed.trim_surrounded {text front back : List Char} (trimmed : IsTrimmed text)
    (blankFront : front.all isBlank = true) (blankBack : back.all isBlank = true) :
    trim (front ++ text ++ back) = text := by
  have blankReversed : back.reverse.all isBlank = true := by rw [List.all_reverse, blankBack]
  cases text with
  | nil =>
    have blank : (front ++ back).all isBlank = true := by
      rw [List.all_append, blankFront, blankBack]
      rfl
    have nothing : skipBlanks (front ++ back ++ []) = [] :=
      skipBlanks_append blank fun _ none => nomatch none
    rw [List.append_nil] at nothing
    rw [List.append_nil, trim, nothing]
    rfl
  | cons c rest =>
    have cutFront : skipBlanks (front ++ (c :: rest) ++ back) = c :: rest ++ back := by
      rw [List.append_assoc]
      exact skipBlanks_append blankFront trimmed.starts
    have cutBack : skipBlanks (c :: rest ++ back).reverse = (c :: rest).reverse := by
      rw [List.reverse_append]
      refine skipBlanks_append blankReversed ?_
      rw [List.head?_reverse]
      exact trimmed.ends
    rw [trim, cutFront, cutBack, List.reverse_reverse]

/-- Behind its leading blanks, a text is its trimmed text and blanks. -/
theorem exists_blanks_behind_trim (text : List Char) :
    ∃ back, back.all isBlank = true ∧ skipBlanks text = trim text ++ back := by
  obtain ⟨back, blank, split⟩ := exists_blanks (skipBlanks text).reverse
  have behind := congrArg List.reverse split
  rw [List.reverse_reverse, List.reverse_append] at behind
  exact ⟨back.reverse, List.all_reverse.trans blank, behind⟩

/-- A text is its trimmed text among blanks. -/
theorem exists_blanks_around_trim (text : List Char) :
    ∃ front back, front.all isBlank = true ∧ back.all isBlank = true ∧
      text = front ++ trim text ++ back := by
  obtain ⟨front, blankFront, split⟩ := exists_blanks text
  obtain ⟨back, blankBack, behind⟩ := exists_blanks_behind_trim text
  refine ⟨front, back, blankFront, blankBack, ?_⟩
  rw [List.append_assoc, ← behind]
  exact split

theorem isTrimmed_trim (text : List Char) : IsTrimmed (trim text) where
  starts := by
    intro c first
    obtain ⟨back, -, behind⟩ := exists_blanks_behind_trim text
    apply head?_skipBlanks text c
    rw [behind, List.head?_append, Option.mem_def.mp first]
    rfl
  ends := by
    rw [trim, List.getLast?_reverse]
    exact head?_skipBlanks _

theorem isInfix_trim (text : List Char) : trim text <:+: text := by
  obtain ⟨front, back, -, -, split⟩ := exists_blanks_around_trim text
  exact ⟨front, back, split.symm⟩

end FlatLiquid.Text
