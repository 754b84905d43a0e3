import FlatLiquid.Text.Blank
import FlatLiquid.Text.Word

/-!
Contract: how the classes of characters lie to each other.

Owns:
- the ranges of word characters and the blanks, which are apart from each other in every script;
- the letters and digits of ASCII, which are word characters;
- the blank in front of a word, which is all that is passed over there;
- the word at the front of a text, and where it ends.
-/

namespace FlatLiquid.Text

/-- The blanks beyond ASCII lie in these ranges of code points, which hold no word character. -/
def blankRanges : List (Nat × Nat) :=
  [(0x85, 0x85), (0xA0, 0xA0), (0x1680, 0x1680), (0x2000, 0x200A), (0x2028, 0x202F),
    (0x205F, 0x205F), (0x3000, 0x3000)]

theorem blankRanges_apart :
    ∀ blanks ∈ blankRanges, ∀ words ∈ wordRanges, words.2 < blanks.1 ∨ blanks.2 < words.1 := by
  decide +kernel

theorem exists_blankRange {c : Char} (blank : isBlank c = true) (beyond : ¬ c.toNat < 0x80) :
    ∃ blanks ∈ blankRanges, blanks.1 ≤ c.toNat ∧ c.toNat ≤ blanks.2 := by
  simp only [isBlank, Bool.or_eq_true, Bool.and_eq_true, decide_eq_true_eq, beq_iff_eq] at blank
  simp only [blankRanges, List.mem_cons, List.not_mem_nil, or_false, exists_eq_or_imp,
    exists_eq_left]
  omega

theorem not_isWordChar_of_isBlank {c : Char} (blank : isBlank c = true) : isWordChar c = false := by
  by_cases ascii : c.toNat < 0x80
  · have code : c = Char.ofNat c.toNat := (Char.ofNat_toNat c).symm
    have six : c.toNat = 32 ∨ c.toNat = 9 ∨ c.toNat = 10 ∨ c.toNat = 11 ∨ c.toNat = 12 ∨
        c.toNat = 13 := by
      simp only [isBlank, Bool.or_eq_true, Bool.and_eq_true, decide_eq_true_eq, beq_iff_eq] at blank
      omega
    rcases six with number | number | number | number | number | number <;>
    · rw [code, number]
      decide
  · obtain ⟨blanks, isRange, above, below⟩ := exists_blankRange blank ascii
    rw [isWordChar, if_neg ascii]
    refine List.any_eq_false.mpr fun words member inside => ?_
    have apart := blankRanges_apart blanks isRange words member
    simp only [Bool.and_eq_true, decide_eq_true_eq] at inside
    omega

theorem isWordChar_of_isAlphanum {c : Char} (alphanum : c.isAlphanum = true) :
    isWordChar c = true := by
  have ascii : c.toNat < 0x80 := by
    have ranges : (c.isUpper || c.isLower || c.isDigit) = true := alphanum
    delta Char.isUpper Char.isLower Char.isDigit at ranges
    simp only [Bool.or_eq_true, Bool.and_eq_true, decide_eq_true_eq, UInt32.le_iff_toNat_le,
      ge_iff_le] at ranges
    change ((65 ≤ c.toNat ∧ c.toNat ≤ 90) ∨ (97 ≤ c.toNat ∧ c.toNat ≤ 122)) ∨
      (48 ≤ c.toNat ∧ c.toNat ≤ 57) at ranges
    omega
  rw [isWordChar, if_pos ascii, alphanum, Bool.true_or]

theorem skipBlanks_word {word : List Char} (named : word ≠ [])
    (inside : ∀ c ∈ word, isWordChar c = true) (rest : List Char) :
    skipBlanks (' ' :: (word ++ rest)) = word ++ rest := by
  obtain ⟨first, tail, rfl⟩ := List.exists_cons_of_ne_nil named
  have notBlank : ¬ isBlank first = true := by
    intro blank
    have isWord := inside first List.mem_cons_self
    rw [not_isWordChar_of_isBlank blank] at isWord
    contradiction
  have space : isBlank ' ' = true := by decide
  rw [skipBlanks, List.dropWhile_cons, if_pos space, List.cons_append, List.dropWhile_cons,
    if_neg notBlank]

theorem isWordChar_of_mem_wordOf {text : List Char} : ∀ c ∈ wordOf text, isWordChar c = true :=
  List.all_eq_true.mp List.all_takeWhile

/-- What follows the word at the front of a text does not run on with it. -/
theorem endsWord_afterWord (text : List Char) : endsWord (afterWord text) = true := by
  have stops := List.head?_dropWhile_not isWordChar text
  rw [endsWord, afterWord]
  cases first : (text.dropWhile isWordChar).head? with
  | none => rfl
  | some c =>
    rw [first] at stops
    simp [show isWordChar c = false from stops]

theorem exists_cons_of_endsWord {text : List Char} (starts : endsWord text = false) :
    ∃ c rest, text = c :: rest ∧ isWordChar c = true := by
  cases text with
  | nil => contradiction
  | cons c rest => exact ⟨c, rest, rfl, by simpa [endsWord] using starts⟩

/-- A text is apart from a class of characters if none of them is found in a run over it. -/
theorem eq_false_of_any_eq_false {isMember : Char → Bool} {text : List Char}
    (none : text.any isMember = false) : ∀ c ∈ text, isMember c = false :=
  fun c member => eq_false_of_ne_true (List.any_eq_false.mp none c member)

end FlatLiquid.Text
