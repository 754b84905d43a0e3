import FlatLiquid.Proofs.Statement.Literals

/-!
Contract: what a split does to a text, and what it leaves alone.

Owns:
- the places of a text at which a delimiter starts;
- a text with spaces put behind some of its places, and how long it is;
- a split text as the text with a space behind each place at which a delimiter starts.

Delimiters may share a character. Whether a place gets a space hangs on the two characters from that
place on, as they are in the text and not in what is made of it, so runs of delimiters need no case
of their own.
-/

namespace FlatLiquid

/-! ## Spaces behind places -/

/-- A delimiter starts at a place of a text. -/
def startsDelimiter (text : List Char) (place : Nat) : Bool :=
  delimiterTexts.contains ((text.drop place).take 2)

/-- A text with a space behind each of its characters that stands at a place of the test. -/
def spacedBehind (test : Nat → Bool) (text : List Char) : List Char :=
  text.zipIdx.flatMap fun (c, place) => if test place then [c, ' '] else [c]

theorem spacedBehind_cons (test : Nat → Bool) (first : Char) (rest : List Char) :
    spacedBehind test (first :: rest) =
      (if test 0 then [first, ' '] else [first]) ++
        spacedBehind (fun place => test (place + 1)) rest := by
  unfold spacedBehind
  rw [List.zipIdx_cons, List.flatMap_cons, List.zipIdx_succ, List.flatMap_map]

/-- The characters of the text are all there, in their order. -/
theorem sublist_spacedBehind (test : Nat → Bool) (text : List Char) :
    text.Sublist (spacedBehind test text) := by
  induction text generalizing test with
  | nil => exact List.nil_sublist _
  | cons first rest inductionHypothesis =>
    have later := inductionHypothesis fun place => test (place + 1)
    rw [spacedBehind_cons]
    split
    · exact (later.cons ' ').cons_cons first
    · exact later.cons_cons first

/-- There is one character more for each place of the test. -/
theorem length_spacedBehind (test : Nat → Bool) (text : List Char) :
    (spacedBehind test text).length =
      text.length + (List.range text.length).countP test := by
  induction text generalizing test with
  | nil => rfl
  | cons first rest inductionHypothesis =>
    have later := inductionHypothesis fun place => test (place + 1)
    have places : (List.range (rest.length + 1)).countP test =
        (if test 0 then 1 else 0) +
          (List.range rest.length).countP fun place => test (place + 1) := by
      rw [List.range_succ_eq_map, List.countP_cons, List.countP_map, Nat.add_comm]
      rfl
    rw [spacedBehind_cons, List.length_append, later, List.length_cons, places]
    split
    · simp only [List.length_cons, List.length_nil]
      omega
    · simp only [List.length_cons, List.length_nil]
      omega

/-! ## Where delimiters start -/

theorem startsDelimiter_zero (first second : Char) (rest : List Char) :
    startsDelimiter (first :: second :: rest) 0 = isDelimiter first second := by
  rw [Bool.eq_iff_iff, isDelimiter_iff]
  simp [startsDelimiter]

theorem startsDelimiter_succ (first : Char) (rest : List Char) (place : Nat) :
    startsDelimiter (first :: rest) (place + 1) = startsDelimiter rest place := rfl

/-- No delimiter starts where fewer than two characters are left. -/
theorem startsDelimiter_of_short {text : List Char} (short : text.length < 2) (place : Nat) :
    startsDelimiter text place = false := by
  rw [← Bool.not_eq_true]
  intro starts
  obtain ⟨first, second, pair⟩ :=
    exists_pair_of_mem_delimiterTexts (List.contains_iff_mem.mp starts)
  have size := congrArg List.length pair
  simp only [List.length_take, List.length_drop, List.length_cons, List.length_nil] at size
  omega

/-! ## Split texts -/

theorem splitDelimiters_eq_spacedBehind (text : List Char) :
    splitDelimiters text = spacedBehind (startsDelimiter text) text := by
  fun_induction splitDelimiters text with
  | case1 first second rest delimiter inductionHypothesis =>
    rw [spacedBehind_cons, startsDelimiter_zero, if_pos delimiter, inductionHypothesis]
    simp only [startsDelimiter_succ]
    rfl
  | case2 first second rest other inductionHypothesis =>
    rw [spacedBehind_cons, startsDelimiter_zero, if_neg other, inductionHypothesis]
    simp only [startsDelimiter_succ]
    rfl
  | case3 short tooShort =>
    cases short with
    | nil => rfl
    | cons first rest =>
      cases rest with
      | nil =>
        rw [spacedBehind_cons, startsDelimiter_of_short (by simp)]
        rfl
      | cons second rest => exact absurd rfl (tooShort first second rest)

theorem hasDelimiter_splitDelimiters (text : List Char) :
    hasDelimiter (splitDelimiters text) = false :=
  (delimitersFrom_eq_nil_iff 0).mp (delimitersFrom_splitDelimiters 0 text)

/-- A text is as it was after a split exactly if it holds no delimiter. -/
theorem splitDelimiters_eq_self_iff {text : List Char} :
    splitDelimiters text = text ↔ hasDelimiter text = false := by
  constructor
  · intro same
    rw [← same]
    exact hasDelimiter_splitDelimiters text
  · intro free
    fun_induction splitDelimiters text with
    | case1 first second rest delimiter inductionHypothesis =>
      rw [hasDelimiter, delimiter] at free
      contradiction
    | case2 first second rest other inductionHypothesis =>
      rw [hasDelimiter, Bool.or_eq_false_iff] at free
      rw [inductionHypothesis free.2]
    | case3 short tooShort => rfl

/-- A split text holds no delimiter. It is the text itself exactly if the text holds none, and a
second split changes nothing. It is the text with one space behind each place at which a delimiter
starts: all characters are there in their order, and it is longer by the number of delimiters. -/
theorem splitDelimiters_inserts_spaces (text : List Char) :
    let split := splitDelimiters text
    (∀ delimiter ∈ delimiterTexts, ¬ delimiter <:+: split) ∧
    (split = text ↔ ∀ delimiter ∈ delimiterTexts, ¬ delimiter <:+: text) ∧
    splitDelimiters split = split ∧
    split = spacedBehind (startsDelimiter text) text ∧
    text.Sublist split ∧
    split.length = text.length + (List.range text.length).countP (startsDelimiter text) := by
  intro split
  have free : hasDelimiter split = false := hasDelimiter_splitDelimiters text
  have spaced : split = spacedBehind (startsDelimiter text) text :=
    splitDelimiters_eq_spacedBehind text
  refine ⟨hasDelimiter_eq_false_iff.mp free, ?_, ?_, spaced, ?_, ?_⟩
  · exact splitDelimiters_eq_self_iff.trans hasDelimiter_eq_false_iff
  · exact splitDelimiters_eq_self_iff.mpr free
  · rw [spaced]
    exact sublist_spacedBehind _ text
  · rw [spaced]
    exact length_spacedBehind _ text

end FlatLiquid
