import FlatLiquid.Proofs.Text.Fragments
import FlatLiquid.Proofs.Text.Finding
import FlatLiquid.Template.ImageFilter

/-!
Contract: the texts that are read as output tags.

Owns:
- the text of an output tag, which is read as that tag in front of any text;
- the texts at which no output tag starts: those without opening braces, and those in which no
  closing braces follow;
- tags whose content ends in a space, which are read for any content without closing braces.
-/

namespace FlatLiquid

open Text (findFrom findAll)

def openingBraces : List Char := ['\x7b', '\x7b']

def closingBraces : List Char := ['\x7d', '\x7d']

/-- How a tag is written. -/
def OutputTag.text (tag : OutputTag) : List Char :=
  openingBraces ++ (dashText tag.openDash ++ (tag.inner ++ (dashText tag.closeDash ++ closingBraces)))

theorem OutputTag.text_ne_nil (tag : OutputTag) : tag.text ≠ [] :=
  List.cons_ne_nil _ _

/-! ## Closing braces -/

theorem eq_append_of_closeOutput? {text inner after : List Char} {dash : Bool}
    (closed : closeOutput? text = some (inner, dash, after)) :
    text = inner ++ (dashText dash ++ (closingBraces ++ after)) := by
  fun_induction closeOutput? text generalizing inner with
  | case1 rest =>
    cases closed
    rfl
  | case2 rest =>
    cases closed
    rfl
  | case3 c rest _ _ inductionHypothesis =>
    obtain ⟨⟨more, found⟩, closes, same⟩ := Option.map_eq_some_iff.mp closed
    obtain ⟨rfl, rfl⟩ := Prod.mk.inj same
    rw [List.cons_append, ← inductionHypothesis closes]
  | case4 => contradiction

/-- A character that starts no closing braces is part of the content. -/
theorem closeOutput?_cons {c : Char} {rest : List Char}
    (undashed : ¬ '-' :: closingBraces <+: c :: rest) (unclosed : ¬ closingBraces <+: c :: rest) :
    closeOutput? (c :: rest) =
      (closeOutput? rest).map fun (inner, close) => (c :: inner, close) := by
  rw [closeOutput?.eq_3]
  · rintro after rfl rfl
    exact undashed ⟨after, rfl⟩
  · rintro after rfl rfl
    exact unclosed ⟨after, rfl⟩

/-- Where the content ends does not depend on the text after the tag. -/
theorem closeOutput?_of_closed {text inner after : List Char} {dash : Bool}
    (closed : closeOutput? text = some (inner, dash, after)) (rest : List Char) :
    closeOutput? (inner ++ (dashText dash ++ (closingBraces ++ rest))) = some (inner, dash, rest) := by
  fun_induction closeOutput? text generalizing inner with
  | case1 _ =>
    cases closed
    rfl
  | case2 _ =>
    cases closed
    rfl
  | case3 c tail undashed unclosed inductionHypothesis =>
    obtain ⟨⟨more, found⟩, closes, same⟩ := Option.map_eq_some_iff.mp closed
    obtain ⟨rfl, rfl⟩ := Prod.mk.inj same
    have split := eq_append_of_closeOutput? closes
    -- the braces that end the content lie within the text that is the same in front of both rests
    have transfer (word : List Char) (short : word.length ≤ 3) :
        word <+: c :: (more ++ (dashText dash ++ (closingBraces ++ rest))) → word <+: c :: tail := by
      intro starts
      have shared : word <+: c :: (more ++ (dashText dash ++ closingBraces)) := by
        apply List.prefix_of_prefix_length_le starts ⟨rest, by simp⟩
        simp [closingBraces]
        omega
      exact shared.trans ⟨after, by simp [split]⟩
    rw [List.cons_append, closeOutput?_cons, inductionHypothesis closes]
    · rfl
    · intro starts
      obtain ⟨more, same⟩ := transfer ('-' :: closingBraces) (by decide) starts
      obtain ⟨dashed, braces⟩ := List.cons.inj same
      exact undashed more dashed.symm braces.symm
    · intro starts
      obtain ⟨more, same⟩ := transfer closingBraces (by decide) starts
      obtain ⟨brace, braces⟩ := List.cons.inj same
      exact unclosed more brace.symm braces.symm
  | case4 => contradiction

/-- The content does not end where no closing braces follow. -/
theorem closeOutput?_eq_none_iff {text : List Char} :
    closeOutput? text = none ↔ ¬ closingBraces <:+: text := by
  fun_induction closeOutput? text with
  | case1 rest =>
    have within : closingBraces <:+: '-' :: '\x7d' :: '\x7d' :: rest := ⟨['-'], rest, rfl⟩
    simp [within]
  | case2 rest =>
    have within : closingBraces <:+: '\x7d' :: '\x7d' :: rest := ⟨[], rest, rfl⟩
    simp [within]
  | case3 c rest _ unclosed inductionHypothesis =>
    have notHere : ¬ closingBraces <+: c :: rest := by
      rintro ⟨after, same⟩
      obtain ⟨brace, braces⟩ := List.cons.inj same
      exact unclosed after brace.symm braces.symm
    rw [Option.map_eq_none_iff, inductionHypothesis, List.infix_cons_iff, or_iff_right notHere]
  | case4 => simp [closingBraces]

theorem not_closing_infix_of_closeOutput? {text inner after : List Char} {dash : Bool}
    (closed : closeOutput? text = some (inner, dash, after)) : ¬ closingBraces <:+: inner := by
  fun_induction closeOutput? text generalizing inner with
  | case1 rest =>
    cases closed
    decide
  | case2 rest =>
    cases closed
    decide
  | case3 c rest _ unclosed inductionHypothesis =>
    obtain ⟨⟨more, found⟩, closes, same⟩ := Option.map_eq_some_iff.mp closed
    obtain ⟨rfl, rfl⟩ := Prod.mk.inj same
    have split := eq_append_of_closeOutput? closes
    intro within
    rcases List.infix_cons_iff.mp within with ⟨behind, starts⟩ | later
    · obtain ⟨brace, braces⟩ := List.cons.inj starts
      refine unclosed (behind ++ (dashText dash ++ (closingBraces ++ after))) brace.symm ?_
      rw [split, ← braces]
      rfl
    · exact inductionHypothesis closes later
  | case4 => contradiction

/-- Content without closing braces ends at the braces that follow it and a space. -/
theorem closeOutput?_of_spaced {content : List Char} (free : ¬ closingBraces <:+: content)
    (dash : Bool) (rest : List Char) :
    closeOutput? (content ++ ' ' :: (dashText dash ++ (closingBraces ++ rest))) =
      some (content ++ [' '], dash, rest) := by
  induction content with
  | nil => cases dash <;> rfl
  | cons c tail inductionHypothesis =>
    have notHere {word : List Char} (noSpace : ' ' ∉ word) (isClosing : closingBraces <:+ word) :
        ¬ word <+: c :: (tail ++ ' ' :: (dashText dash ++ (closingBraces ++ rest))) := by
      intro starts
      have within : word <+: c :: tail := Text.prefix_of_prefix_around noSpace starts
      exact free (isClosing.isInfix.trans within.isInfix)
    have later := inductionHypothesis fun within => free (List.infix_cons_iff.mpr (.inr within))
    rw [List.cons_append, closeOutput?_cons, later]
    · rfl
    · exact notHere (by decide) (List.suffix_cons _ _)
    · exact notHere (by decide) (List.suffix_refl _)

/-! ## Tags -/

/-- A dash behind the opening braces belongs to them. -/
theorem outputTag?_opened (before : Option Char) (dash : Bool) {text : List Char}
    (undashed : dash = false → text.head? ≠ some '-') :
    outputTag? before (openingBraces ++ (dashText dash ++ text)) =
      (closeOutput? text).map fun (inner, closeDash, after) => (⟨dash, inner, closeDash⟩, after) := by
  cases dash with
  | true => rfl
  | false =>
    cases text with
    | nil => rfl
    | cons c rest =>
      have other : c ≠ '-' := fun same => undashed rfl (congrArg some same)
      simp [outputTag?, openingBraces, dashText, other]

/-- Any text starts with a dash or goes on without one. -/
theorem exists_undashed (text : List Char) :
    ∃ dash rest, text = dashText dash ++ rest ∧ (dash = false → rest.head? ≠ some '-') := by
  by_cases dashed : text.head? = some '-'
  · obtain ⟨rest, rfl⟩ := List.head?_eq_some_iff.mp dashed
    exact ⟨true, rest, rfl, nofun⟩
  · exact ⟨false, text, rfl, fun _ => dashed⟩

theorem outputTag?_eq_none_of_unopened {text : List Char} (before : Option Char)
    (unopened : ¬ openingBraces <+: text) : outputTag? before text = none := by
  unfold outputTag?
  split
  · next rest => exact absurd ⟨rest, rfl⟩ unopened
  · rfl

/-- What is read of a tag: its opening braces, and its content up to the closing ones. -/
theorem exists_content_of_outputTag? {before : Option Char} {text after : List Char}
    {tag : OutputTag} (read : outputTag? before text = some (tag, after)) :
    ∃ rest, text = openingBraces ++ (dashText tag.openDash ++ rest) ∧
      (tag.openDash = false → rest.head? ≠ some '-') ∧
      closeOutput? rest = some (tag.inner, tag.closeDash, after) := by
  by_cases opened : openingBraces <+: text
  · obtain ⟨behind, rfl⟩ := opened
    obtain ⟨dash, rest, rfl, undashed⟩ := exists_undashed behind
    rw [outputTag?_opened before dash undashed] at read
    obtain ⟨⟨inner, closeDash, _⟩, closed, same⟩ := Option.map_eq_some_iff.mp read
    obtain ⟨rfl, rfl⟩ := Prod.mk.inj same
    exact ⟨rest, rfl, undashed, closed⟩
  · rw [outputTag?_eq_none_of_unopened before opened] at read
    contradiction

theorem eq_append_of_outputTag? {before : Option Char} {text after : List Char} {tag : OutputTag}
    (read : outputTag? before text = some (tag, after)) : text = tag.text ++ after := by
  obtain ⟨rest, rfl, -, closed⟩ := exists_content_of_outputTag? read
  rw [eq_append_of_closeOutput? closed]
  simp [OutputTag.text]

/-- A tag that is read somewhere is read in front of any text. -/
theorem outputTag?_of_read {before : Option Char} {text after : List Char} {tag : OutputTag}
    (read : outputTag? before text = some (tag, after)) (between : Option Char) (rest : List Char) :
    outputTag? between (tag.text ++ rest) = some (tag, rest) := by
  obtain ⟨content, rfl, undashed, closed⟩ := exists_content_of_outputTag? read
  have split := eq_append_of_closeOutput? closed
  have written : tag.text ++ rest = openingBraces ++ (dashText tag.openDash ++
      (tag.inner ++ (dashText tag.closeDash ++ (closingBraces ++ rest)))) := by
    simp [OutputTag.text]
  rw [written, outputTag?_opened, closeOutput?_of_closed closed]
  · rfl
  · intro plain
    have first := undashed plain
    rw [split] at first
    simpa [List.head?_append, closingBraces] using first

theorem not_closing_infix_of_outputTag? {before : Option Char} {text after : List Char}
    {tag : OutputTag} (read : outputTag? before text = some (tag, after)) :
    ¬ closingBraces <:+: tag.inner := by
  obtain ⟨_, -, -, closed⟩ := exists_content_of_outputTag? read
  exact not_closing_infix_of_closeOutput? closed

/-- A tag whose content stands between spaces is read in front of any text. -/
theorem outputTag?_around {content : List Char} (tag : OutputTag) (free : ¬ closingBraces <:+: content)
    (before : Option Char) (rest : List Char) :
    outputTag? before (tag.around content ++ rest) =
      some (⟨tag.openDash, ' ' :: content ++ [' '], tag.closeDash⟩, rest) := by
  have freeBehind : ¬ closingBraces <:+: ' ' :: content := fun within =>
    free (Text.infix_of_infix_cons (by decide) within)
  have written : tag.around content ++ rest = openingBraces ++ (dashText tag.openDash ++
      ((' ' :: content) ++ ' ' :: (dashText tag.closeDash ++ (closingBraces ++ rest)))) := by
    simp [OutputTag.around, openingBraces, closingBraces]
  rw [written, outputTag?_opened, closeOutput?_of_spaced freeBehind]
  · rfl
  · exact fun _ => by simp

/-- Where opening braces start no tag, no closing braces follow. -/
theorem not_closing_infix_of_unread {before : Option Char} {text : List Char}
    (unread : outputTag? before (openingBraces ++ text) = none) : ¬ closingBraces <:+: text := by
  obtain ⟨dash, rest, rfl, undashed⟩ := exists_undashed text
  rw [outputTag?_opened before dash undashed, Option.map_eq_none_iff, closeOutput?_eq_none_iff]
    at unread
  cases dash with
  | false => exact unread
  | true =>
    exact fun within => unread (Text.infix_of_infix_cons (by decide) within)

theorem outputTag?_eq_none_of_unclosed {text : List Char} (before : Option Char)
    (unclosed : ¬ closingBraces <:+: text) : outputTag? before text = none := by
  rw [Option.eq_none_iff_forall_not_mem]
  rintro ⟨tag, after⟩ read
  have split := eq_append_of_outputTag? read
  exact unclosed ⟨openingBraces ++ (dashText tag.openDash ++ (tag.inner ++ dashText tag.closeDash)),
    after, by simp [split, OutputTag.text]⟩

/-! ## The tags of a text -/

/-- What stands before a tag does not matter. -/
theorem outputTag?_before (before : Option Char) (text : List Char) :
    outputTag? before text = outputTag? none text := by
  by_cases opened : openingBraces <+: text
  · obtain ⟨behind, rfl⟩ := opened
    obtain ⟨dash, rest, rfl, undashed⟩ := exists_undashed behind
    rw [outputTag?_opened before dash undashed, outputTag?_opened none dash undashed]
  · rw [outputTag?_eq_none_of_unopened before opened, outputTag?_eq_none_of_unopened none opened]

theorem findFrom_outputTag? (before : Option Char) (text : List Char) :
    findFrom outputTag? before 0 text = findAll outputTag? text := by
  cases text with
  | nil => rfl
  | cons c rest => rw [findAll, findFrom, findFrom, outputTag?_before before]

theorem findAll_of_read {text after : List Char} {tag : OutputTag}
    (read : outputTag? none text = some (tag, after)) :
    findAll outputTag? text = tag :: findAll outputTag? after := by
  obtain rfl := eq_append_of_outputTag? read
  rw [findAll, Text.findFrom_of_fit tag.text_ne_nil read, findFrom_outputTag?]

theorem findAll_of_unread {c : Char} {rest : List Char}
    (unread : outputTag? none (c :: rest) = none) :
    findAll outputTag? (c :: rest) = findAll outputTag? rest := by
  rw [findAll, Text.findFrom_of_none unread, findFrom_outputTag?]

/-- No tag starts in a text without opening braces, nor at a last character that begins none. -/
theorem findAll_append_of_unopened {plain : List Char} {c : Char} (outside : c ∉ openingBraces)
    (unopened : ¬ openingBraces <:+: plain) (rest : List Char) :
    findAll outputTag? (plain ++ c :: rest) = findAll outputTag? rest := by
  have unread {front : List Char} (free : ¬ openingBraces <+: front) :
      outputTag? none (front ++ c :: rest) = none :=
    outputTag?_eq_none_of_unopened none fun starts =>
      free (Text.prefix_of_prefix_around outside starts)
  induction plain with
  | nil => exact findAll_of_unread (unread fun starts => unopened starts.isInfix)
  | cons d tail inductionHypothesis =>
    have here := findAll_of_unread (unread fun starts => unopened starts.isInfix)
    have later := inductionHypothesis fun within => unopened (List.infix_cons_iff.mpr (.inr within))
    exact here.trans later

theorem findAll_append_of_outside {plain : List Char} (outside : '\x7b' ∉ plain)
    (rest : List Char) : findAll outputTag? (plain ++ rest) = findAll outputTag? rest := by
  induction plain with
  | nil => rfl
  | cons c tail inductionHypothesis =>
    have unopened : ¬ openingBraces <+: c :: (tail ++ rest) := by
      rintro ⟨behind, starts⟩
      exact outside (List.mem_cons.mpr (.inl (List.cons.inj starts).1))
    rw [List.cons_append, findAll_of_unread (outputTag?_eq_none_of_unopened none unopened)]
    exact inductionHypothesis fun member => outside (List.mem_cons_of_mem c member)

end FlatLiquid
