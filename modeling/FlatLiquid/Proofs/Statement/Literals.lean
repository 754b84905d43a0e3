import FlatLiquid.Proofs.Template.ImageArguments
import FlatLiquid.Proofs.Statement.Delimiters
import FlatLiquid.Proofs.Template.Passes
import FlatLiquid.Proofs.Template.Verbatim

/-!
Contract: a text that is assigned as a literal is read back as it was.

Owns:
- the reader of assignments: the variable of an assign tag, the literal behind the equals sign, and
  what the tag holds behind the literal;
- the texts without a delimiter, by the delimiters that do not occur in them;
- the assignment of a text between quotes, as such a reader takes it.

Literals have no escapes. So a text is read back because it holds neither its own quote nor an end of a
tag, and because neither arises where it meets its quotes.
-/

namespace FlatLiquid

open Text (isWordChar isBlank afterPrefix? skipBlanks wordOf afterWord)

/-! ## Readers of assignments -/

/-- What a reader takes from an assign tag: the variable, the text of the literal, and what is left of
the tag behind the literal. -/
structure AssignedText where
  name : List Char
  text : List Char
  leftover : List Char
deriving DecidableEq, Repr

/-- Reads an assign tag whose right-hand side starts with a quoted literal. The literal goes on up to
the next quote of its kind. -/
def Tag.assignedText? (tag : Tag) : Option AssignedText :=
  if tag.name = "assign".toList then do
    let markup := skipBlanks tag.markup
    let right ← afterPrefix? ['='] (skipBlanks (afterWord markup))
    let (text, leftover) ← quotedValue? (skipBlanks right)
    some ⟨wordOf markup, text, leftover⟩
  else none

/-- A name that may stand for a variable: it starts with a letter or an underscore and goes on with
these and digits. -/
structure IsIdentifier (name : List Char) : Prop where
  starts : ∃ first rest, name = first :: rest ∧ isIdentifierStart first = true
  inside : ∀ c ∈ name, isIdentifierChar c = true

theorem IsIdentifier.ne_nil {name : List Char} (identifier : IsIdentifier name) : name ≠ [] := by
  obtain ⟨first, rest, rfl, -⟩ := identifier.starts
  exact List.cons_ne_nil first rest

theorem IsIdentifier.isWordChar {name : List Char} (identifier : IsIdentifier name) :
    ∀ c ∈ name, isWordChar c = true :=
  fun c member => isWordChar_of_isIdentifierChar (identifier.inside c member)

/-! ## Texts without a delimiter -/

/-- The delimiters of tags, as they are written. -/
def delimiterTexts : List (List Char) :=
  ["\x7b\x7b", "\x7b%", "%\x7d", "\x7d\x7d"].map String.toList

theorem isDelimiter_iff {first second : Char} :
    isDelimiter first second = true ↔ [first, second] ∈ delimiterTexts := by
  simp [isDelimiter, delimiterTexts, or_and_right, and_or_left, or_assoc]

theorem exists_pair_of_mem_delimiterTexts {delimiter : List Char}
    (member : delimiter ∈ delimiterTexts) : ∃ first second, delimiter = [first, second] := by
  simp only [delimiterTexts, List.map_cons, List.map_nil, List.mem_cons, List.not_mem_nil,
    or_false] at member
  rcases member with rfl | rfl | rfl | rfl <;> exact ⟨_, _, rfl⟩

theorem infix_cons_cons_iff {first second : Char} {rest delimiter : List Char}
    (member : delimiter ∈ delimiterTexts) :
    delimiter <:+: first :: second :: rest ↔
      delimiter = [first, second] ∨ delimiter <:+: second :: rest := by
  obtain ⟨left, right, rfl⟩ := exists_pair_of_mem_delimiterTexts member
  rw [List.infix_cons_iff]
  simp [List.cons_prefix_cons]

/-- The test for a delimiter finds none exactly if none of the four occurs. -/
theorem hasDelimiter_eq_false_iff {text : List Char} :
    hasDelimiter text = false ↔ ∀ delimiter ∈ delimiterTexts, ¬ delimiter <:+: text := by
  have longer {delimiter short : List Char} (member : delimiter ∈ delimiterTexts)
      (size : short.length < 2) : ¬ delimiter <:+: short := by
    obtain ⟨first, second, rfl⟩ := exists_pair_of_mem_delimiterTexts member
    intro within
    exact Nat.not_le.mpr size within.length_le
  induction text with
  | nil => exact iff_of_true rfl fun delimiter member => longer member (by simp)
  | cons first rest inductionHypothesis =>
    cases rest with
    | nil => exact iff_of_true rfl fun delimiter member => longer member (by simp)
    | cons second tail =>
      have step : (∀ delimiter ∈ delimiterTexts, ¬ delimiter <:+: first :: second :: tail) ↔
          ¬ [first, second] ∈ delimiterTexts ∧
            ∀ delimiter ∈ delimiterTexts, ¬ delimiter <:+: second :: tail := by
        constructor
        · intro none
          refine ⟨fun member => none _ member ((infix_cons_cons_iff member).mpr (.inl rfl)), ?_⟩
          intro delimiter member later
          exact none delimiter member ((infix_cons_cons_iff member).mpr (.inr later))
        · rintro ⟨notHere, notLater⟩ delimiter member within
          rcases (infix_cons_cons_iff member).mp within with rfl | later
          · exact notHere member
          · exact notLater delimiter member later
      rw [hasDelimiter, Bool.or_eq_false_iff, ← Bool.not_eq_true, isDelimiter_iff, step]
      exact and_congr_right' inductionHypothesis

/-- A text without a delimiter holds no end of a tag. -/
theorem afterEnd?_of_hasDelimiter {text : List Char} (free : hasDelimiter text = false) :
    afterEnd? text = none := by
  induction text with
  | nil => rfl
  | cons first rest inductionHypothesis =>
    have other : ¬ (first = '%' ∧ rest.head? = some '\x7d') := by
      rintro ⟨rfl, brace⟩
      obtain ⟨tail, rfl⟩ := List.head?_eq_some_iff.mp brace
      rw [hasDelimiter, Bool.or_eq_false_iff] at free
      exact absurd free.1 (by decide)
    rw [afterEnd?_cons other]
    cases rest with
    | nil => rfl
    | cons second tail =>
      rw [hasDelimiter, Bool.or_eq_false_iff] at free
      exact inductionHypothesis free.2

/-! ## Assignments of a literal -/

/-- A text without a delimiter that does not hold both quotes goes between quotes that it does not
hold. -/
theorem exists_quote_of_ofText {text : List Char} (free : hasDelimiter text = false)
    (oneQuote : ¬ ('\'' ∈ text ∧ '"' ∈ text)) :
    ∃ quote, TextStyle.ofText text = .quoted quote ∧ quote.char ∉ text := by
  have unfree : ¬ hasDelimiter text = true := by simp [free]
  rw [TextStyle.ofText, if_neg unfree]
  by_cases single : '\'' ∈ text
  · have noDouble : '"' ∉ text := fun double => oneQuote ⟨single, double⟩
    refine ⟨.double, ?_, noDouble⟩
    simp [single, noDouble]
  · refine ⟨.single, ?_, single⟩
    simp [single]

/-- A literal is read up to its own closing quote. -/
theorem quotedValue?_render {quote : Quote} {text : List Char} (unquoted : quote.char ∉ text)
    (rest : List Char) :
    quotedValue? ((Literal.quoted quote text).render ++ rest) = some (text, rest) := by
  refine quotedValue?_eq_some_iff.mpr ⟨quote, unquoted, ?_⟩
  simp [Literal.render]

/-- The markup of an assignment, up to the space in front of its end. -/
def assignMarkup (name : List Char) (quote : Quote) (text : List Char) : List Char :=
  ' ' :: (name ++ " = ".toList ++ (Literal.quoted quote text).render)

/-- An assignment of a text without a delimiter holds no end of a tag but its own. -/
theorem afterEnd?_assignMarkup {name text : List Char} (quote : Quote)
    (identifier : IsIdentifier name) (free : hasDelimiter text = false) (more : List Char) :
    afterEnd? (assignMarkup name quote text ++ more) = afterEnd? more := by
  have notPercent : '%' ≠ quote.char := by cases quote <;> decide
  have notBrace : quote.char ≠ '\x7d' := by cases quote <;> decide
  have front : '%' ∉ ' ' :: (name ++ " = ".toList ++ [quote.char]) := by
    have inName : '%' ∉ name := fun member => absurd (identifier.inside _ member) (by decide)
    simp [inName, notPercent]
  have back : '%' ∉ [quote.char] := by simp [notPercent]
  have seam : ([quote.char] ++ more).head? ≠ some '\x7d' := by simp [notBrace]
  have parts : assignMarkup name quote text ++ more =
      (' ' :: (name ++ " = ".toList ++ [quote.char])) ++ (text ++ ([quote.char] ++ more)) := by
    simp [assignMarkup, Literal.render]
  rw [parts, afterEnd?_append_of_not_mem front,
    afterEnd?_append_of_unended (afterEnd?_of_hasDelimiter free) seam,
    afterEnd?_append_of_not_mem back]

/-- A markup that holds no end of a tag is read up to the space in front of the end. -/
theorem closeTag?_of_unended {markup after : List Char}
    (ends : afterEnd? (markup ++ ' ' :: '%' :: '\x7d' :: after) = some after) :
    closeTag? (markup ++ ' ' :: '%' :: '\x7d' :: after) = some (markup ++ [' '], after) := by
  rw [← snd_closeTag?] at ends
  obtain ⟨⟨read, rest⟩, closed, rfl⟩ := Option.map_eq_some_iff.mp ends
  obtain ⟨closing, split, isEnd⟩ := exists_closing_of_closeTag? closed
  rw [closed]
  rcases isEnd with rfl | rfl
  · have parts : (markup ++ [' ']) ++ '%' :: '\x7d' :: rest = read ++ '%' :: '\x7d' :: rest := by
      simpa using split
    rw [List.append_cancel_right parts]
  · have parts : (markup ++ [' ']) ++ '%' :: '\x7d' :: rest =
        (read ++ ['-']) ++ '%' :: '\x7d' :: rest := by
      simpa using split
    have last := List.append_inj_right' (List.append_cancel_right parts) rfl
    exact absurd last (by decide)

/-- The tag that assigns a text between quotes. -/
def assignTag (name : List Char) (quote : Quote) (text : List Char) : Tag :=
  ⟨"assign".toList, assignMarkup name quote text ++ [' '],
    assignText name (Literal.quoted quote text).render⟩

theorem tag?_assignTag {name text : List Char} (quote : Quote) (identifier : IsIdentifier name)
    (free : hasDelimiter text = false) (after : List Char) :
    tag? ((assignTag name quote text).source ++ after) =
      some (assignTag name quote text, after) := by
  have ends : afterEnd? (assignMarkup name quote text ++ ' ' :: '%' :: '\x7d' :: after) =
      some after := by
    rw [afterEnd?_assignMarkup quote identifier free]
    rfl
  have space : ∀ c ∈ (assignMarkup name quote text).head?, isWordChar c = false := by
    rintro c ⟨⟩
    decide
  have source : assignText name (Literal.quoted quote text).render =
      tagText ("assign".toList ++ assignMarkup name quote text) := by
    simp [assignText, assignMarkup]
  have read := tag?_tagText_of_closed (show "assign".toList ≠ [] by decide) (by decide) space
    (closeTag?_of_unended ends)
  rw [← source] at read
  exact read

/-- Of the tag a reader takes the variable and the text. Only the space in front of its end is left. -/
theorem assignedText?_assignTag {name text : List Char} {quote : Quote}
    (identifier : IsIdentifier name) (unquoted : quote.char ∉ text) :
    (assignTag name quote text).assignedText? = some ⟨name, text, [' ']⟩ := by
  have notBlank : isBlank quote.char = false := by cases quote <;> decide
  have right : skipBlanks (' ' :: ((Literal.quoted quote text).render ++ [' '])) =
      (Literal.quoted quote text).render ++ [' '] := by
    simp [skipBlanks, Literal.render, notBlank, show isBlank ' ' = true by decide]
  have following : Text.endsWord (" = ".toList ++ ((Literal.quoted quote text).render ++ [' '])) =
      true := rfl
  have named : (assignTag name quote text).name = "assign".toList := rfl
  have markup : skipBlanks (assignTag name quote text).markup =
      name ++ (" = ".toList ++ ((Literal.quoted quote text).render ++ [' '])) := by
    change skipBlanks (assignMarkup name quote text ++ [' ']) = _
    rw [← Text.skipBlanks_word identifier.ne_nil identifier.isWordChar]
    simp [assignMarkup]
  have variableName := Text.wordOf_append identifier.isWordChar following
  have behind := Text.afterWord_append identifier.isWordChar following
  have sign : afterPrefix? ['=']
      (skipBlanks (" = ".toList ++ ((Literal.quoted quote text).render ++ [' ']))) =
        some (' ' :: ((Literal.quoted quote text).render ++ [' '])) := rfl
  rw [Tag.assignedText?, if_pos named]
  simp only [markup, variableName, behind, sign, Option.bind_eq_bind, Option.bind_some, right,
    quotedValue?_render unquoted]

/-- A text that is not empty, that holds no delimiter and not both quotes, is assigned by one tag with
the text between quotes. A reader that takes the tag up to its first end, and the literal up to the next
quote of its kind, takes exactly the text, and leaves one space of the tag. -/
theorem assignedText?_of_text {name : List Char} {text : String} (identifier : IsIdentifier name)
    (nonempty : text ≠ "") (undelimited : ∀ delimiter ∈ delimiterTexts, ¬ delimiter <:+: text.toList)
    (oneQuote : ¬ ('\'' ∈ text.toList ∧ '"' ∈ text.toList)) :
    ∃ (quote : Quote) (tag : Tag), Statement.ofValue? name (.string text) =
        some (.assign name (.quoted quote text.toList)) ∧
      tag.source = (Statement.assign name (.quoted quote text.toList)).render ∧
      (∀ after, tag? (tag.source ++ after) = some (tag, after) ∧
        afterEnd? (tag.source ++ after) = some after) ∧
      tag.assignedText? = some ⟨name, text.toList, [' ']⟩ := by
  have free := hasDelimiter_eq_false_iff.mpr undelimited
  obtain ⟨quote, style, unquoted⟩ := exists_quote_of_ofText free oneQuote
  have notEmpty : ¬ text.toList.isEmpty = true := by simpa using nonempty
  refine ⟨quote, assignTag name quote text.toList, ?_, rfl, fun after => ?_,
    assignedText?_assignTag identifier unquoted⟩
  · rw [Statement.ofValue?, Statement.ofText, if_neg notEmpty, style]
  · have read := tag?_assignTag quote identifier free after
    exact ⟨read, afterEnd?_of_tag? read⟩

/-- A text that touches its quotes with a brace and a percent sign, and that holds the one quote, is
read back from between the other. -/
theorem assignedText?_of_percentage :
    IsIdentifier "settings_note".toList ∧ "\x7d it's 5%" ≠ "" ∧
      (∀ delimiter ∈ delimiterTexts, ¬ delimiter <:+: "\x7d it's 5%".toList) ∧
      ¬ ('\'' ∈ "\x7d it's 5%".toList ∧ '"' ∈ "\x7d it's 5%".toList) ∧
      ∃ tag : Tag, tag.source = "\x7b% assign settings_note = \"\x7d it's 5%\" %\x7d".toList ∧
        (∀ after, tag? (tag.source ++ after) = some (tag, after)) ∧
        tag.assignedText? = some ⟨"settings_note".toList, "\x7d it's 5%".toList, [' ']⟩ := by
  have identifier : IsIdentifier "settings_note".toList :=
    ⟨⟨_, _, rfl, by decide⟩, List.all_eq_true.mp (by decide)⟩
  have nonempty : "\x7d it's 5%" ≠ "" := by decide
  have undelimited := hasDelimiter_eq_false_iff.mp
    (show hasDelimiter "\x7d it's 5%".toList = false by decide)
  have oneQuote : ¬ ('\'' ∈ "\x7d it's 5%".toList ∧ '"' ∈ "\x7d it's 5%".toList) := by decide
  obtain ⟨quote, tag, made, source, reads, text⟩ :=
    assignedText?_of_text identifier nonempty undelimited oneQuote
  refine ⟨identifier, nonempty, undelimited, oneQuote, tag, ?_, fun after => (reads after).1, text⟩
  have double : Statement.ofValue? "settings_note".toList (.string "\x7d it's 5%") =
      some (.assign "settings_note".toList (.quoted .double "\x7d it's 5%".toList)) := by rfl
  obtain ⟨-, value⟩ := Statement.assign.inj (Option.some.inj (made.symm.trans double))
  rw [source, value]
  rfl

end FlatLiquid
