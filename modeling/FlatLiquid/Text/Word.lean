import FlatLiquid.Text.WordTable

/-!
Contract: word characters and the boundaries between words.

Owns:
- the class of word characters;
- the tests that a place in a text starts or ends a word.
-/

namespace FlatLiquid.Text

/-- Letters, digits and the underscore, in every script. -/
def isWordChar (c : Char) : Bool :=
  if c.toNat < 0x80 then c.isAlphanum || c == '_'
  else wordRanges.any fun range => range.1 ≤ c.toNat && c.toNat ≤ range.2

/-- No word runs on from the character before this place. -/
def startsWord (before : Option Char) : Bool :=
  !before.any isWordChar

/-- No word runs on into the text after this place. -/
def endsWord (rest : List Char) : Bool :=
  !rest.head?.any isWordChar

/-- The run of word characters at the front of a text. -/
def wordOf (text : List Char) : List Char :=
  text.takeWhile isWordChar

/-- The text after the run of word characters at its front. -/
def afterWord (text : List Char) : List Char :=
  text.dropWhile isWordChar

/-- The word at the front of a text and what is left after it join up to the text. -/
theorem wordOf_append_afterWord (text : List Char) : wordOf text ++ afterWord text = text :=
  List.takeWhile_append_dropWhile

/-- A word in front of a text that does not run on with it is what is read. -/
theorem wordOf_append {word rest : List Char} (inside : ∀ c ∈ word, isWordChar c = true)
    (ends : endsWord rest = true) : wordOf (word ++ rest) = word := by
  have stops : rest.takeWhile isWordChar = [] := by
    cases rest with
    | nil => rfl
    | cons c tail =>
      have other : isWordChar c = false := by simpa [endsWord] using ends
      rw [List.takeWhile_cons, other]
      rfl
  rw [wordOf, List.takeWhile_append_of_pos inside, stops, List.append_nil]

theorem afterWord_append {word rest : List Char} (inside : ∀ c ∈ word, isWordChar c = true)
    (ends : endsWord rest = true) : afterWord (word ++ rest) = rest := by
  have joined := wordOf_append_afterWord (word ++ rest)
  rw [wordOf_append inside ends] at joined
  exact List.append_cancel_left joined

end FlatLiquid.Text
