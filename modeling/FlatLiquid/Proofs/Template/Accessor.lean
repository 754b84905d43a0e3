import FlatLiquid.Template.Accessor
import FlatLiquid.Proofs.Text.Classes
import FlatLiquid.Proofs.Text.Replacement

/-!
Contract: accessors are recognized as they are written.

Owns:
- the grammar of a key and the three ways to write an accessor of it;
- the fit of the rule at an accessor.

Does not own: what stands around an accessor, which is in FlatLiquid.Proofs.Template.Seams.
-/

namespace FlatLiquid

open Text (Rule afterPrefix? skipBlanks startsWord isWordChar isBlank replaceAll replaceFrom)

/-! ## Keys and the ways to write them -/

/-- A key as a template spells it: it starts with a letter or an underscore, goes on with these,
digits and dashes, and does not end in a dash. -/
structure IsKey (key : List Char) : Prop where
  starts : ∃ first rest, key = first :: rest ∧ isIdentifierStart first = true
  inside : key.all isKeyChar = true
  ends : key.getLast? ≠ some '-'

/-- How a key stands after `.settings`. -/
inductive KeyForm where
  | dotted
  | bracketed (quote : Quote)
deriving DecidableEq, Repr

/-- A key in one of its forms. -/
def KeyForm.text : KeyForm → List Char → List Char
  | .dotted, key => '.' :: key
  | .bracketed quote, key => '[' :: quote.char :: key ++ [quote.char, ']']

/-- An accessor of an object's settings. -/
def accessorText (object : List Char) (form : KeyForm) (key : List Char) : List Char :=
  object ++ ".settings".toList ++ form.text key

/-- The text after an accessor does not run on with the key. A dash there is not part of it. -/
def KeyForm.endsBefore (form : KeyForm) (after : List Char) : Prop :=
  form = .dotted → (after.takeWhile isKeyChar).all (· == '-') = true

theorem key?_append {key after : List Char} (grammar : IsKey key)
    (ends : (after.takeWhile isKeyChar).all (· == '-') = true) :
    key? (key ++ after) = some (key, after) := by
  have inside : ∀ c ∈ key, isKeyChar c = true := List.all_eq_true.mp grammar.inside
  have run : (key ++ after).takeWhile isKeyChar = key ++ after.takeWhile isKeyChar :=
    List.takeWhile_append_of_pos inside
  have dashes : ∀ c ∈ (after.takeWhile isKeyChar).reverse, (c == '-') = true := fun c member =>
    List.all_eq_true.mp ends c (List.mem_reverse.mp member)
  have trimmed : ((key ++ after.takeWhile isKeyChar).reverse.dropWhile (· == '-')).reverse = key := by
    rw [List.reverse_append, List.dropWhile_append_of_pos dashes]
    have kept : key.reverse.dropWhile (· == '-') = key.reverse := by
      cases shape : key.reverse with
      | nil => rfl
      | cons last front =>
        have isLast : key.getLast? = some last := by
          rw [← List.head?_reverse, shape]
          rfl
        have other : (last == '-') = false := by
          simpa [isLast] using grammar.ends
        rw [List.dropWhile_cons, other]
        rfl
    rw [kept, List.reverse_reverse]
  obtain ⟨first, rest, shape, start⟩ := grammar.starts
  have dropped : (key ++ after).drop key.length = after := by simp
  rw [key?, run]
  simp only [trimmed, dropped]
  rw [shape]
  simp only [start, if_true]

theorem not_isKeyChar_quote (quote : Quote) : isKeyChar quote.char = false := by
  cases quote <;> decide

theorem bracketedKey?_append (quote : Quote) {key : List Char} (after : List Char)
    (grammar : IsKey key) :
    bracketedKey? (quote.char :: key ++ [quote.char, ']'] ++ after) = some (key, after) := by
  have opening : skipBlanks (quote.char :: key ++ [quote.char, ']'] ++ after) =
      quote.char :: (key ++ quote.char :: ']' :: after) := by
    cases quote <;> simp [skipBlanks, Quote.char, isBlank]
  have isQuote : (quote.char == '\'' || quote.char == '"') = true := by cases quote <;> decide
  have read : key? (key ++ quote.char :: ']' :: after) = some (key, quote.char :: ']' :: after) := by
    refine key?_append grammar ?_
    rw [List.takeWhile_cons, not_isKeyChar_quote]
    rfl
  have closing : skipBlanks (']' :: after) = ']' :: after := rfl
  rw [bracketedKey?, opening]
  simp [isQuote, read, afterPrefix?, closing]

/-- The rule recognizes an accessor that starts a word. -/
theorem accessorRule_append {before : Option Char} {key after : List Char} (object : List Char)
    (form : KeyForm) (starts : startsWord before = true) (grammar : IsKey key)
    (ends : form.endsBefore after) :
    accessorRule object before (accessorText object form key ++ after) = some (key, after) := by
  have beginning : afterPrefix? (object ++ ".settings".toList) (accessorText object form key ++ after) =
      some (form.text key ++ after) := by
    rw [accessorText, List.append_assoc _ (form.text key) after]
    exact Text.afterPrefix?_append _ _
  rw [accessorRule, if_pos starts, beginning]
  cases form with
  | dotted => exact key?_append grammar (ends rfl)
  | bracketed quote => exact bracketedKey?_append quote after grammar

/-- What a recognized accessor gives way to. -/
theorem variableRule_of_accessorRule {object scope key variableName text after : List Char}
    {pickers : Pickers} {before : Option Char}
    (recognizes : accessorRule object before text = some (key, after))
    (stands : pickers.flatName? scope key = some variableName) :
    variableRule object scope pickers before text = some (variableName, after) := by
  rw [variableRule, recognizes]
  simp [stands]

/-- A key that picks no resource stands for its name in the space of names. -/
theorem Pickers.flatName?_of_free {pickers : Pickers} {key name : List Char} (scope : List Char)
    (free : pickers.target? (String.ofList key) = none) (made : identifier? key = some name) :
    pickers.flatName? scope key = some (scopedName scope name) := by
  rw [flatName?, free, made]
  rfl

end FlatLiquid
