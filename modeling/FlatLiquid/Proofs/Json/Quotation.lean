import FlatLiquid.Json.Node
import FlatLiquid.Json.Printer

/-!
Contract: a string that is written between quotes is read as it was.

Owns:
- the three forms of an escaped character, and what the reader makes of each;
- the scan of a written string, whatever follows it.
-/

namespace FlatLiquid.Json

/-- The forms in which a character is written: as it is, with a letter after a backslash, or with
its code. -/
inductive IsEscape (c : Char) : List Char → Prop where
  | plain (notQuote : c ≠ '"') (notBackslash : c ≠ '\\') (printable : ¬ c.toNat < 0x20) :
      IsEscape c [c]
  | short {letter : Char} (means : shortEscape? letter = some c) (noCode : letter ≠ 'u') :
      IsEscape c ['\\', letter]
  | code {first second third fourth : Char} (small : c.toNat < 0x20)
      (means : hexUnit? first second third fourth = some c.toNat) :
      IsEscape c ['\\', 'u', first, second, third, fourth]

/-- The digits of a control character. -/
theorem escape_control :
    ∀ code < 0x20,
      List.replicate (4 - (Nat.toDigits 16 code).length) '0' ++ Nat.toDigits 16 code =
          ['0', '0', Nat.digitChar (code / 16), Nat.digitChar (code % 16)] ∧
        hexUnit? '0' '0' (Nat.digitChar (code / 16)) (Nat.digitChar (code % 16)) = some code := by
  decide

theorem isEscape_escapeChar (c : Char) : IsEscape c (escapeChar c) := by
  unfold escapeChar
  split
  · exact .short rfl (by decide)
  · exact .short rfl (by decide)
  · exact .short rfl (by decide)
  · exact .short rfl (by decide)
  · exact .short rfl (by decide)
  · exact .short rfl (by decide)
  · exact .short rfl (by decide)
  · next notQuote notBackslash _ _ _ _ _ =>
    split
    · next small =>
      obtain ⟨digits, means⟩ := escape_control c.toNat small
      simp only [List.append_assoc, digits]
      exact .code small means
    · next printable => exact .plain notQuote notBackslash printable

/-- The reader takes an escaped character for what it was, and goes on after it. -/
theorem IsEscape.readString_append {c : Char} {written : List Char} (isEscape : IsEscape c written)
    (rest : List Char) (offset : Nat) :
    ∃ next, readString (written ++ rest) offset =
        (readString rest next).map (fun found => (c :: found.1, found.2)) ∧
      skipString (written ++ rest) offset = skipString rest next := by
  cases isEscape with
  | plain notQuote notBackslash printable =>
    refine ⟨offset + c.utf8Size, ?_, ?_⟩
    · rw [List.singleton_append, readString.eq_7, if_neg printable]
      · exact notQuote
      all_goals intros; contradiction
    · rw [List.singleton_append, skipString.eq_7, if_neg printable]
      · exact notQuote
      all_goals intros; contradiction
  | short means noCode =>
    refine ⟨offset + 2, ?_, ?_⟩
    · rw [List.cons_append, List.singleton_append, readString.eq_6, means]
      · intros; contradiction
      · exact noCode
    · rw [List.cons_append, List.singleton_append, skipString.eq_6, means]
      · intros; contradiction
      · exact noCode
  | @code first second third fourth small means =>
    have notTrailing : isTrailing c.toNat = false := by
      rw [isTrailing, Bool.and_eq_false_iff]
      exact Or.inl (decide_eq_false (by omega))
    have notLeading : isLeading c.toNat = false := by
      rw [isLeading, Bool.and_eq_false_iff]
      exact Or.inl (decide_eq_false (by omega))
    refine ⟨offset + 6, ?_, ?_⟩
    · simp only [List.cons_append, List.nil_append]
      rw [readString, means]
      simp only [notTrailing, notLeading]
      rw [Char.ofNat_toNat]
      rfl
    · simp only [List.cons_append, List.nil_append]
      rw [skipString, means]

/-- A written text is read and skipped up to its closing quote. -/
theorem readString_escaped (text rest : List Char) (offset : Nat) :
    ∃ ending, readString (text.flatMap escapeChar ++ '"' :: rest) offset =
        .ok (text, ⟨rest, ending⟩) ∧
      skipString (text.flatMap escapeChar ++ '"' :: rest) offset = .ok ⟨rest, ending⟩ := by
  induction text generalizing offset with
  | nil => exact ⟨offset + 1, by simp [readString], by simp [skipString]⟩
  | cons c text inductionHypothesis =>
    obtain ⟨next, read, skipped⟩ := (isEscape_escapeChar c).readString_append
      (text.flatMap escapeChar ++ '"' :: rest) offset
    obtain ⟨ending, readRest, skippedRest⟩ := inductionHypothesis next
    refine ⟨ending, ?_, ?_⟩
    · rw [List.flatMap_cons, List.append_assoc, read, readRest]
      rfl
    · rw [List.flatMap_cons, List.append_assoc, skipped, skippedRest]

/-- A written string is scanned as its text, up to what follows it. -/
theorem scanString_printString (text : String) (rest : List Char) (offset : Nat) :
    ∃ ending, scanString ⟨printString text ++ rest, offset⟩ =
      .ok (.ok text.toList, ⟨rest, ending⟩) := by
  obtain ⟨ending, read, skipped⟩ := readString_escaped text.toList rest (offset + '"'.utf8Size)
  refine ⟨ending, ?_⟩
  have shape : printString text ++ rest =
      '"' :: (text.toList.flatMap escapeChar ++ '"' :: rest) := by
    simp [printString]
  rw [shape, scanString]
  simp only [Cursor.step, read, skipped]
  rfl

end FlatLiquid.Json
