import FlatLiquid.Proofs.Json.Spelling

/-!
Contract: a number is scanned as the same number when text follows it.

Owns:
- the texts into which no number runs on;
- the scan of each part of a number before such a text, and of the whole number.
-/

namespace FlatLiquid.Json

/-- No number runs on into a text. -/
def EndsNumber (text : List Char) : Prop :=
  ∀ c ∈ text.head?, c.isDigit = false ∧ c ≠ '.' ∧ c ≠ 'e' ∧ c ≠ 'E'

variable {tail : List Char}

theorem takeDigits_append (ends : EndsNumber tail) (text : List Char) (left right : Nat) :
    ∃ ending, (Cursor.takeDigits ⟨text ++ tail, right⟩) =
      ((Cursor.takeDigits ⟨text, left⟩).1,
        ⟨(Cursor.takeDigits ⟨text, left⟩).2.rest ++ tail, ending⟩) := by
  have stop : tail.takeWhile Char.isDigit = [] ∧ tail.dropWhile Char.isDigit = tail := by
    cases tail with
    | nil => exact ⟨rfl, rfl⟩
    | cons c more => simp [(ends c rfl).1]
  have digits : (text ++ tail).takeWhile Char.isDigit = text.takeWhile Char.isDigit := by
    rw [List.takeWhile_append, stop.1, List.append_nil]
    split
    · next whole => exact ((List.takeWhile_prefix _).eq_of_length whole).symm
    · rfl
  have following : (text ++ tail).dropWhile Char.isDigit = text.dropWhile Char.isDigit ++ tail := by
    rw [List.dropWhile_append, stop.2]
    split
    · next empty => rw [List.isEmpty_iff.mp empty, List.nil_append]
    · rfl
  refine ⟨right + (text.takeWhile Char.isDigit).length, ?_⟩
  simp only [Cursor.takeDigits, digits, following]

/-- Digits of which at least one is due. -/
def dueDigits (cursor : Cursor) : Except Break (List Char × Cursor) :=
  if cursor.takeDigits.1.isEmpty then .error (digitMissing cursor) else .ok cursor.takeDigits

theorem dueDigits_append (ends : EndsNumber tail) {text digits : List Char} {left : Nat}
    {after : Cursor} (scanned : dueDigits ⟨text, left⟩ = .ok (digits, after)) (right : Nat) :
    ∃ ending, dueDigits ⟨text ++ tail, right⟩ = .ok (digits, ⟨after.rest ++ tail, ending⟩) := by
  obtain ⟨ending, taken⟩ := takeDigits_append ends text left right
  rw [dueDigits] at scanned
  split at scanned
  · contradiction
  · next some =>
    have same : Cursor.takeDigits ⟨text, left⟩ = (digits, after) := Except.ok.inj scanned
    rw [same] at taken some
    refine ⟨ending, ?_⟩
    rw [dueDigits, taken, if_neg some]

/-- A text that starts with a zero. -/
theorem scanWhole_zero (c : Char) (more : List Char) (offset : Nat) :
    scanWhole ⟨'0' :: c :: more, offset⟩ =
      if c.isDigit then .error (.at .invalidNumber ⟨c :: more, offset + '0'.utf8Size⟩)
      else .ok (['0'], ⟨c :: more, offset + '0'.utf8Size⟩) := rfl

theorem scanWhole_of_not_zero {text : List Char}
    (other : ∀ c more, text ≠ '0' :: c :: more) (offset : Nat) :
    scanWhole ⟨text, offset⟩ = dueDigits ⟨text, offset⟩ := by
  unfold scanWhole
  split
  · next same => exact absurd same (other _ _)
  · rfl

theorem scanWhole_append (ends : EndsNumber tail) {text digits : List Char} {left : Nat}
    {after : Cursor} (scanned : scanWhole ⟨text, left⟩ = .ok (digits, after)) (right : Nat) :
    ∃ ending, scanWhole ⟨text ++ tail, right⟩ = .ok (digits, ⟨after.rest ++ tail, ending⟩) := by
  by_cases zero : ∃ c more, text = '0' :: c :: more
  · obtain ⟨c, more, rfl⟩ := zero
    rw [scanWhole_zero] at scanned
    split at scanned
    · contradiction
    · next notDigit =>
      obtain ⟨rfl, rfl⟩ := Prod.mk.inj (Except.ok.inj scanned)
      refine ⟨right + '0'.utf8Size, ?_⟩
      simp only [List.cons_append]
      rw [scanWhole_zero, if_neg notDigit]
  · have other : ∀ c more, text ≠ '0' :: c :: more := fun c more same => zero ⟨c, more, same⟩
    rw [scanWhole_of_not_zero other] at scanned
    by_cases joined : ∃ c more, text ++ tail = '0' :: c :: more
    · -- the text is a single zero, and what follows it is no digit
      obtain ⟨c, more, shape⟩ := joined
      have single : text = ['0'] ∨ text = [] := by
        cases text with
        | nil => exact Or.inr rfl
        | cons first rest =>
          cases rest with
          | nil => exact Or.inl (by rw [(List.cons.inj shape).1])
          | cons second rest =>
            have isZero : first = '0' := (List.cons.inj shape).1
            exact absurd (by rw [isZero]) (other second rest)
      rcases single with rfl | rfl
      · obtain rfl : tail = c :: more := (List.cons.inj shape).2
        have notDigit := (ends c rfl).1
        obtain ⟨rfl, rfl⟩ := Prod.mk.inj (Except.ok.inj scanned)
        refine ⟨right + '0'.utf8Size, ?_⟩
        rw [List.singleton_append, scanWhole_zero, if_neg (by simp [notDigit])]
        rfl
      · contradiction
    · have otherJoined : ∀ c more, text ++ tail ≠ '0' :: c :: more :=
        fun c more same => joined ⟨c, more, same⟩
      rw [scanWhole_of_not_zero otherJoined]
      exact dueDigits_append ends scanned right

theorem scanFraction_point (more : List Char) (offset : Nat) :
    scanFraction ⟨'.' :: more, offset⟩ = dueDigits ⟨more, offset + '.'.utf8Size⟩ := rfl

theorem scanFraction_of_no_point {text : List Char} (other : text.head? ≠ some '.') (offset : Nat) :
    scanFraction ⟨text, offset⟩ = .ok ([], ⟨text, offset⟩) := by
  unfold scanFraction
  split
  · next same => exact absurd (congrArg List.head? same) other
  · rfl

theorem head?_append_ne {text : List Char} {c : Char} (first : text.head? ≠ some c)
    (second : tail.head? ≠ some c) : (text ++ tail).head? ≠ some c := by
  cases text with
  | nil => exact second
  | cons d more => exact first

theorem scanFraction_append (ends : EndsNumber tail) {text digits : List Char} {left : Nat}
    {after : Cursor} (scanned : scanFraction ⟨text, left⟩ = .ok (digits, after)) (right : Nat) :
    ∃ ending, scanFraction ⟨text ++ tail, right⟩ = .ok (digits, ⟨after.rest ++ tail, ending⟩) := by
  by_cases point : text.head? = some '.'
  · obtain ⟨more, rfl⟩ : ∃ more, text = '.' :: more := by
      cases text with
      | nil => contradiction
      | cons c more => exact ⟨more, by rw [Option.some.inj point]⟩
    rw [scanFraction_point] at scanned
    rw [List.cons_append, scanFraction_point]
    exact dueDigits_append ends scanned _
  · have noPoint : tail.head? ≠ some '.' := fun same => (ends '.' same).2.1 rfl
    rw [scanFraction_of_no_point point] at scanned
    obtain ⟨rfl, rfl⟩ := Prod.mk.inj (Except.ok.inj scanned)
    exact ⟨right, scanFraction_of_no_point (head?_append_ne point noPoint) right⟩

/-! ## Exponents -/

theorem scanExponent_mark {mark : Char} (isMark : (mark == 'e' || mark == 'E') = true)
    (more : List Char) (offset : Nat) :
    scanExponent ⟨mark :: more, offset⟩ =
      (dueDigits (scanSign ⟨more, offset + mark.utf8Size⟩).2).map fun found =>
        (some ((scanSign ⟨more, offset + mark.utf8Size⟩).1, found.1), found.2) := by
  rw [scanExponent]
  simp only [isMark, if_true, dueDigits, Cursor.step]
  by_cases missing : (scanSign ⟨more, offset + mark.utf8Size⟩).2.takeDigits.1.isEmpty = true
  · simp only [missing, if_true]
    rfl
  · simp only [missing]
    rfl

theorem scanExponent_of_no_mark {text : List Char}
    (other : ∀ c ∈ text.head?, (c == 'e' || c == 'E') = false) (offset : Nat) :
    scanExponent ⟨text, offset⟩ = .ok (none, ⟨text, offset⟩) := by
  cases text with
  | nil => rfl
  | cons c more => simp [scanExponent, other c rfl]

theorem scanSign_append {text : List Char} (nonempty : text ≠ []) (tail : List Char)
    (left right : Nat) :
    ∃ ending, scanSign ⟨text ++ tail, right⟩ =
      ((scanSign ⟨text, left⟩).1, ⟨(scanSign ⟨text, left⟩).2.rest ++ tail, ending⟩) := by
  obtain ⟨c, more, rfl⟩ := List.exists_cons_of_ne_nil nonempty
  by_cases plus : c = '+'
  · subst plus
    exact ⟨_, rfl⟩
  · by_cases minus : c = '-'
    · subst minus
      exact ⟨_, rfl⟩
    · have none (rest : List Char) (offset : Nat) :
          scanSign ⟨c :: rest, offset⟩ = (false, ⟨c :: rest, offset⟩) := by
        unfold scanSign
        split
        · next same => exact absurd (List.cons.inj same).1 plus
        · next same => exact absurd (List.cons.inj same).1 minus
        · rfl
      exact ⟨right, by rw [List.cons_append, none, none, List.cons_append]⟩

theorem scanExponent_append (ends : EndsNumber tail) {text : List Char} {left : Nat}
    {exponent : Option (Bool × List Char)} {after : Cursor}
    (scanned : scanExponent ⟨text, left⟩ = .ok (exponent, after)) (right : Nat) :
    ∃ ending, scanExponent ⟨text ++ tail, right⟩ =
      .ok (exponent, ⟨after.rest ++ tail, ending⟩) := by
  by_cases marked : ∃ mark more, text = mark :: more ∧ (mark == 'e' || mark == 'E') = true
  · obtain ⟨mark, more, rfl, isMark⟩ := marked
    rw [scanExponent_mark isMark] at scanned
    obtain ⟨⟨digits, last⟩, due, same⟩ := exists_of_map_eq_ok scanned
    obtain ⟨rfl, rfl⟩ := Prod.mk.inj same
    have nonempty : more ≠ [] := by
      rintro rfl
      contradiction
    obtain ⟨start, signed⟩ := scanSign_append nonempty tail (left + mark.utf8Size)
      (right + mark.utf8Size)
    obtain ⟨ending, dueJoined⟩ := dueDigits_append ends due start
    refine ⟨ending, ?_⟩
    rw [List.cons_append, scanExponent_mark isMark, signed, dueJoined]
    rfl
  · have unmarked : ∀ c ∈ text.head?, (c == 'e' || c == 'E') = false := by
      intro c isHead
      cases text with
      | nil => contradiction
      | cons d more =>
        obtain rfl : d = c := Option.some.inj isHead
        cases isMark : (d == 'e' || d == 'E') with
        | false => rfl
        | true => exact absurd ⟨d, more, rfl, isMark⟩ marked
    have unmarkedJoined : ∀ c ∈ (text ++ tail).head?, (c == 'e' || c == 'E') = false := by
      intro c isHead
      cases text with
      | nil =>
        have other := ends c isHead
        simp [other.2.2.1, other.2.2.2]
      | cons d more => exact unmarked c isHead
    rw [scanExponent_of_no_mark unmarked] at scanned
    obtain ⟨rfl, rfl⟩ := Prod.mk.inj (Except.ok.inj scanned)
    exact ⟨right, scanExponent_of_no_mark unmarkedJoined right⟩

/-! ## Numbers -/

/-- The parts of a number after its sign. -/
def scanMagnitude (negative : Bool) (cursor : Cursor) : Except Break (Numeral × Cursor) := do
  let (whole, afterWhole) ← scanWhole cursor
  let (fraction, afterFraction) ← scanFraction afterWhole
  let (exponent, after) ← scanExponent afterFraction
  pure (⟨negative, whole, fraction, exponent⟩, after)

theorem scanMagnitude_append (ends : EndsNumber tail) {negative : Bool} {text : List Char}
    {left : Nat} {numeral : Numeral} {after : Cursor}
    (scanned : scanMagnitude negative ⟨text, left⟩ = .ok (numeral, after)) (right : Nat) :
    ∃ ending, scanMagnitude negative ⟨text ++ tail, right⟩ =
      .ok (numeral, ⟨after.rest ++ tail, ending⟩) := by
  obtain ⟨⟨whole, afterWhole⟩, wholeScanned, scanned⟩ := exists_of_bind_eq_ok scanned
  obtain ⟨⟨fraction, afterFraction⟩, fractionScanned, scanned⟩ := exists_of_bind_eq_ok scanned
  obtain ⟨⟨exponent, last⟩, exponentScanned, scanned⟩ := exists_of_bind_eq_ok scanned
  obtain ⟨rfl, rfl⟩ := Prod.mk.inj (Except.ok.inj scanned)
  obtain ⟨afterWholeJoined, wholeJoined⟩ := scanWhole_append ends wholeScanned right
  obtain ⟨afterFractionJoined, fractionJoined⟩ :=
    scanFraction_append ends fractionScanned afterWholeJoined
  obtain ⟨ending, exponentJoined⟩ := scanExponent_append ends exponentScanned afterFractionJoined
  refine ⟨ending, ?_⟩
  rw [scanMagnitude, wholeJoined]
  simp only [bind, Except.bind, fractionJoined, exponentJoined]
  rfl

theorem scanNumber_minus (more : List Char) (offset : Nat) :
    scanNumber ⟨'-' :: more, offset⟩ = scanMagnitude true ⟨more, offset + '-'.utf8Size⟩ := rfl

theorem scanNumber_of_no_minus {text : List Char} (other : text.head? ≠ some '-') (offset : Nat) :
    scanNumber ⟨text, offset⟩ = scanMagnitude false ⟨text, offset⟩ := by
  have positive : (text.head? == some '-') = false := beq_eq_false_iff_ne.mpr other
  rw [scanNumber]
  simp only [positive]
  rfl

/-- A number is scanned as it is on its own if it does not run on into what follows it. -/
theorem scanNumber_append (ends : EndsNumber tail) {text : List Char} {left : Nat}
    {numeral : Numeral} {after : Cursor}
    (scanned : scanNumber ⟨text, left⟩ = .ok (numeral, after)) (right : Nat) :
    ∃ ending, scanNumber ⟨text ++ tail, right⟩ = .ok (numeral, ⟨after.rest ++ tail, ending⟩) := by
  cases text with
  | nil => contradiction
  | cons c more =>
    by_cases minus : c = '-'
    · subst minus
      rw [scanNumber_minus] at scanned
      rw [List.cons_append, scanNumber_minus]
      exact scanMagnitude_append ends scanned _
    · have other (rest : List Char) : (c :: rest).head? ≠ some '-' :=
        fun same => minus (Option.some.inj same)
      rw [scanNumber_of_no_minus (other more)] at scanned
      rw [List.cons_append, scanNumber_of_no_minus (other (more ++ tail)), ← List.cons_append]
      exact scanMagnitude_append ends scanned right

end FlatLiquid.Json
