import FlatLiquid.Proofs.Json.Spelling
import FlatLiquid.Json.Printer

/-!
Contract: how many bytes of a text a node takes up at least.

Owns:
- the bytes of joined texts and of written strings;
- the fewest bytes that spell a numeral, a string and a node;
- the scanner, which takes up as many bytes as that or more.

A text can be longer than the fewest bytes: by blanks, by escapes that are not needed and by the
plus sign of an exponent.
-/

namespace FlatLiquid.Json

/-! ## Bytes -/

@[simp]
theorem byteSize_nil : byteSize [] = 0 := rfl

@[simp]
theorem byteSize_cons (c : Char) (rest : List Char) :
    byteSize (c :: rest) = c.utf8Size + byteSize rest := rfl

@[simp]
theorem byteSize_append (left right : List Char) :
    byteSize (left ++ right) = byteSize left + byteSize right := by
  induction left with
  | nil => simp
  | cons c rest inductionHypothesis =>
    rw [List.cons_append, byteSize_cons, byteSize_cons, inductionHypothesis, Nat.add_assoc]

theorem length_le_byteSize (text : List Char) : text.length ≤ byteSize text := by
  induction text with
  | nil => exact Nat.le_refl 0
  | cons c rest inductionHypothesis =>
    have positive := c.utf8Size_pos
    rw [List.length_cons, byteSize_cons]
    omega

theorem utf8ByteSize_ofList (text : List Char) :
    (String.ofList text).utf8ByteSize = byteSize text := by
  induction text with
  | nil => rfl
  | cons c rest inductionHypothesis =>
    rw [String.ofList_cons, String.utf8ByteSize_append, String.utf8ByteSize_singleton,
      inductionHypothesis, byteSize_cons]

/-! ## Written characters -/

/-- The code of a control character has four digits. -/
theorem byteSize_escape_control :
    ∀ code < 0x20,
      byteSize (List.replicate (4 - (Nat.toDigits 16 code).length) '0' ++
        Nat.toDigits 16 code) = 4 := by
  decide

theorem escapeChar_of_printable {c : Char} (notQuote : c ≠ '"') (notBackslash : c ≠ '\\')
    (printable : ¬ c.toNat < 0x20) : escapeChar c = [c] := by
  unfold escapeChar
  split
  all_goals first | contradiction | exact absurd (by decide) printable | exact if_neg printable

theorem byteSize_escapeChar_le (c : Char) : byteSize (escapeChar c) ≤ 6 := by
  unfold escapeChar
  split
  case h_8 =>
    split
    · next control =>
      have digits := byteSize_escape_control c.toNat control
      rw [List.append_assoc, byteSize_append, digits]
      decide
    · have width := c.utf8Size_le_four
      simp only [byteSize_cons, byteSize_nil]
      omega
  all_goals decide

theorem byteSize_escapeChar_of_shortEscape? {letter c : Char}
    (means : shortEscape? letter = some c) : byteSize (escapeChar c) ≤ 2 := by
  unfold shortEscape? at means
  split at means
  case h_9 => contradiction
  all_goals
    obtain rfl := Option.some.inj means
    decide

/-! ## The fewest bytes -/

/-- The bytes of a sign. -/
def signSize (negative : Bool) : Nat :=
  if negative then 1 else 0

/-- The fewest bytes that spell an exponent. A plus sign does not count. -/
def exponentSize : Option (Bool × List Char) → Nat
  | none => 0
  | some (negative, digits) => 1 + signSize negative + digits.length

/-- The fewest bytes that spell a numeral. -/
def Numeral.size (numeral : Numeral) : Nat :=
  signSize numeral.negative + numeral.whole.length +
    (if numeral.fraction.isEmpty then 0 else numeral.fraction.length + 1) +
    exponentSize numeral.exponent

/-- The fewest bytes that spell a string. A string that cannot be read counts for nothing. -/
def textSize : Except Fault (List Char) → Nat
  | .ok text => byteSize (printString (String.ofList text))
  | .error _ => 0

mutual

/-- The fewest bytes that spell a node. -/
def Node.size : Node → Nat
  | .null _ => 4
  | .bool value _ => if value then 4 else 5
  | .number numeral _ => numeral.size
  | .string text _ => textSize text
  | .array _ items _ => 2 + (sizeOfItems items - 1)
  | .object _ fields _ => 2 + (sizeOfFields fields - 1)
  | .broken _ => 0

/-- The fewest bytes that spell items, each with a comma or a bracket after it. -/
def sizeOfItems : List Node → Nat
  | [] => 0
  | item :: rest => item.size + 1 + sizeOfItems rest

/-- The fewest bytes that spell fields, each with a comma or a bracket after it. -/
def sizeOfFields : List (Key × Node) → Nat
  | [] => 0
  | (key, value) :: rest => textSize key.text + 1 + value.size + 1 + sizeOfFields rest

end

theorem byteSize_printString (text : String) :
    byteSize (printString text) = byteSize (text.toList.flatMap escapeChar) + 2 := by
  have quote : byteSize ['"'] = 1 := rfl
  rw [printString, List.cons_append, byteSize_cons, byteSize_append, quote]
  show 1 + (_ + 1) = _
  omega

/-! ## Strings -/

/-- The characters of a string from one of them on. -/
theorem exists_of_map_cons {found : Except Fault (List Char × Cursor)} {c : Char}
    {read : List Char} {after : Cursor}
    (same : found.map (fun (text, after) => (c :: text, after)) = .ok (read, after)) :
    ∃ more, read = c :: more ∧ found = .ok (more, after) := by
  obtain ⟨⟨more, last⟩, foundMore, sameParts⟩ := exists_of_map_eq_ok same
  obtain ⟨rfl, rfl⟩ := Prod.mk.inj sameParts
  exact ⟨more, rfl, foundMore⟩

/-- A character and what follows it, if the text before the rest has the bytes of its escape. -/
theorem extent_cons {c : Char} {more rest left : List Char} (front : List Char)
    (width : byteSize (escapeChar c) ≤ byteSize front)
    (ofMore : byteSize (more.flatMap escapeChar) + 1 + byteSize left ≤ byteSize rest) :
    byteSize ((c :: more).flatMap escapeChar) + 1 + byteSize left ≤ byteSize (front ++ rest) := by
  rw [List.flatMap_cons, byteSize_append, byteSize_append]
  omega

/-- A string that can be read takes up the bytes of its written form at least. -/
theorem extent_readString {text read : List Char} {offset : Nat} {after : Cursor}
    (found : readString text offset = .ok (read, after)) :
    byteSize (read.flatMap escapeChar) + 1 + byteSize after.rest ≤ byteSize text := by
  have enough {c : Char} {front : List Char} (width : byteSize (escapeChar c) ≤ front.length) :
      byteSize (escapeChar c) ≤ byteSize front := Nat.le_trans width (length_le_byteSize front)
  fun_induction readString text offset generalizing read after
  case case2 rest offset =>
    obtain ⟨rfl, rfl⟩ := Prod.mk.inj (Except.ok.inj found)
    exact Nat.le_refl _
  case case6 a b c d offset leading _ _ _ e f g h tail trailing _ _ inductionHypothesis =>
    obtain ⟨more, rfl, foundMore⟩ := exists_of_map_cons found
    have width := byteSize_escapeChar_le (joinSurrogates leading trailing)
    exact extent_cons ['\\', 'u', a, b, c, d, '\\', 'u', e, f, g, h]
      (enough (Nat.le_trans width (by simp))) (inductionHypothesis foundMore)
  case case13 a b c d rest offset unit _ _ _ inductionHypothesis =>
    obtain ⟨more, rfl, foundMore⟩ := exists_of_map_cons found
    exact extent_cons ['\\', 'u', a, b, c, d] (enough (byteSize_escapeChar_le (Char.ofNat unit)))
      (inductionHypothesis foundMore)
  case case17 letter rest offset _ _ c means inductionHypothesis =>
    obtain ⟨more, rfl, foundMore⟩ := exists_of_map_cons found
    exact extent_cons ['\\', letter] (enough (byteSize_escapeChar_of_shortEscape? means))
      (inductionHypothesis foundMore)
  case case19 c rest offset notQuote _ _ lone notBackslash printable inductionHypothesis =>
    obtain ⟨more, rfl, foundMore⟩ := exists_of_map_cons found
    have solid : c ≠ '\\' := by
      intro backslash
      cases rest with
      | nil => exact lone backslash rfl
      | cons next tail => exact notBackslash next tail backslash rfl
    have plain := escapeChar_of_printable notQuote solid printable
    exact extent_cons [c] (Nat.le_of_eq (congrArg byteSize plain)) (inductionHypothesis foundMore)
  all_goals contradiction

/-- Whoever skips a string that can be read comes to the same place. -/
theorem skipString_of_readString {text read : List Char} {offset : Nat} {after : Cursor}
    (found : readString text offset = .ok (read, after)) : skipString text offset = .ok after := by
  fun_induction readString text offset generalizing read after
  case case2 rest offset =>
    obtain ⟨rfl, rfl⟩ := Prod.mk.inj (Except.ok.inj found)
    rw [skipString]
  case case6 a b c d offset leading known _ _ e f g h tail trailing known' _ inductionHypothesis =>
    obtain ⟨more, rfl, foundMore⟩ := exists_of_map_cons found
    simp only [skipString, known, known', inductionHypothesis foundMore]
  case case13 a b c d rest offset unit known _ _ inductionHypothesis =>
    obtain ⟨more, rfl, foundMore⟩ := exists_of_map_cons found
    simp only [skipString, known, inductionHypothesis foundMore]
  case case17 letter rest offset noCode noCode' c means inductionHypothesis =>
    obtain ⟨more, rfl, foundMore⟩ := exists_of_map_cons found
    rw [skipString.eq_6 _ _ _ noCode noCode', means]
    exact inductionHypothesis foundMore
  case case19 c rest offset notQuote noCode noCode' lone solid printable inductionHypothesis =>
    obtain ⟨more, rfl, foundMore⟩ := exists_of_map_cons found
    rw [skipString.eq_7 _ _ _ notQuote noCode noCode' lone solid, if_neg printable]
    exact inductionHypothesis foundMore
  all_goals contradiction

/-- A string that is skipped takes up its closing quote at least. -/
theorem extent_skipString {text : List Char} {offset : Nat} {after : Cursor}
    (found : skipString text offset = .ok after) : 1 + byteSize after.rest ≤ byteSize text := by
  fun_induction skipString text offset generalizing after
  case case2 rest offset =>
    obtain rfl := Except.ok.inj found
    exact Nat.le_refl _
  case case4 a b c d rest offset _ _ inductionHypothesis =>
    have ofMore := inductionHypothesis found
    simp only [byteSize_cons]
    omega
  case case8 letter rest offset _ _ _ _ inductionHypothesis =>
    have ofMore := inductionHypothesis found
    simp only [byteSize_cons]
    omega
  case case10 c rest offset _ _ _ _ _ _ inductionHypothesis =>
    have ofMore := inductionHypothesis found
    simp only [byteSize_cons]
    omega
  all_goals contradiction

/-! ## Places -/

theorem byteSize_skipBlanks_le (cursor : Cursor) :
    byteSize cursor.skipBlanks.rest ≤ byteSize cursor.rest := by
  have whole := congrArg byteSize
    (List.takeWhile_append_dropWhile (p := isBlank) (l := cursor.rest))
  rw [byteSize_append] at whole
  show byteSize (cursor.rest.dropWhile isBlank) ≤ _
  omega

theorem byteSize_step {cursor : Cursor} {c : Char} {rest : List Char}
    (starts : cursor.rest = c :: rest) :
    1 + byteSize cursor.step.rest ≤ byteSize cursor.rest := by
  have positive := c.utf8Size_pos
  simp only [Cursor.step, starts, byteSize_cons]
  omega

theorem byteSize_takeDigits_le (cursor : Cursor) :
    cursor.takeDigits.1.length + byteSize cursor.takeDigits.2.rest ≤ byteSize cursor.rest := by
  have whole := congrArg byteSize
    (List.takeWhile_append_dropWhile (p := Char.isDigit) (l := cursor.rest))
  have digits := length_le_byteSize (cursor.rest.takeWhile Char.isDigit)
  rw [byteSize_append] at whole
  show (cursor.rest.takeWhile Char.isDigit).length +
    byteSize (cursor.rest.dropWhile Char.isDigit) ≤ _
  omega

/-! ## Single values -/

theorem extent_scanWord {letters : List Char} {cursor after : Cursor}
    (found : scanWord letters cursor = .ok after) :
    letters.length + byteSize after.rest ≤ byteSize cursor.rest := by
  induction letters generalizing cursor with
  | nil =>
    obtain rfl := Except.ok.inj found
    exact Nat.le_of_eq (Nat.zero_add _)
  | cons letter letters inductionHypothesis =>
    rw [scanWord] at found
    split at found
    · contradiction
    · next starts =>
      split at found
      · have ofMore := inductionHypothesis found
        have stepped := byteSize_step starts
        rw [List.length_cons]
        omega
      · contradiction

theorem extent_scanWhole {cursor after : Cursor} {digits : List Char}
    (found : scanWhole cursor = .ok (digits, after)) :
    digits.length + byteSize after.rest ≤ byteSize cursor.rest := by
  unfold scanWhole at found
  split at found
  · next starts =>
    split at found
    · contradiction
    · obtain ⟨rfl, rfl⟩ := Prod.mk.inj (Except.ok.inj found)
      exact byteSize_step starts
  · simp only at found
    split at found
    · contradiction
    · obtain ⟨rfl, rfl⟩ := Prod.mk.inj (Except.ok.inj found)
      exact byteSize_takeDigits_le cursor

theorem extent_scanFraction {cursor after : Cursor} {digits : List Char}
    (found : scanFraction cursor = .ok (digits, after)) :
    (if digits.isEmpty then 0 else digits.length + 1) + byteSize after.rest ≤
      byteSize cursor.rest := by
  unfold scanFraction at found
  split at found
  · next starts =>
    simp only at found
    split at found
    · contradiction
    · next some =>
      obtain ⟨rfl, rfl⟩ := Prod.mk.inj (Except.ok.inj found)
      have stepped := byteSize_step starts
      have taken := byteSize_takeDigits_le cursor.step
      rw [if_neg some]
      omega
  · obtain ⟨rfl, rfl⟩ := Prod.mk.inj (Except.ok.inj found)
    exact Nat.le_of_eq (Nat.zero_add _)

theorem extent_scanSign (cursor : Cursor) :
    signSize (scanSign cursor).1 + byteSize (scanSign cursor).2.rest ≤ byteSize cursor.rest := by
  unfold scanSign
  split
  · next starts =>
    have stepped := byteSize_step starts
    show 0 + byteSize cursor.step.rest ≤ _
    omega
  · next starts => exact byteSize_step starts
  · exact Nat.le_of_eq (Nat.zero_add _)

theorem extent_scanExponent {cursor after : Cursor} {exponent : Option (Bool × List Char)}
    (found : scanExponent cursor = .ok (exponent, after)) :
    exponentSize exponent + byteSize after.rest ≤ byteSize cursor.rest := by
  unfold scanExponent at found
  split at found
  · next starts =>
    split at found
    · simp only at found
      split at found
      · contradiction
      · obtain ⟨rfl, rfl⟩ := Prod.mk.inj (Except.ok.inj found)
        have stepped := byteSize_step starts
        have signed := extent_scanSign cursor.step
        have taken := byteSize_takeDigits_le (scanSign cursor.step).2
        rw [exponentSize]
        omega
    · obtain ⟨rfl, rfl⟩ := Prod.mk.inj (Except.ok.inj found)
      exact Nat.le_of_eq (Nat.zero_add _)
  · obtain ⟨rfl, rfl⟩ := Prod.mk.inj (Except.ok.inj found)
    exact Nat.le_of_eq (Nat.zero_add _)

theorem extent_scanNumber {cursor after : Cursor} {numeral : Numeral}
    (found : scanNumber cursor = .ok (numeral, after)) :
    numeral.size + byteSize after.rest ≤ byteSize cursor.rest := by
  unfold scanNumber at found
  obtain ⟨⟨whole, afterWhole⟩, foundWhole, found⟩ := exists_of_bind_eq_ok found
  obtain ⟨⟨fraction, afterFraction⟩, foundFraction, found⟩ := exists_of_bind_eq_ok found
  obtain ⟨⟨exponent, last⟩, foundExponent, found⟩ := exists_of_bind_eq_ok found
  obtain ⟨rfl, rfl⟩ := Prod.mk.inj (Except.ok.inj found)
  have ofWhole := extent_scanWhole foundWhole
  have ofFraction := extent_scanFraction foundFraction
  have ofExponent := extent_scanExponent foundExponent
  have ofSign : signSize (cursor.rest.head? == some '-') +
      byteSize (if cursor.rest.head? == some '-' then cursor.step else cursor).rest ≤
        byteSize cursor.rest := by
    cases starts : cursor.rest with
    | nil => simp [signSize, starts]
    | cons c rest =>
      have stepped := byteSize_step starts
      rw [starts] at stepped
      by_cases minus : c = '-'
      · simpa [signSize, minus] using stepped
      · simp [signSize, minus, starts]
  simp only [Numeral.size]
  omega

theorem extent_scanString {cursor after : Cursor} {text : Except Fault (List Char)}
    (found : scanString cursor = .ok (text, after)) :
    textSize text + byteSize after.rest ≤ byteSize cursor.rest := by
  unfold scanString at found
  simp only at found
  split at found
  · next last skipped =>
    obtain ⟨rfl, rfl⟩ := Prod.mk.inj (Except.ok.inj found)
    have inside : 1 + byteSize last.rest ≤ byteSize cursor.step.rest := extent_skipString skipped
    obtain ⟨c, rest, starts⟩ : ∃ c rest, cursor.rest = c :: rest := by
      cases starts : cursor.rest with
      | nil => simp [Cursor.step, starts] at inside
      | cons c rest => exact ⟨c, rest, rfl⟩
    have stepped := byteSize_step starts
    cases read : readString cursor.step.rest cursor.step.offset with
    | error fault =>
      simp only [Except.map, textSize]
      omega
    | ok found =>
      obtain ⟨text, place⟩ := found
      obtain rfl := Except.ok.inj ((skipString_of_readString read).symm.trans skipped)
      have spelled := extent_readString read
      simp only [Except.map, textSize, byteSize_printString]
      rw [String.toList_ofList]
      omega
  · split at found <;> contradiction

/-! ## Arrays and objects -/

/-- From this place on, a separator takes up its comma or its bracket at least. -/
def Separator.Covers (separator : Separator) (start : Cursor) : Prop :=
  match separator with
  | .comma next => 1 + byteSize next.rest ≤ byteSize start.rest
  | .ending (.closed stop) => 1 + byteSize stop.rest ≤ byteSize start.rest
  | .ending (.broken _) => True

/-- One character after blanks. -/
theorem extent_step_skipBlanks {cursor : Cursor} {c : Char} {rest : List Char}
    (starts : cursor.skipBlanks.rest = c :: rest) :
    1 + byteSize cursor.skipBlanks.step.rest ≤ byteSize cursor.rest :=
  Nat.le_trans (byteSize_step starts) (byteSize_skipBlanks_le cursor)

/-- One character after blanks, and blanks after it. -/
theorem extent_skipBlanks_step_skipBlanks {cursor : Cursor} {c : Char} {rest : List Char}
    (starts : cursor.skipBlanks.rest = c :: rest) :
    1 + byteSize cursor.skipBlanks.step.skipBlanks.rest ≤ byteSize cursor.rest :=
  Nat.le_trans (Nat.add_le_add_left (byteSize_skipBlanks_le _) 1) (extent_step_skipBlanks starts)

theorem covers_scanItemSeparator (after : Cursor) : (scanItemSeparator after).Covers after := by
  unfold scanItemSeparator
  simp only
  split
  · trivial
  · next starts => exact extent_step_skipBlanks starts
  · next starts =>
    split
    · trivial
    · trivial
    · exact extent_skipBlanks_step_skipBlanks starts
  · trivial

theorem covers_scanFieldSeparator (after : Cursor) : (scanFieldSeparator after).Covers after := by
  unfold scanFieldSeparator
  simp only
  split
  · trivial
  · next starts => exact extent_step_skipBlanks starts
  · next starts =>
    split
    · trivial
    · trivial
    · exact extent_skipBlanks_step_skipBlanks starts
    · trivial
  · trivial

theorem extent_scanColon {after start : Cursor} (found : scanColon after = .ok start) :
    1 + byteSize start.rest ≤ byteSize after.rest := by
  unfold scanColon at found
  simp only at found
  split at found
  case h_2 rest starts =>
    obtain rfl := Except.ok.inj found
    exact extent_step_skipBlanks starts
  all_goals contradiction

/-- From this place to its end, a node takes up its size at least. -/
def Node.Covers (node : Node) (start : Cursor) : Prop :=
  ∀ after, node.finish = .ok after → node.size + byteSize after.rest ≤ byteSize start.rest

/-- From this place to the closing bracket, items or fields of this size take it up at least. -/
def Ending.Covers (ending : Ending) (size : Nat) (start : Cursor) : Prop :=
  ∀ stop, ending = .closed stop → 1 ≤ size ∧ size + byteSize stop.rest ≤ byteSize start.rest

theorem Node.Covers.broken (stop : Break) (start : Cursor) : (Node.broken stop).Covers start :=
  nofun

theorem Node.Covers.skipBlanks {node : Node} {cursor : Cursor}
    (covers : node.Covers cursor.skipBlanks) : node.Covers cursor := fun after finished =>
  Nat.le_trans (covers after finished) (byteSize_skipBlanks_le cursor)

theorem Node.Covers.single {node : Node} {start after : Cursor} (finished : node.finish = .ok after)
    (extent : node.size + byteSize after.rest ≤ byteSize start.rest) : node.Covers start := by
  intro last finishedAt
  obtain rfl := Except.ok.inj (finished.symm.trans finishedAt)
  exact extent

theorem closed_of_finish_array {start after : Cursor} {items : List Node} {ending : Ending}
    (finished : (Node.array start items ending).finish = .ok after) : ending = .closed after := by
  cases ending with
  | closed stop => exact congrArg Ending.closed (Except.ok.inj finished)
  | broken stop => exact nomatch finished

theorem closed_of_finish_object {start after : Cursor} {fields : List (Key × Node)}
    {ending : Ending} (finished : (Node.object start fields ending).finish = .ok after) :
    ending = .closed after := by
  cases ending with
  | closed stop => exact congrArg Ending.closed (Except.ok.inj finished)
  | broken stop => exact nomatch finished

/-- A bracket and what is up to the closing one. -/
theorem Ending.Covers.enclosed {ending : Ending} {size : Nat} {start stop : Cursor} {c : Char}
    {rest : List Char} (covers : ending.Covers size start.step.skipBlanks)
    (starts : start.rest = c :: rest) (closed : ending = .closed stop) :
    2 + (size - 1) + byteSize stop.rest ≤ byteSize start.rest := by
  obtain ⟨some, inside⟩ := covers stop closed
  have blanks := byteSize_skipBlanks_le start.step
  have stepped := byteSize_step starts
  omega

/-- An empty array or object. -/
theorem enclosed_nothing {start : Cursor} {c bracket : Char} {rest tail : List Char}
    (starts : start.rest = c :: rest) (ends : start.step.skipBlanks.rest = bracket :: tail) :
    2 + byteSize start.step.skipBlanks.step.rest ≤ byteSize start.rest := by
  have blanks := byteSize_skipBlanks_le start.step
  have stepped := byteSize_step starts
  have closed := byteSize_step ends
  omega

section Step

variable {fuel : Nat}

theorem covers_scanValue_succ
    (ofItems : ∀ cursor,
      (scanItems fuel cursor).2.Covers (sizeOfItems (scanItems fuel cursor).1) cursor)
    (ofFields : ∀ cursor,
      (scanFields fuel cursor).2.Covers (sizeOfFields (scanFields fuel cursor).1) cursor)
    (cursor : Cursor) : (scanValue (fuel + 1) cursor).Covers cursor := by
  refine Node.Covers.skipBlanks ?_
  rw [scanValue]
  split
  · exact .broken _ _
  · split
    · next found => exact .single rfl (extent_scanWord found)
    · exact .broken _ _
  · split
    · next found => exact .single rfl (extent_scanWord found)
    · exact .broken _ _
  · split
    · next found => exact .single rfl (extent_scanWord found)
    · exact .broken _ _
  · split
    · next found => exact .single rfl (extent_scanString found)
    · exact .broken _ _
  · next starts =>
    simp only
    split
    · exact nofun
    · next ends => exact .single rfl (enclosed_nothing starts ends)
    · exact fun after finished => (ofItems _).enclosed starts (closed_of_finish_array finished)
  · next starts =>
    simp only
    split
    · exact nofun
    · next ends => exact .single rfl (enclosed_nothing starts ends)
    · exact fun after finished => (ofFields _).enclosed starts (closed_of_finish_object finished)
    · exact nofun
  · split
    · split
      · next found => exact .single rfl (extent_scanNumber found)
      · exact .broken _ _
    · exact .broken _ _

theorem covers_scanItems_succ (ofValue : ∀ cursor, (scanValue fuel cursor).Covers cursor)
    (ofItems : ∀ cursor,
      (scanItems fuel cursor).2.Covers (sizeOfItems (scanItems fuel cursor).1) cursor)
    (cursor : Cursor) :
    (scanItems (fuel + 1) cursor).2.Covers (sizeOfItems (scanItems (fuel + 1) cursor).1)
      cursor := by
  rw [scanItems]
  split
  · exact nofun
  · next after finished =>
    have ofItem := ofValue cursor after finished
    have separated := covers_scanItemSeparator after
    split
    · next ending separator =>
      rintro stop rfl
      simp only [separator, Separator.Covers] at separated
      simp only [sizeOfItems]
      omega
    · next following separator =>
      intro stop closed
      obtain ⟨_, ofRest⟩ := ofItems following stop closed
      simp only [separator, Separator.Covers] at separated
      simp only [sizeOfItems]
      omega

theorem covers_scanFields_succ (ofValue : ∀ cursor, (scanValue fuel cursor).Covers cursor)
    (ofFields : ∀ cursor,
      (scanFields fuel cursor).2.Covers (sizeOfFields (scanFields fuel cursor).1) cursor)
    (cursor : Cursor) :
    (scanFields (fuel + 1) cursor).2.Covers (sizeOfFields (scanFields (fuel + 1) cursor).1)
      cursor := by
  rw [scanFields]
  split
  · exact nofun
  · next text afterKey found =>
    have ofKey := extent_scanString found
    simp only
    split
    · exact nofun
    · next start foundColon =>
      have colon := extent_scanColon foundColon
      split
      · exact nofun
      · next after finished =>
        have ofField := ofValue start after finished
        have separated := covers_scanFieldSeparator after
        split
        · next ending separator =>
          rintro stop rfl
          simp only [separator, Separator.Covers] at separated
          simp only [sizeOfFields]
          omega
        · next following separator =>
          intro stop closed
          obtain ⟨_, ofRest⟩ := ofFields following stop closed
          simp only [separator, Separator.Covers] at separated
          simp only [sizeOfFields]
          omega

end Step

/-- What is scanned with so much fuel takes up its size at least. -/
theorem covers_scan (fuel : Nat) :
    (∀ cursor, (scanValue fuel cursor).Covers cursor) ∧
      (∀ cursor, (scanItems fuel cursor).2.Covers (sizeOfItems (scanItems fuel cursor).1) cursor) ∧
      (∀ cursor,
        (scanFields fuel cursor).2.Covers (sizeOfFields (scanFields fuel cursor).1) cursor) := by
  induction fuel with
  | zero => exact ⟨fun _ => .broken _ _, fun _ => nofun, fun _ => nofun⟩
  | succ fuel inductionHypothesis =>
    obtain ⟨ofValue, ofItems, ofFields⟩ := inductionHypothesis
    exact ⟨covers_scanValue_succ ofItems ofFields, covers_scanItems_succ ofValue ofItems,
      covers_scanFields_succ ofValue ofFields⟩

/-- A text has the bytes of its node at least. -/
theorem size_ofText_le {text : List Char} {after : Cursor}
    (finished : (Node.ofText text).finish = .ok after) :
    (Node.ofText text).size ≤ byteSize text :=
  Nat.le_trans (Nat.le_add_right _ _) ((covers_scan _).1 (.ofText text) after finished)

end FlatLiquid.Json
