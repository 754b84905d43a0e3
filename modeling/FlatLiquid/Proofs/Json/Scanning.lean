import FlatLiquid.Proofs.Json.Layout
import FlatLiquid.Proofs.Json.Links
import FlatLiquid.Proofs.Json.Numeral
import FlatLiquid.Proofs.Json.Quotation

/-!
Contract: the printed form of a value is scanned as a node that spells the value.

Owns:
- values whose numbers are printed so that they are read as they were;
- the scan of a single value, of separators, and of arrays and objects that are printed in a layout;
- the round trip of a value through its compact and its indented form.

The induction is on the value. Its invariant is that the scan of a printed part ends where the text
after the part begins, up to blanks, with fuel for two steps on each printed character. A value
takes one step less than that, since nothing stands around the innermost one.
-/

namespace FlatLiquid.Json

/-- Every number inside a value is read as itself from the text that it is printed as. -/
def NumbersReadBack (value : Json) : Prop :=
  ∀ number, .number number ∈ value.parts → parse (printNumber number) = .ok (.number number)

/-- A value is a number. -/
def isNumber : Json → Bool
  | .number _ => true
  | _ => false

theorem NumbersReadBack.of_no_number {value : Json} (none : value.parts.any isNumber = false) :
    value.NumbersReadBack := by
  intro number member
  exact absurd (List.any_eq_true.mpr ⟨_, member, rfl⟩) (Bool.eq_false_iff.mp none)

/-! ## Blanks -/

/-- A text from its first character that is no blank. -/
def unblanked (text : List Char) : List Char :=
  text.dropWhile isBlank

theorem unblanked_cons {c : Char} (solid : isBlank c = false) (text : List Char) :
    unblanked (c :: text) = c :: text := by
  rw [unblanked, List.dropWhile_cons, solid]
  rfl

theorem unblanked_cons_of_blank {c : Char} (blank : isBlank c = true) (text : List Char) :
    unblanked (c :: text) = unblanked text := by
  rw [unblanked, List.dropWhile_cons, blank]
  rfl

theorem unblanked_unblanked (text : List Char) : unblanked (unblanked text) = unblanked text := by
  induction text with
  | nil => rfl
  | cons c text inductionHypothesis =>
    cases solid : isBlank c with
    | false => rw [unblanked_cons solid, unblanked_cons solid]
    | true => rw [unblanked_cons_of_blank solid, inductionHypothesis]

theorem unblanked_append {text : List Char} {c : Char} {more : List Char}
    (starts : unblanked text = c :: more) (rest : List Char) :
    unblanked (text ++ rest) = c :: more ++ rest := by
  have nonempty : (unblanked text).isEmpty = false := by rw [starts]; rfl
  rw [unblanked] at nonempty starts
  rw [unblanked, List.dropWhile_append, nonempty, starts]
  rfl

theorem unblanked_append_of_blank {text : List Char} (blank : unblanked text = [])
    (rest : List Char) : unblanked (text ++ rest) = unblanked rest := by
  rw [unblanked] at blank
  rw [unblanked, List.dropWhile_append, blank]
  rfl

/-- All that the layout adds is blanks. -/
structure Layout.IsBlank (layout : Layout) : Prop where
  line : ∀ depth, unblanked (layout.line depth) = []
  gap : unblanked layout.gap = []

theorem Layout.isBlank_compact : Layout.compact.IsBlank where
  line := fun _ => rfl
  gap := rfl

theorem Layout.isBlank_indented : Layout.indented.IsBlank where
  line := by
    have spaces (count : Nat) : unblanked (List.replicate count ' ') = [] := by
      induction count with
      | zero => rfl
      | succ count inductionHypothesis =>
        rw [List.replicate_succ, unblanked_cons_of_blank rfl, inductionHypothesis]
    intro depth
    exact (unblanked_cons_of_blank rfl _).trans (spaces (2 * depth))
  gap := rfl

theorem rest_skipBlanks (cursor : Cursor) : cursor.skipBlanks.rest = unblanked cursor.rest := rfl

theorem skipBlanks_skipBlanks (cursor : Cursor) :
    cursor.skipBlanks.skipBlanks = cursor.skipBlanks := by
  have noBlanks (text : List Char) : (unblanked text).takeWhile isBlank = [] := by
    induction text with
    | nil => rfl
    | cons c text inductionHypothesis =>
      cases solid : isBlank c with
      | false => rw [unblanked_cons solid, List.takeWhile_cons, solid]; rfl
      | true => rw [unblanked_cons_of_blank solid, inductionHypothesis]
  have sameRest := unblanked_unblanked cursor.rest
  rw [unblanked, unblanked] at sameRest
  have none := noBlanks cursor.rest
  rw [unblanked] at none
  simp only [Cursor.skipBlanks, sameRest, none, List.length_nil, Nat.add_zero]

/-- Blanks before a value change nothing but its place. -/
theorem exists_scanValue_of_unblanked {cursor : Cursor} {text : List Char}
    (starts : unblanked cursor.rest = text) (fuel : Nat) :
    ∃ offset, scanValue (fuel + 1) cursor = scanValue (fuel + 1) ⟨text, offset⟩ ∧
      Cursor.skipBlanks ⟨text, offset⟩ = ⟨text, offset⟩ := by
  subst starts
  refine ⟨cursor.skipBlanks.offset, ?_, skipBlanks_skipBlanks cursor⟩
  have again := skipBlanks_skipBlanks cursor
  change Cursor.skipBlanks ⟨unblanked cursor.rest, cursor.skipBlanks.offset⟩ = _ at again
  rw [scanValue, scanValue, again]

/-! ## Separators -/

theorem scanItemSeparator_of_bracket {after : Cursor} {tail : List Char}
    (next : unblanked after.rest = ']' :: tail) :
    ∃ stop, scanItemSeparator after = .ending (.closed stop) ∧ stop.rest = tail := by
  refine ⟨after.skipBlanks.step, ?_, ?_⟩
  · rw [scanItemSeparator]
    simp only [rest_skipBlanks, next]
  · rw [Cursor.step, rest_skipBlanks, next]

theorem scanItemSeparator_of_comma {after : Cursor} {text more : List Char} {c : Char}
    (comma : unblanked after.rest = ',' :: text) (starts : unblanked text = c :: more)
    (other : c ≠ ']') :
    ∃ next, scanItemSeparator after = .comma next ∧ next.rest = unblanked text := by
  have stepped : after.skipBlanks.step.rest = text := by
    rw [Cursor.step, rest_skipBlanks, comma]
  refine ⟨after.skipBlanks.step.skipBlanks, ?_, by rw [rest_skipBlanks, stepped]⟩
  rw [scanItemSeparator]
  simp only [rest_skipBlanks, comma, stepped, starts]
  split
  · contradiction
  · next same => exact absurd (List.cons.inj same).1 other
  · rfl

theorem scanFieldSeparator_of_brace {after : Cursor} {tail : List Char}
    (next : unblanked after.rest = '\x7d' :: tail) :
    ∃ stop, scanFieldSeparator after = .ending (.closed stop) ∧ stop.rest = tail := by
  refine ⟨after.skipBlanks.step, ?_, ?_⟩
  · rw [scanFieldSeparator]
    simp only [rest_skipBlanks, next]
  · rw [Cursor.step, rest_skipBlanks, next]

theorem scanFieldSeparator_of_comma {after : Cursor} {text more : List Char}
    (comma : unblanked after.rest = ',' :: text) (starts : unblanked text = '"' :: more) :
    ∃ next, scanFieldSeparator after = .comma next ∧ next.rest = unblanked text := by
  have stepped : after.skipBlanks.step.rest = text := by
    rw [Cursor.step, rest_skipBlanks, comma]
  refine ⟨after.skipBlanks.step.skipBlanks, ?_, by rw [rest_skipBlanks, stepped]⟩
  rw [scanFieldSeparator]
  simp only [rest_skipBlanks, comma, stepped, starts]

theorem scanColon_of_colon {after : Cursor} {text : List Char}
    (colon : unblanked after.rest = ':' :: text) :
    ∃ start, scanColon after = .ok start ∧ start.rest = text := by
  refine ⟨after.skipBlanks.step, ?_, ?_⟩
  · rw [scanColon]
    simp only [rest_skipBlanks, colon]
  · rw [Cursor.step, rest_skipBlanks, colon]

/-! ## Single values -/

/-- The value of a numeral does not depend on its place. -/
theorem Numeral.value_eq_ok {numeral : Numeral} {left : Nat} {number : Number}
    (value : numeral.value left = .ok number) (right : Nat) :
    numeral.value right = .ok number := by
  rw [Numeral.value] at value ⊢
  simp only at value ⊢
  split at value
  · next whole =>
    rw [if_pos whole]
    exact value
  · next scaled =>
    rw [if_neg scaled]
    split at value
    · split at value
      · exact value
      · contradiction
    · split at value
      · next fits =>
        rw [if_pos fits]
        split at value
        · exact value
        · contradiction
      · next exceeds =>
        rw [if_neg exceeds]
        split at value
        · next vanishes =>
          rw [if_pos vanishes]
          exact value
        · contradiction

theorem exists_of_read_eq_number {node : Node} {depth : Nat} {number : Number}
    (read : node.read depth = .ok (.number number)) :
    ∃ numeral after, node = .number numeral after ∧ numeral.value after.offset = .ok number := by
  cases node with
  | number numeral after =>
    obtain ⟨found, value, same⟩ := exists_of_map_eq_ok read
    rw [Json.number.inj same] at value
    exact ⟨numeral, after, rfl, value⟩
  | null after => exact nomatch Except.ok.inj read
  | bool value after => exact nomatch Except.ok.inj read
  | string text after =>
    obtain ⟨_, _, same⟩ := exists_of_map_eq_ok read
    contradiction
  | array start items ending =>
    obtain ⟨_, _, same, _⟩ := exists_of_read_array read
    contradiction
  | object start fields ending =>
    obtain ⟨_, _, same, _⟩ := exists_of_read_object read
    contradiction
  | broken stop => contradiction

theorem scanValue_eq_number {fuel : Nat} {cursor after : Cursor} {numeral : Numeral}
    (scanned : scanValue (fuel + 1) cursor = .number numeral after) :
    ∃ c more, unblanked cursor.rest = c :: more ∧ (c == '-' || c.isDigit) = true ∧
      scanNumber cursor.skipBlanks = .ok (numeral, after) := by
  rw [scanValue] at scanned
  simp only at scanned
  split at scanned
  · contradiction
  · split at scanned <;> contradiction
  · split at scanned <;> contradiction
  · split at scanned <;> contradiction
  · split at scanned <;> contradiction
  · split at scanned <;> contradiction
  · split at scanned <;> contradiction
  · next c more _ _ _ _ _ _ shape =>
    split at scanned
    · next begins =>
      split at scanned
      · next found afterFound read =>
        injection scanned with sameNumeral sameAfter
        subst sameNumeral sameAfter
        exact ⟨c, more, shape, begins, read⟩
      · contradiction
    · contradiction

theorem scanValue_of_number {c : Char} (begins : (c == '-' || c.isDigit) = true)
    (more : List Char) (fuel offset : Nat)
    (settled : Cursor.skipBlanks ⟨c :: more, offset⟩ = ⟨c :: more, offset⟩) :
    scanValue (fuel + 1) ⟨c :: more, offset⟩ =
      match scanNumber ⟨c :: more, offset⟩ with
      | .ok (numeral, after) => .number numeral after
      | .error stop => .broken stop := by
  rw [scanValue, settled]
  simp only
  split
  · contradiction
  · next same => rw [(List.cons.inj same).1] at begins; exact absurd begins (by decide)
  · next same => rw [(List.cons.inj same).1] at begins; exact absurd begins (by decide)
  · next same => rw [(List.cons.inj same).1] at begins; exact absurd begins (by decide)
  · next same => rw [(List.cons.inj same).1] at begins; exact absurd begins (by decide)
  · next same => rw [(List.cons.inj same).1] at begins; exact absurd begins (by decide)
  · next same => rw [(List.cons.inj same).1] at begins; exact absurd begins (by decide)
  · next same =>
    rw [(List.cons.inj same).1] at begins
    exact if_pos begins

/-- A node spells a value, and the text goes on after it. -/
def ScannedAs (node : Node) (value : Json) (tail : List Char) : Prop :=
  node.Spells value ∧ ∃ after, node.finish = .ok after ∧ unblanked after.rest = unblanked tail

variable {tail : List Char} {cursor : Cursor} {fuel : Nat}

/-- The text of a number that is read back starts like a number. -/
theorem printNumber_starts {number : Number}
    (readBack : parse (printNumber number) = .ok (.number number)) :
    ∃ c more, unblanked (printNumber number) = c :: more ∧ (c == '-' || c.isDigit) = true ∧
      ∃ left numeral after, scanNumber ⟨c :: more, left⟩ = .ok (numeral, after) ∧
        numeral.value after.offset = .ok number ∧ unblanked after.rest = [] := by
  obtain ⟨read, after, finished, ended⟩ := read_of_readText readBack
  obtain ⟨numeral, last, node, found⟩ := exists_of_read_eq_number read
  rw [node] at finished
  obtain rfl : last = after := Except.ok.inj finished
  obtain ⟨c, more, starts, begins, scanned⟩ := scanValue_eq_number node
  have atStart : (Cursor.ofText (printNumber number)).skipBlanks =
      ⟨c :: more, (Cursor.ofText (printNumber number)).skipBlanks.offset⟩ := by
    rw [← starts]
    rfl
  rw [atStart] at scanned
  exact ⟨c, more, starts, begins, _, numeral, last, scanned, found, ended⟩

theorem scanValue_printNumber {number : Number}
    (readBack : parse (printNumber number) = .ok (.number number)) (ends : EndsNumber tail)
    (starts : unblanked cursor.rest = unblanked (printNumber number ++ tail)) :
    ScannedAs (scanValue (fuel + 1) cursor) (.number number) tail := by
  obtain ⟨c, more, shape, begins, left, numeral, after, scanned, found, ended⟩ :=
    printNumber_starts readBack
  rw [unblanked_append shape] at starts
  obtain ⟨offset, placed, settled⟩ := exists_scanValue_of_unblanked starts fuel
  obtain ⟨ending, scannedThere⟩ := scanNumber_append ends scanned offset
  rw [List.cons_append] at placed settled scannedThere
  rw [placed, scanValue_of_number begins _ fuel offset settled, scannedThere]
  refine ⟨.number (Numeral.value_eq_ok found ending), _, rfl, ?_⟩
  exact unblanked_append_of_blank ended tail

theorem scanValue_printString {text : String}
    (starts : unblanked cursor.rest = unblanked (printString text ++ tail)) :
    ScannedAs (scanValue (fuel + 1) cursor) (.string text) tail := by
  have shape : printString text ++ tail =
      '"' :: (text.toList.flatMap escapeChar ++ ['"'] ++ tail) := rfl
  rw [shape, unblanked_cons rfl, ← shape] at starts
  obtain ⟨offset, placed, settled⟩ := exists_scanValue_of_unblanked starts fuel
  obtain ⟨ending, scanned⟩ := scanString_printString text tail offset
  have node : scanValue (fuel + 1) cursor = .string (.ok text.toList) ⟨tail, ending⟩ := by
    rw [placed, scanValue, settled]
    simp only [shape]
    rw [← shape, scanned]
  have spells : (Node.string (.ok text.toList) ⟨tail, ending⟩).Spells (.string text) := by
    have spelled := Node.Spells.string text.toList ⟨tail, ending⟩
    rwa [String.ofList_toList] at spelled
  rw [node]
  exact ⟨spells, _, rfl, rfl⟩

theorem scanValue_null (starts : unblanked cursor.rest = unblanked ("null".toList ++ tail)) :
    ScannedAs (scanValue (fuel + 1) cursor) .null tail := by
  obtain ⟨offset, placed, _⟩ := exists_scanValue_of_unblanked starts fuel
  rw [placed]
  exact ⟨.null _, _, rfl, rfl⟩

theorem scanValue_bool {value : Bool}
    (starts : unblanked cursor.rest =
      unblanked ((if value then "true" else "false").toList ++ tail)) :
    ScannedAs (scanValue (fuel + 1) cursor) (.bool value) tail := by
  obtain ⟨offset, placed, _⟩ := exists_scanValue_of_unblanked starts fuel
  rw [placed]
  cases value with
  | true => exact ⟨.bool true _, _, rfl, rfl⟩
  | false => exact ⟨.bool false _, _, rfl, rfl⟩

/-! ## Brackets -/

theorem scanValue_array_nil (starts : unblanked cursor.rest = unblanked ("[]".toList ++ tail)) :
    ScannedAs (scanValue (fuel + 1) cursor) (.array []) tail := by
  obtain ⟨offset, placed, _⟩ := exists_scanValue_of_unblanked starts fuel
  rw [placed]
  exact ⟨.array _ _ .nil, _, rfl, rfl⟩

theorem scanValue_object_nil
    (starts : unblanked cursor.rest = unblanked (['\x7b', '\x7d'] ++ tail)) :
    ScannedAs (scanValue (fuel + 1) cursor) (.object []) tail := by
  obtain ⟨offset, placed, _⟩ := exists_scanValue_of_unblanked starts fuel
  rw [placed]
  exact ⟨.object _ _ .nil, _, rfl, rfl⟩

/-- An array is scanned as its items, unless it is closed at once. -/
theorem exists_scanItems {text more : List Char} {c : Char}
    (starts : unblanked cursor.rest = '[' :: text) (first : unblanked text = c :: more)
    (other : c ≠ ']') :
    ∃ start next, next.rest = unblanked text ∧
      scanValue (fuel + 1) cursor =
        .array start (scanItems fuel next).1 (scanItems fuel next).2 := by
  obtain ⟨offset, placed, settled⟩ := exists_scanValue_of_unblanked starts fuel
  refine ⟨⟨'[' :: text, offset⟩, (Cursor.step ⟨'[' :: text, offset⟩).skipBlanks, rfl, ?_⟩
  rw [placed, scanValue, settled]
  simp only [rest_skipBlanks, Cursor.step, first]
  split
  · contradiction
  · next same => exact absurd (List.cons.inj same).1 other
  · rfl

theorem exists_scanFields {text more : List Char}
    (starts : unblanked cursor.rest = '\x7b' :: text) (first : unblanked text = '"' :: more) :
    ∃ start next, next.rest = unblanked text ∧
      scanValue (fuel + 1) cursor =
        .object start (scanFields fuel next).1 (scanFields fuel next).2 := by
  obtain ⟨offset, placed, settled⟩ := exists_scanValue_of_unblanked starts fuel
  refine ⟨⟨'\x7b' :: text, offset⟩, (Cursor.step ⟨'\x7b' :: text, offset⟩).skipBlanks, rfl, ?_⟩
  rw [placed, scanValue, settled]
  simp only [rest_skipBlanks, Cursor.step, first]

/-! ## Printed values -/

theorem endsNumber_cons {c : Char} (other : c.isDigit = false ∧ c ≠ '.' ∧ c ≠ 'e' ∧ c ≠ 'E')
    (text : List Char) : EndsNumber (c :: text) := by
  intro first same
  rw [← Option.some.inj same]
  exact other

/-- A number ends before blanks and before whatever it ends before. -/
theorem endsNumber_append {blanks text : List Char} (blank : unblanked blanks = [])
    (ends : EndsNumber text) : EndsNumber (blanks ++ text) := by
  cases blanks with
  | nil => exact ends
  | cons c more =>
    have isBlank : isBlank c = true := by
      cases solid : isBlank c with
      | true => rfl
      | false =>
        rw [unblanked_cons solid] at blank
        contradiction
    apply endsNumber_cons
    simp only [Json.isBlank, Bool.or_eq_true, beq_iff_eq] at isBlank
    rcases isBlank with ((rfl | rfl) | rfl) | rfl <;> decide

/-- No printed value starts like the end of an array. -/
theorem print_starts (layout : Layout) (depth : Nat) {value : Json}
    (readBack : value.NumbersReadBack) :
    ∃ c more, unblanked (layout.print depth value) = c :: more ∧ c ≠ ']' := by
  cases value with
  | null => exact ⟨'n', _, rfl, by decide⟩
  | bool value =>
    cases value with
    | true => exact ⟨'t', _, rfl, by decide⟩
    | false => exact ⟨'f', _, rfl, by decide⟩
  | number number =>
    obtain ⟨c, more, starts, begins, _⟩ := printNumber_starts (readBack number (mem_parts _))
    refine ⟨c, more, starts, ?_⟩
    intro same
    rw [same] at begins
    exact absurd begins (by decide)
  | string text => exact ⟨'"', _, rfl, by decide⟩
  | array items =>
    cases items with
    | nil => exact ⟨'[', _, rfl, by decide⟩
    | cons first rest => exact ⟨'[', _, rfl, by decide⟩
  | object fields =>
    cases fields with
    | nil => exact ⟨'\x7b', _, rfl, by decide⟩
    | cons first rest => exact ⟨'\x7b', _, rfl, by decide⟩

theorem NumbersReadBack.of_mem_items {item : Json} {items : List Json}
    (readBack : (Json.array items).NumbersReadBack) (member : item ∈ items) :
    item.NumbersReadBack := by
  intro number inside
  exact readBack number (mem_parts_of_mem_items member inside)

theorem NumbersReadBack.of_mem_fields {field : String × Json} {fields : List (String × Json)}
    (readBack : (Json.object fields).NumbersReadBack) (member : field ∈ fields) :
    field.2.NumbersReadBack := by
  intro number inside
  exact readBack number (mem_parts_of_mem_fields member inside)

/-! ## Steps of the scan -/

theorem scanItems_closed {after stop : Cursor}
    (finished : (scanValue fuel cursor).finish = .ok after)
    (separator : scanItemSeparator after = .ending (.closed stop)) :
    scanItems (fuel + 1) cursor = ([scanValue fuel cursor], .closed stop) := by
  rw [scanItems]
  simp only [finished, separator]

theorem scanItems_comma {after next : Cursor}
    (finished : (scanValue fuel cursor).finish = .ok after)
    (separator : scanItemSeparator after = .comma next) :
    scanItems (fuel + 1) cursor =
      (scanValue fuel cursor :: (scanItems fuel next).1, (scanItems fuel next).2) := by
  rw [scanItems]
  simp only [finished, separator]

/-- The front of a field: its key, and the place of its value. -/
structure FieldAt (cursor : Cursor) (key : String) (start : Cursor) (place : Cursor) : Prop where
  key : scanString cursor = .ok (.ok key.toList, place)
  colon : scanColon place = .ok start

theorem exists_fieldAt {key : String} {text : List Char}
    (starts : cursor.rest = printString key ++ ':' :: text) :
    ∃ start place, FieldAt cursor key start place ∧ start.rest = text := by
  obtain ⟨_, offset⟩ := cursor
  subst starts
  obtain ⟨ending, scanned⟩ := scanString_printString key (':' :: text) offset
  have colonNext : unblanked (Cursor.mk (':' :: text) ending).rest = ':' :: text :=
    unblanked_cons rfl text
  obtain ⟨start, colon, rest⟩ := scanColon_of_colon colonNext
  exact ⟨start, _, ⟨scanned, colon⟩, rest⟩

theorem scanFields_closed {key : String} {start place after stop : Cursor}
    (field : FieldAt cursor key start place)
    (finished : (scanValue fuel start).finish = .ok after)
    (separator : scanFieldSeparator after = .ending (.closed stop)) :
    scanFields (fuel + 1) cursor =
      ([(⟨.ok key.toList, place⟩, scanValue fuel start)], .closed stop) := by
  rw [scanFields]
  simp only [field.key, field.colon, finished, separator]

theorem scanFields_comma {key : String} {start place after next : Cursor}
    (field : FieldAt cursor key start place)
    (finished : (scanValue fuel start).finish = .ok after)
    (separator : scanFieldSeparator after = .comma next) :
    scanFields (fuel + 1) cursor =
      ((⟨.ok key.toList, place⟩, scanValue fuel start) :: (scanFields fuel next).1,
        (scanFields fuel next).2) := by
  rw [scanFields]
  simp only [field.key, field.colon, finished, separator]

/-! ## The scan of printed values -/

section Printed

variable {layout : Layout}

theorem printItems_starts (blank : layout.IsBlank) (depth : Nat) {first : Json} (rest : List Json)
    (readBack : first.NumbersReadBack) :
    ∃ c more, unblanked (layout.printItems depth (first :: rest)) = c :: more ∧ c ≠ ']' := by
  obtain ⟨c, more, starts, other⟩ := print_starts layout (depth + 1) readBack
  cases rest with
  | nil =>
    refine ⟨c, more, ?_, other⟩
    rw [Layout.printItems, unblanked_append_of_blank (blank.line _), starts]
  | cons second rest =>
    have joined := unblanked_append starts (',' :: layout.printItems depth (second :: rest))
    rw [Layout.printItems_cons, List.append_assoc, unblanked_append_of_blank (blank.line _), joined]
    exact ⟨c, _, rfl, other⟩

theorem printFields_starts (blank : layout.IsBlank) (depth : Nat) (key : String) (value : Json)
    (rest : List (String × Json)) (text : List Char) :
    ∃ more, unblanked (layout.printFields depth ((key, value) :: rest) ++ text) = '"' :: more := by
  cases rest with
  | nil =>
    rw [Layout.printFields, List.append_assoc, List.append_assoc,
      unblanked_append_of_blank (blank.line _), printString]
    exact ⟨_, rfl⟩
  | cons second rest =>
    rw [Layout.printFields_cons, List.append_assoc, List.append_assoc, List.append_assoc,
      unblanked_append_of_blank (blank.line _), printString]
    exact ⟨_, rfl⟩

theorem length_print_pos (layout : Layout) (depth : Nat) {value : Json}
    (readBack : value.NumbersReadBack) : 0 < (layout.print depth value).length := by
  obtain ⟨c, more, starts, _⟩ := print_starts layout depth readBack
  cases printed : layout.print depth value with
  | nil =>
    rw [printed] at starts
    contradiction
  | cons first rest => exact Nat.succ_pos _

theorem exists_fuel (layout : Layout) (depth : Nat) {value : Json} (readBack : value.NumbersReadBack)
    (enough : 2 * (layout.print depth value).length ≤ fuel + 1) : ∃ less, fuel = less + 1 := by
  have positive := length_print_pos layout depth readBack
  exact ⟨fuel - 1, by omega⟩

mutual

/-- The printed form of a value is scanned as a node that spells the value, up to what follows. -/
theorem scanValue_print (blank : layout.IsBlank) (depth : Nat) {fuel : Nat} {cursor : Cursor}
    {tail : List Char} :
    (value : Json) → value.NumbersReadBack → EndsNumber tail →
      2 * (layout.print depth value).length ≤ fuel + 1 →
      unblanked cursor.rest = unblanked (layout.print depth value ++ tail) →
      ScannedAs (scanValue fuel cursor) value tail
  | .null, readBack, _, enough, starts => by
    obtain ⟨less, rfl⟩ := exists_fuel layout depth readBack enough
    exact scanValue_null starts
  | .bool value, readBack, _, enough, starts => by
    obtain ⟨less, rfl⟩ := exists_fuel layout depth readBack enough
    exact scanValue_bool starts
  | .number value, readBack, ends, enough, starts => by
    obtain ⟨less, rfl⟩ := exists_fuel layout depth readBack enough
    exact scanValue_printNumber (readBack value (mem_parts _)) ends starts
  | .string text, readBack, _, enough, starts => by
    obtain ⟨less, rfl⟩ := exists_fuel layout depth readBack enough
    exact scanValue_printString starts
  | .array [], readBack, _, enough, starts => by
    obtain ⟨less, rfl⟩ := exists_fuel layout depth readBack enough
    exact scanValue_array_nil starts
  | .array (first :: rest), readBack, _, enough, starts => by
    obtain ⟨less, rfl⟩ := exists_fuel layout depth readBack enough
    have shape : layout.print depth (.array (first :: rest)) ++ tail =
        '[' :: (layout.printItems depth (first :: rest) ++ (layout.line depth ++ ']' :: tail)) := by
      simp [Layout.print_array]
    rw [shape, unblanked_cons rfl] at starts
    obtain ⟨c, more, firstStarts, other⟩ :=
      printItems_starts blank depth rest (readBack.of_mem_items List.mem_cons_self)
    obtain ⟨start, next, nextRest, node⟩ :=
      exists_scanItems starts (unblanked_append firstStarts _) other
    have room : 2 * (layout.printItems depth (first :: rest)).length ≤ less := by
      rw [Layout.print_array, List.length_append, List.length_append, List.length_cons,
        List.length_singleton] at enough
      omega
    obtain ⟨spelled, stop, closed, stopRest⟩ := scanItems_printItems blank depth (first :: rest)
      (List.cons_ne_nil _ _) (fun item member => readBack.of_mem_items member) room
      (show unblanked next.rest = _ by rw [nextRest, unblanked_unblanked])
    rw [node, closed]
    exact ⟨.array _ _ spelled, stop, rfl, by rw [stopRest]⟩
  | .object [], readBack, _, enough, starts => by
    obtain ⟨less, rfl⟩ := exists_fuel layout depth readBack enough
    exact scanValue_object_nil starts
  | .object ((key, value) :: rest), readBack, _, enough, starts => by
    obtain ⟨less, rfl⟩ := exists_fuel layout depth readBack enough
    have shape : layout.print depth (.object ((key, value) :: rest)) ++ tail =
        '\x7b' :: (layout.printFields depth ((key, value) :: rest) ++
          (layout.line depth ++ '\x7d' :: tail)) := by
      simp [Layout.print_object]
    rw [shape, unblanked_cons rfl] at starts
    obtain ⟨more, firstStarts⟩ := printFields_starts blank depth key value rest _
    obtain ⟨start, next, nextRest, node⟩ := exists_scanFields starts firstStarts
    have room : 2 * (layout.printFields depth ((key, value) :: rest)).length ≤ less := by
      rw [Layout.print_object, List.length_append, List.length_append, List.length_cons,
        List.length_singleton] at enough
      omega
    obtain ⟨spelled, stop, closed, stopRest⟩ := scanFields_printFields blank depth
      ((key, value) :: rest) (List.cons_ne_nil _ _)
      (fun field member => readBack.of_mem_fields member) room nextRest
    rw [node, closed]
    exact ⟨.object _ _ spelled, stop, rfl, by rw [stopRest]⟩

/-- Printed items are scanned up to the bracket after them. -/
theorem scanItems_printItems (blank : layout.IsBlank) (depth : Nat) {fuel : Nat} {cursor : Cursor}
    {tail : List Char} :
    (items : List Json) → items ≠ [] → (∀ item ∈ items, item.NumbersReadBack) →
      2 * (layout.printItems depth items).length ≤ fuel →
      unblanked cursor.rest =
        unblanked (layout.printItems depth items ++ (layout.line depth ++ ']' :: tail)) →
      SpellsItems (scanItems fuel cursor).1 items ∧
        ∃ stop, (scanItems fuel cursor).2 = .closed stop ∧ stop.rest = tail
  | [], nonempty, _, _, _ => absurd rfl nonempty
  | [item], _, readBack, enough, starts => by
    have readFirst := readBack item List.mem_cons_self
    rw [Layout.printItems, List.length_append] at enough
    obtain ⟨less, rfl⟩ : ∃ less, fuel = less + 1 :=
      exists_fuel layout (depth + 1) readFirst (by omega)
    rw [Layout.printItems, List.append_assoc, unblanked_append_of_blank (blank.line _)] at starts
    have ends : EndsNumber (layout.line depth ++ ']' :: tail) :=
      endsNumber_append (blank.line depth) (endsNumber_cons (by decide) _)
    obtain ⟨spells, after, finished, afterRest⟩ := scanValue_print blank (depth + 1) item
      readFirst ends (show _ ≤ less + 1 by omega) starts
    rw [unblanked_append_of_blank (blank.line _), unblanked_cons rfl] at afterRest
    obtain ⟨stop, separator, stopRest⟩ := scanItemSeparator_of_bracket afterRest
    rw [scanItems_closed finished separator]
    exact ⟨.cons spells .nil, stop, rfl, stopRest⟩
  | item :: second :: rest, _, readBack, enough, starts => by
    have readFirst := readBack item List.mem_cons_self
    have readSecond := readBack second (List.mem_cons_of_mem _ List.mem_cons_self)
    rw [Layout.printItems_cons, List.length_append, List.length_append, List.length_cons] at enough
    obtain ⟨less, rfl⟩ : ∃ less, fuel = less + 1 :=
      exists_fuel layout (depth + 1) readFirst (by omega)
    rw [Layout.printItems_cons, List.append_assoc, List.append_assoc,
      unblanked_append_of_blank (blank.line _), List.cons_append] at starts
    obtain ⟨spells, after, finished, afterRest⟩ := scanValue_print blank (depth + 1) item
      readFirst (endsNumber_cons (by decide) _) (show _ ≤ less + 1 by omega) starts
    rw [unblanked_cons rfl] at afterRest
    obtain ⟨c, more, secondStarts, other⟩ := printItems_starts blank depth rest readSecond
    obtain ⟨next, separator, nextRest⟩ :=
      scanItemSeparator_of_comma afterRest (unblanked_append secondStarts _) other
    obtain ⟨spelled, stop, closed, stopRest⟩ := scanItems_printItems blank depth (second :: rest)
      (List.cons_ne_nil _ _) (fun item member => readBack item (List.mem_cons_of_mem _ member))
      (show _ ≤ less by omega) (show unblanked next.rest = _ by rw [nextRest, unblanked_unblanked])
    rw [scanItems_comma finished separator]
    exact ⟨.cons spells spelled, stop, closed, stopRest⟩

/-- Printed fields are scanned up to the brace after them. -/
theorem scanFields_printFields (blank : layout.IsBlank) (depth : Nat) {fuel : Nat}
    {cursor : Cursor} {tail : List Char} :
    (fields : List (String × Json)) → fields ≠ [] →
      (∀ field ∈ fields, field.2.NumbersReadBack) →
      2 * (layout.printFields depth fields).length ≤ fuel →
      cursor.rest =
        unblanked (layout.printFields depth fields ++ (layout.line depth ++ '\x7d' :: tail)) →
      SpellsFields (scanFields fuel cursor).1 fields ∧
        ∃ stop, (scanFields fuel cursor).2 = .closed stop ∧ stop.rest = tail
  | [], nonempty, _, _, _ => absurd rfl nonempty
  | [(key, value)], _, readBack, enough, starts => by
    have readFirst : value.NumbersReadBack := readBack (key, value) List.mem_cons_self
    rw [Layout.printFields, List.length_append, List.length_append, List.length_cons,
      List.length_append] at enough
    obtain ⟨less, rfl⟩ : ∃ less, fuel = less + 1 :=
      exists_fuel layout (depth + 1) readFirst (by omega)
    have shape : cursor.rest = printString key ++ ':' ::
        (layout.gap ++ (layout.print (depth + 1) value ++
          (layout.line depth ++ '\x7d' :: tail))) := by
      rw [starts, Layout.printFields, List.append_assoc, List.append_assoc,
        unblanked_append_of_blank (blank.line _), List.cons_append, List.append_assoc]
      rfl
    obtain ⟨start, place, field, startRest⟩ := exists_fieldAt shape
    have ends : EndsNumber (layout.line depth ++ '\x7d' :: tail) :=
      endsNumber_append (blank.line depth) (endsNumber_cons (by decide) _)
    obtain ⟨spells, after, finished, afterRest⟩ := scanValue_print blank (depth + 1) value
      readFirst ends (show _ ≤ less + 1 by omega)
      (show unblanked start.rest = _ by rw [startRest, unblanked_append_of_blank blank.gap])
    rw [unblanked_append_of_blank (blank.line _), unblanked_cons rfl] at afterRest
    obtain ⟨stop, separator, stopRest⟩ := scanFieldSeparator_of_brace afterRest
    have spelled := SpellsFields.cons key.toList place spells .nil
    rw [String.ofList_toList] at spelled
    rw [scanFields_closed field finished separator]
    exact ⟨spelled, stop, rfl, stopRest⟩
  | (key, value) :: (secondKey, secondValue) :: rest, _, readBack, enough, starts => by
    have readFirst : value.NumbersReadBack := readBack (key, value) List.mem_cons_self
    rw [Layout.printFields_cons, List.length_append, List.length_append, List.length_append,
      List.length_cons, List.length_cons, List.length_append] at enough
    obtain ⟨less, rfl⟩ : ∃ less, fuel = less + 1 :=
      exists_fuel layout (depth + 1) readFirst (by omega)
    have shape : cursor.rest = printString key ++ ':' ::
        (layout.gap ++ (layout.print (depth + 1) value ++ ',' ::
          (layout.printFields depth ((secondKey, secondValue) :: rest) ++
            (layout.line depth ++ '\x7d' :: tail)))) := by
      rw [starts, Layout.printFields_cons, List.append_assoc, List.append_assoc, List.append_assoc,
        unblanked_append_of_blank (blank.line _)]
      simp [printString, unblanked_cons (show isBlank '"' = false from rfl)]
    obtain ⟨start, place, field, startRest⟩ := exists_fieldAt shape
    have ends : EndsNumber (',' :: (layout.printFields depth ((secondKey, secondValue) :: rest) ++
        (layout.line depth ++ '\x7d' :: tail))) := endsNumber_cons (by decide) _
    obtain ⟨spells, after, finished, afterRest⟩ := scanValue_print blank (depth + 1) value
      readFirst ends (show _ ≤ less + 1 by omega)
      (show unblanked start.rest = _ by rw [startRest, unblanked_append_of_blank blank.gap])
    rw [unblanked_cons rfl] at afterRest
    obtain ⟨more, secondStarts⟩ := printFields_starts blank depth secondKey secondValue rest _
    obtain ⟨next, separator, nextRest⟩ := scanFieldSeparator_of_comma afterRest secondStarts
    obtain ⟨spelled, stop, closed, stopRest⟩ := scanFields_printFields blank depth
      ((secondKey, secondValue) :: rest) (List.cons_ne_nil _ _)
      (fun field member => readBack field (List.mem_cons_of_mem _ member))
      (show _ ≤ less by omega) nextRest
    have whole := SpellsFields.cons key.toList place spells spelled
    rw [String.ofList_toList] at whole
    rw [scanFields_comma field finished separator]
    exact ⟨whole, stop, closed, stopRest⟩

end

/-- A value that is printed in a layout is read through a node that spells it, by whatever
reader. -/
theorem exists_node_of_print (blank : layout.IsBlank) {value : Json}
    (readBack : value.NumbersReadBack) :
    ∃ node : Node, node.Spells value ∧ node.Linked ∧
      ∀ (α : Type) (reader : Node → Except Fault α),
        readText reader (layout.print 0 value) = reader node := by
  have starts : unblanked (Cursor.ofText (layout.print 0 value)).rest =
      unblanked (layout.print 0 value ++ []) := by
    rw [List.append_nil]
    rfl
  have atEnd : EndsNumber [] := fun c member => nomatch member
  obtain ⟨spells, after, finished, rest⟩ :=
    scanValue_print blank 0 value readBack atEnd
      (show _ ≤ 2 * (layout.print 0 value).length + 2 + 1 by omega) starts
  refine ⟨Node.ofText (layout.print 0 value), spells, (linked_scan _).1 _, ?_⟩
  intro α reader
  have ended : after.skipBlanks.rest.isEmpty = true := by
    rw [rest_skipBlanks, rest]
    rfl
  have finish : (Node.ofText (layout.print 0 value)).finish = .ok after := finished
  rw [readText]
  simp only [finish, ended, if_true]
  cases reader (Node.ofText (layout.print 0 value)) <;> rfl

end Printed

theorem toList_compact (value : Json) : value.compact.toList = Layout.compact.print 0 value :=
  String.toList_ofList.trans (printCompact_eq 0 value)

theorem toList_indented (value : Json) : value.indented.toList = Layout.indented.print 0 value :=
  String.toList_ofList.trans (printIndented_eq 0 value)

theorem exists_node_indented {value : Json} (readBack : value.NumbersReadBack) :
    ∃ node : Node, node.Spells value ∧ node.Linked ∧
      ∀ (α : Type) (reader : Node → Except Fault α),
        readText reader value.indented.toList = reader node := by
  rw [toList_indented]
  exact exists_node_of_print Layout.isBlank_indented readBack

/-- What is printed is parsed as the value that was printed. -/
theorem parse_indented {value : Json} (readBack : value.NumbersReadBack)
    (distinct : value.HasDistinctKeys) (within : value.nesting < depthLimit) :
    parse value.indented.toList = .ok value := by
  obtain ⟨node, spells, _, reads⟩ := exists_node_indented readBack
  rw [parse, reads]
  exact spells.read distinct (by omega)

end FlatLiquid.Json
