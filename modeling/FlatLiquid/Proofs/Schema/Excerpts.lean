import FlatLiquid.Proofs.Json.Positions
import FlatLiquid.Proofs.Text.Trimming
import FlatLiquid.Schema.Parsing

/-!
Contract: the excerpt in the fault of a schema.

Owns:
- which lines an excerpt shows, and under which numbers;
- the rows of an excerpt's text, one of which is the caret's;
- the fault of every schema that cannot be read, whose excerpt shows the line in question.

Key step: the lines of a text and the lines of its positions are counted by the same line feeds. A
trimmed text does not end in a line feed, so that each of its positions is on one of its lines.
-/

namespace FlatLiquid

namespace Excerpt

/-! ## Shown lines -/

/-- The number of the first line that is shown around a line. -/
def firstShown (line : Nat) : Nat :=
  max 1 (line - 2)

/-- The number of the last line that is shown around a line, in a text of so many lines. -/
def lastShown (line count : Nat) : Nat :=
  min (line + 2) count

theorem numbers_around (interior : List Char) (line column : Nat) :
    (around interior line column).lines.map Prod.fst =
      List.range' (firstShown line)
        (lastShown line (Text.lines interior).length + 1 - firstShown line) := by
  apply List.ext_getElem
  · simp only [around, radius, firstShown, lastShown, List.length_map, List.length_take,
      List.length_drop, List.length_mapIdx, List.length_range']
    omega
  · intro index shown inRange
    simp only [around, radius, firstShown, List.getElem_map, List.getElem_take, List.getElem_drop,
      List.getElem_mapIdx, List.getElem_range']
    omega

theorem getElem?_of_mem_around {interior : List Char} {line column : Nat}
    {numbered : Nat × List Char} (member : numbered ∈ (around interior line column).lines) :
    (Text.lines interior)[numbered.1 - 1]? = some numbered.2 := by
  have shown := List.mem_of_mem_drop (List.mem_of_mem_take member)
  obtain ⟨index, within, rfl⟩ := List.mem_mapIdx.mp shown
  exact List.getElem?_eq_getElem within

theorem mem_numbers_around {interior : List Char} {line : Nat} (column : Nat) (first : 1 ≤ line)
    (last : line ≤ (Text.lines interior).length) :
    line ∈ (around interior line column).lines.map Prod.fst := by
  rw [numbers_around, List.mem_range'_1, firstShown, lastShown]
  omega

/-- A line that is shown stands once among the shown lines. -/
theorem exists_split_of_mem_numbers {interior : List Char} {line column number : Nat}
    (member : number ∈ (around interior line column).lines.map Prod.fst) :
    ∃ above shown below, (around interior line column).lines = above ++ (number, shown) :: below ∧
      ∀ numbered ∈ above ++ below, numbered.1 ≠ number := by
  obtain ⟨⟨_, shown⟩, isShown, rfl⟩ := List.mem_map.mp member
  obtain ⟨above, below, split⟩ := List.append_of_mem isShown
  refine ⟨above, shown, below, split, ?_⟩
  have distinct : ((around interior line column).lines.map Prod.fst).Nodup := by
    rw [numbers_around]
    exact List.nodup_range' 1
  rw [split, List.map_append, List.map_cons, List.nodup_middle, List.nodup_cons,
    ← List.map_append] at distinct
  intro numbered other same
  exact distinct.1 (same ▸ List.mem_map_of_mem other)

/-! ## Rows -/

/-- The row of a numbered line. -/
def numberedRow (numbered : Nat × List Char) : List Char :=
  List.replicate (4 - (Nat.toDigits 10 numbered.1).length) ' ' ++ Nat.toDigits 10 numbered.1 ++
    " | ".toList ++ numbered.2

/-- What a row starts with that has no number. -/
def gutter : List Char := "     | ".toList

/-- The row that marks a column. -/
def caretRow (column : Nat) : List Char :=
  gutter ++ List.replicate (column - 1) ' ' ++ ['^']

/-- The row marks some column. -/
def IsCaretRow (row : List Char) : Prop :=
  ∃ column, row = caretRow column

/-- Where the caret's row has a space still, a numbered row has its first digit. -/
theorem not_isCaretRow_numberedRow (numbered : Nat × List Char) :
    ¬ IsCaretRow (numberedRow numbered) := by
  rintro ⟨column, same⟩
  obtain ⟨digit, digits, shape⟩ :=
    List.exists_cons_of_ne_nil (Nat.toDigits_ne_nil (n := numbered.1) (b := 10))
  have isDigit : digit.isDigit = true :=
    Nat.isDigit_of_mem_toDigits (by decide : 0 < 10) (by decide) (shape ▸ List.mem_cons_self)
  have pad : 4 - (Nat.toDigits 10 numbered.1).length < 5 := by omega
  have first : (numberedRow numbered)[4 - (Nat.toDigits 10 numbered.1).length]? = some digit := by
    rw [numberedRow, shape, List.append_assoc, List.append_assoc, List.getElem?_append_right]
    · rw [List.length_replicate, Nat.sub_self]
      rfl
    · exact Nat.le_of_eq List.length_replicate
  have space : (caretRow column)[4 - (Nat.toDigits 10 numbered.1).length]? = some ' ' := by
    have blank : ∀ index < 5, gutter[index]? = some ' ' := by decide +kernel
    rw [caretRow, List.append_assoc, List.getElem?_append_left]
    · exact blank _ pad
    · exact Nat.lt_of_lt_of_le pad (by decide +kernel)
  rw [same, space] at first
  obtain rfl := Option.some.inj first
  exact absurd isDigit (by decide)

theorem not_mem_numberedRow {numbered : Nat × List Char} (free : '\n' ∉ numbered.2) :
    '\n' ∉ numberedRow numbered := by
  intro member
  simp only [numberedRow, List.mem_append] at member
  rcases member with ((spaces | digits) | bar) | text
  · exact absurd (List.eq_of_mem_replicate spaces) (by decide)
  · have isDigit := Nat.isDigit_of_mem_toDigits (by decide) (by decide) digits
    exact absurd isDigit (by decide)
  · exact absurd bar (by decide +kernel)
  · exact free text

theorem not_mem_caretRow (column : Nat) : '\n' ∉ caretRow column := by
  intro member
  simp only [caretRow, List.mem_append] at member
  rcases member with (bar | spaces) | caret
  · exact absurd bar (by decide +kernel)
  · exact absurd (List.eq_of_mem_replicate spaces) (by decide)
  · exact absurd caret (by decide)

/-- The rows of a shown line: its own, and the caret's if it is the line in question. -/
def rowsOfLine (excerpt : Excerpt) (numbered : Nat × List Char) : List (List Char) :=
  if numbered.1 == excerpt.line then [numberedRow numbered, caretRow excerpt.column]
  else [numberedRow numbered]

/-- The rows of an excerpt. -/
def rows (excerpt : Excerpt) : List (List Char) :=
  excerpt.lines.flatMap excerpt.rowsOfLine

theorem toList_text (excerpt : Excerpt) :
    excerpt.text.toList = excerpt.rows.flatMap (· ++ ['\n']) := by
  rw [text, String.toList_ofList, rows, List.flatMap_assoc]
  apply List.flatMap_congr
  rintro ⟨number, line⟩ _
  have lineEnds : numberedLine number line = numberedRow (number, line) ++ ['\n'] := rfl
  have caretEnds : caretLine excerpt.column = caretRow excerpt.column ++ ['\n'] :=
    (List.append_assoc _ ['^'] ['\n']).symm
  simp only [rowsOfLine]
  split
  · rw [List.flatMap_cons, List.flatMap_singleton, lineEnds, caretEnds]
  · rw [List.flatMap_singleton, lineEnds, List.append_nil]

theorem flatMap_rowsOfLine {excerpt : Excerpt} {texts : List (Nat × List Char)}
    (apart : ∀ numbered ∈ texts, numbered.1 ≠ excerpt.line) :
    texts.flatMap excerpt.rowsOfLine = texts.map numberedRow := by
  rw [List.map_eq_flatMap]
  apply List.flatMap_congr
  intro numbered member
  have unlike : ¬ (numbered.1 == excerpt.line) = true :=
    fun same => apart numbered member (beq_iff_eq.mp same)
  rw [rowsOfLine, if_neg unlike]

/-- The caret's row comes right behind the row of the line in question. -/
theorem rows_of_split {excerpt : Excerpt} {above below : List (Nat × List Char)}
    {shown : List Char} (split : excerpt.lines = above ++ (excerpt.line, shown) :: below)
    (others : ∀ numbered ∈ above ++ below, numbered.1 ≠ excerpt.line) :
    excerpt.rows = above.map numberedRow ++
      numberedRow (excerpt.line, shown) :: caretRow excerpt.column :: below.map numberedRow := by
  have before := flatMap_rowsOfLine fun numbered member =>
    others numbered (List.mem_append_left below member)
  have behind := flatMap_rowsOfLine fun numbered member =>
    others numbered (List.mem_append_right above member)
  rw [rows, split, List.flatMap_append, List.flatMap_cons, before, behind, rowsOfLine,
    if_pos (beq_iff_eq.mpr rfl)]
  rfl

/-! ## The line of a position -/

/-- The excerpt shows the line that a position of a text is on, among the lines up to two before it
and two behind it, each as it is in the text. In the excerpt's text one row has a caret, under the
position's column and right behind the row of its line. -/
structure Shows (excerpt : Excerpt) (text : List Char) (position : Json.Position) : Prop where
  place : ∃ bytes, position.IsPlaceOf text bytes
  line : excerpt.line = position.line
  column : excerpt.column = max 1 position.column
  numbers : excerpt.lines.map Prod.fst =
    List.range' (firstShown position.line)
      (lastShown position.line (Text.lines text).length + 1 - firstShown position.line)
  texts : ∀ numbered ∈ excerpt.lines, (Text.lines text)[numbered.1 - 1]? = some numbered.2
  caret : ∃ above shown below, excerpt.lines = above ++ (position.line, shown) :: below ∧
    excerpt.text.toList.splitOn '\n' =
      above.map numberedRow ++ numberedRow (position.line, shown) :: caretRow excerpt.column ::
        below.map numberedRow ++ [[]] ∧
    ∀ row ∈ above.map numberedRow ++ numberedRow (position.line, shown) :: below.map numberedRow ++
      [[]], ¬ IsCaretRow row

/-- The rows of an excerpt are read back from its text. -/
theorem splitOn_text {interior : List Char} {line column : Nat} :
    (around interior line column).text.toList.splitOn '\n' =
      (around interior line column).rows ++ [[]] := by
  rw [toList_text]
  apply Text.splitOn_rows
  intro row member
  obtain ⟨numbered, shown, isRow⟩ := List.mem_flatMap.mp member
  have free : '\n' ∉ numberedRow numbered := by
    apply not_mem_numberedRow
    exact Text.not_mem_of_mem_lines (List.mem_of_getElem? (getElem?_of_mem_around shown))
  rw [rowsOfLine] at isRow
  split at isRow
  · rcases List.mem_cons.mp isRow with rfl | isCaret
    · exact free
    · rw [List.mem_singleton.mp isCaret]
      exact not_mem_caretRow column
  · rw [List.mem_singleton.mp isRow]
    exact free

/-- The excerpt around a position shows the position's line, unless the text ends in a line end. -/
theorem shows_around {text : List Char} {position : Json.Position} {bytes : Nat}
    (place : position.IsPlaceOf text bytes) (unended : ¬ Text.IsWholeLines text) :
    (around text (max position.line 1) (max position.column 1)).Shows text position := by
  obtain ⟨first, last⟩ := place.line_le unended
  rw [Nat.max_eq_left first]
  have member := mem_numbers_around (max position.column 1) first last
  obtain ⟨above, shown, below, split, others⟩ := exists_split_of_mem_numbers member
  refine ⟨⟨bytes, place⟩, rfl, Nat.max_comm _ _, numbers_around text _ _,
    fun numbered => getElem?_of_mem_around, above, shown, below, split, ?_, ?_⟩
  · rw [splitOn_text, rows_of_split split others]
    rfl
  · intro row isRow
    have numberedOrEmpty : (∃ numbered, row = numberedRow numbered) ∨ row = [] := by
      simp only [List.mem_append, List.mem_cons, List.mem_map, List.not_mem_nil, or_false] at isRow
      rcases isRow with (⟨numbered, -, rfl⟩ | rfl | ⟨numbered, -, rfl⟩) | rfl
      · exact .inl ⟨numbered, rfl⟩
      · exact .inl ⟨_, rfl⟩
      · exact .inl ⟨numbered, rfl⟩
      · exact .inr rfl
    rcases numberedOrEmpty with ⟨numbered, rfl⟩ | rfl
    · exact not_isCaretRow_numberedRow numbered
    · rintro ⟨marked, empty⟩
      exact absurd empty.symm (List.append_ne_nil_of_right_ne_nil _ (List.cons_ne_nil _ _))

end Excerpt

/-! ## Schemas that cannot be read -/

/-- What a trimmed text of a schema ends in is no line end. -/
theorem not_isWholeLines_trim {text : List Char} (nonempty : Text.trim text ≠ []) :
    ¬ Text.IsWholeLines (Text.trim text) := by
  intro whole
  have last := List.getLast?_eq_getLast_of_ne_nil nonempty
  have blank := (Text.isTrimmed_trim text).ends _ last
  rw [whole _ last] at blank
  exact absurd blank (by decide)

/-- What a reader reports about a text, it reports about a place of the text. -/
theorem Json.Codec.isPlaceOf_of_parse_eq_error {α : Type} {codec : Json.Codec α} {text : List Char}
    {report : Json.Report} (unread : codec.parse text = .error report) :
    ∃ bytes, report.position.IsPlaceOf text bytes := by
  obtain ⟨fault, -, rfl⟩ := exists_of_mapError_eq_error unread
  exact ⟨_, Json.isPlaceOf_ofOffset text _⟩

/-- If there is a schema that is not blank and cannot be read, the template's fault is about it, and
the excerpt shows the line that the report is about. -/
theorem read_shows_line {template : List Char} {block : SchemaBlock} {report : Json.Report}
    (found : SchemaBlock.find? template = some block) (nonempty : Text.trim block.interior ≠ [])
    (unread : Schema.shape.codec.parse (Text.trim block.interior) = .error report) :
    ∃ fault, Schema.read template = .error fault ∧ fault.report = report ∧
      fault.excerpt.Shows (Text.trim block.interior) report.position := by
  obtain ⟨bytes, place⟩ := Json.Codec.isPlaceOf_of_parse_eq_error unread
  refine ⟨.ofReport report (Text.trim block.interior), ?_, rfl, ?_⟩
  · simp only [Schema.read, found, Schema.ofInterior, unread]
    rfl
  · exact Excerpt.shows_around place (not_isWholeLines_trim nonempty)

/-- A comma is missing in a schema whose lines end in carriage returns and line feeds. The excerpt shows
the two lines before the place, its line with the caret below, and the one line behind it. -/
theorem read_shows_line_of_missing_comma :
    let interior := ("\r\n\x7b\r\n  \"name\": \"Hero\",\r\n  \"settings\": [\r\n  ]\r\n" ++
      "  \"blocks\": []\r\n\x7d\r\n").toList
    let block : SchemaBlock := ⟨[], "\x7b% schema %\x7d".toList, interior,
      "\x7b% endschema %\x7d".toList, []⟩
    let template := block.opening ++ interior ++ block.closing
    let snippet := "   3 |   \"settings\": [\n   4 |   ]\n   5 |   \"blocks\": []\n" ++
      "     |   ^\n   6 | \x7d\n"
    SchemaBlock.find? template = some block ∧ Text.trim interior ≠ [] ∧
      ∃ report, Schema.shape.codec.parse (Text.trim interior) = .error report ∧
        report.position = ⟨5, 3⟩ ∧
        ∃ fault, Schema.read template = .error fault ∧ fault.report = report ∧
          fault.excerpt.Shows (Text.trim interior) report.position ∧
          fault.excerpt.text = snippet := by
  intro interior block template snippet
  have found : SchemaBlock.find? template = some block := by decide +kernel
  have nonempty : Text.trim interior ≠ [] := by decide +kernel
  -- nothing is said about a schema that is read, so that what is reported can be decided
  have place : ((Schema.shape.codec.parse (Text.trim interior)).map fun _ => ()).mapError
      Json.Report.position = .error ⟨5, 3⟩ := by decide +kernel
  have text : ((Schema.read template).map fun _ => ()).mapError
      (fun fault => fault.excerpt.text) = .error snippet := by decide +kernel
  refine ⟨found, nonempty, ?_⟩
  generalize unread : Schema.shape.codec.parse (Text.trim interior) = result at place
  cases result with
  | ok schema => exact nomatch place
  | error report =>
    obtain ⟨fault, read, same, shows⟩ := read_shows_line found nonempty unread
    rw [read] at text
    exact ⟨report, rfl, Except.error.inj place, fault, read, same, shows, Except.error.inj text⟩

end FlatLiquid
