import FlatLiquid.Template.BlockLoop
import FlatLiquid.Proofs.Template.OpenTags
import FlatLiquid.Proofs.Text.Rows

/-!
Contract: a pass that replaces words keeps the tags of a text but for their names.

Owns:
- replacements that neither take nor give a delimiter or a name that is to be kept;
- the ends of tags and the names behind openings, before and after such a pass;
- rows of pieces with the same tags but for other names, which have the same verbatim regions, and
  outside these regions the same tags as well.

No replaced part starts inside a word, so that the name of a tag is either kept or starts with what is
inserted.
-/

namespace FlatLiquid

open Text (Row Part Placed endsWord isWordChar isBlank skipBlanks startsWord wordOf)

/-! ## Replacements -/

/-- The tags that start or end a verbatim region. -/
def regionNames : List (List Char) :=
  ["raw", "endraw", "comment", "endcomment"].map String.toList

/-- The characters of which the delimiters of tags are made, dashes apart. -/
def delimiterChars : List Char :=
  ['\x7b', '%', '\x7d']

/-- A text that starts with a word other than `names`, whatever follows it, and holds no delimiter. -/
structure StartsApart (names : List (List Char)) (text : List Char) : Prop where
  starts : endsWord text = false
  undelimited : ∀ c ∈ delimiterChars, c ∉ text
  named : ∀ more, wordOf (text ++ more) ∉ names

/-- A replacement that neither takes nor gives a tag one of the `kept` names, and makes no loop. -/
def IsRenaming (kept : List (List Char)) (original replacement : List Char) : Prop :=
  StartsApart kept original ∧ StartsApart (iterationTags ++ kept) replacement

theorem wordOf_ne_nil {text : List Char} (starts : endsWord text = false) (more : List Char) :
    wordOf (text ++ more) ≠ [] := by
  obtain ⟨c, rest, rfl, isWord⟩ := Text.exists_cons_of_endsWord starts
  rw [wordOf, List.cons_append, List.takeWhile_cons_of_pos isWord]
  exact List.cons_ne_nil _ _

/-- How the name of a tag may change. -/
structure Renames (kept : List (List Char)) (before after : List Char) : Prop where
  empty : before = [] ↔ after = []
  same : after = before ∨ before ∉ kept ∧ after ∉ kept ∧ after ∉ iterationTags

section Names

variable {kept : List (List Char)}

theorem Renames.refl (name : List Char) : Renames kept name name :=
  ⟨Iff.rfl, .inl rfl⟩

/-! ## Rows of such replacements -/

section Rows

variable {before : Option Char} {row : Row}

/-- A character that belongs to no word stands in front of a row before and after. -/
theorem head?_original_iff {c : Char} (outside : isWordChar c = false)
    (placed : Placed (IsRenaming kept) before row) :
    row.original.head? = some c ↔ row.output.head? = some c := by
  have notHead {text : List Char} (starts : endsWord text = false) (more : List Char) :
      (text ++ more).head? ≠ some c := by
    obtain ⟨d, rest, rfl, isWord⟩ := Text.exists_cons_of_endsWord starts
    rintro ⟨⟩
    rw [outside] at isWord
    contradiction
  cases placed with
  | nil => exact Iff.rfl
  | kept _ => exact Iff.rfl
  | replaced _ renames _ =>
    rw [Row.original_cons, Row.output_cons]
    exact iff_of_false (notHead renames.1.starts _) (notHead renames.2.starts _)

/-- A row that starts with a character of no word starts with it as a kept part. -/
theorem exists_kept_of_head? {c : Char} (outside : isWordChar c = false)
    (placed : Placed (IsRenaming kept) before row) (first : row.original.head? = some c) :
    ∃ rest, row = .kept c :: rest ∧ Placed (IsRenaming kept) (some c) rest := by
  cases placed with
  | nil => contradiction
  | kept more =>
    obtain rfl := Option.some.inj first
    exact ⟨_, rfl, more⟩
  | @replaced _ original _ _ _ renames _ =>
    obtain ⟨d, rest, rfl, isWord⟩ := Text.exists_cons_of_endsWord renames.1.starts
    obtain rfl : d = c := Option.some.inj first
    rw [outside] at isWord
    contradiction

/-- A word that goes on behind a kept character is kept. -/
theorem wordOf_eq_of_placed {c : Char} (isWord : isWordChar c = true)
    (placed : Placed (IsRenaming kept) (some c) row) : wordOf row.output = wordOf row.original := by
  generalize behind : some c = before at placed
  induction placed generalizing c with
  | nil => rfl
  | @kept _ d rest _ inductionHypothesis =>
    rw [Row.original_cons, Row.output_cons]
    cases isNext : isWordChar d with
    | true =>
      have later := inductionHypothesis isNext rfl
      simpa [wordOf, Part.original, Part.output, isNext] using later
    | false => simp [wordOf, Part.original, Part.output, isNext]
  | replaced starts _ _ =>
    subst behind
    simp [startsWord, isWord] at starts

/-- The word in front of a row is kept or renamed. -/
theorem renames_wordOf (placed : Placed (IsRenaming kept) before row) :
    Renames kept (wordOf row.original) (wordOf row.output) := by
  cases placed with
  | nil => exact .refl []
  | @kept _ c rest more =>
    rw [Row.original_cons, Row.output_cons]
    cases isWord : isWordChar c with
    | true =>
      have later := wordOf_eq_of_placed isWord more
      have same : wordOf (c :: Row.output rest) = wordOf (c :: Row.original rest) := by
        simpa [wordOf, isWord] using later
      exact same ▸ .refl _
    | false =>
      have ends (text : List Char) : wordOf (c :: text) = [] := by simp [wordOf, isWord]
      exact ⟨iff_of_true (ends _) (ends _), .inl ((ends _).trans (ends _).symm)⟩
  | @replaced _ original replacement rest _ renames _ =>
    rw [Row.original_cons, Row.output_cons]
    obtain ⟨first, second⟩ := renames
    have named := second.named (Row.output rest)
    rw [List.mem_append, not_or] at named
    exact ⟨iff_of_false (wordOf_ne_nil first.starts _) (wordOf_ne_nil second.starts _),
      .inr ⟨first.named _, named.2, named.1⟩⟩

/-- Blanks are skipped alike before and after. -/
theorem exists_skipBlanks (placed : Placed (IsRenaming kept) before row) :
    ∃ between rest, Placed (IsRenaming kept) between rest ∧ skipBlanks row.original = rest.original ∧
      skipBlanks row.output = rest.output := by
  have notBlank {text : List Char} (starts : endsWord text = false) (more : List Char) :
      skipBlanks (text ++ more) = text ++ more := by
    obtain ⟨c, rest, rfl, isWord⟩ := Text.exists_cons_of_endsWord starts
    have kept : isBlank c = false := by
      rw [← Bool.not_eq_true]
      intro blank
      rw [Text.not_isWordChar_of_isBlank blank] at isWord
      contradiction
    rw [skipBlanks, List.cons_append, List.dropWhile_cons_of_neg (by simp [kept])]
  induction placed with
  | nil => exact ⟨none, [], .nil, rfl, rfl⟩
  | @kept before c rest more inductionHypothesis =>
    rw [Row.original_cons, Row.output_cons]
    cases blank : isBlank c with
    | true =>
      obtain ⟨between, later, placed, original, output⟩ := inductionHypothesis
      refine ⟨between, later, placed, ?_, ?_⟩
      · simpa [skipBlanks, Part.original, blank] using original
      · simpa [skipBlanks, Part.output, blank] using output
    | false =>
      refine ⟨before, .kept c :: rest, .kept more, ?_, ?_⟩
      · simp [skipBlanks, Part.original, blank]
      · simp [skipBlanks, Part.output, blank]
  | @replaced before original replacement rest starts renames more _ =>
    refine ⟨before, .replaced original replacement :: rest, .replaced starts renames more, ?_, ?_⟩
    · rw [Row.original_cons]
      exact notBlank renames.1.starts _
    · rw [Row.output_cons]
      exact notBlank renames.2.starts _

theorem exists_dropDash (placed : Placed (IsRenaming kept) before row) :
    ∃ between rest, Placed (IsRenaming kept) between rest ∧ dropDash row.original = rest.original ∧
      dropDash row.output = rest.output := by
  have undashed {text : List Char} (other : text.head? ≠ some '-') : dropDash text = text := by
    unfold dropDash
    split
    · exact absurd rfl other
    · rfl
  by_cases dash : row.original.head? = some '-'
  · obtain ⟨rest, rfl, more⟩ := exists_kept_of_head? (by decide) placed dash
    exact ⟨some '-', rest, more, rfl, rfl⟩
  · have other := fun first => dash ((head?_original_iff (by decide) placed).mpr first)
    exact ⟨before, row, placed, undashed dash, undashed other⟩

/-- The name behind an opening is kept or renamed. -/
theorem renames_tagName (placed : Placed (IsRenaming kept) before row) :
    Renames kept (tagName row.original) (tagName row.output) := by
  obtain ⟨_, undashed, placedUndashed, original, output⟩ := exists_dropDash placed
  obtain ⟨_, rest, placedRest, originalRest, outputRest⟩ := exists_skipBlanks placedUndashed
  rw [tagName, tagName, original, output, originalRest, outputRest]
  exact renames_wordOf placedRest

/-- The first end of a tag is kept. -/
theorem afterEnd?_of_placed (placed : Placed (IsRenaming kept) before row) :
    (afterEnd? row.original = none ∧ afterEnd? row.output = none) ∨
      ∃ between rest, Placed (IsRenaming kept) between rest ∧ rest.length < row.length ∧
        afterEnd? row.original = some rest.original ∧ afterEnd? row.output = some rest.output := by
  induction placed with
  | nil => exact .inl ⟨rfl, rfl⟩
  | @kept _ c rest more inductionHypothesis =>
    rw [Row.original_cons, Row.output_cons]
    by_cases closing : c = '%' ∧ rest.original.head? = some '\x7d'
    · obtain ⟨rfl, brace⟩ := closing
      obtain ⟨after, rfl, placedAfter⟩ := exists_kept_of_head? (by decide) more brace
      exact .inr ⟨_, after, placedAfter, by simp only [List.length_cons]; omega, rfl, rfl⟩
    · have stillOther : ¬ (c = '%' ∧ rest.output.head? = some '\x7d') := fun ends =>
        closing ⟨ends.1, (head?_original_iff (by decide) more).mpr ends.2⟩
      rw [Part.original, Part.output, List.singleton_append, List.singleton_append,
        afterEnd?_cons closing, afterEnd?_cons stillOther]
      rcases inductionHypothesis with unended | ⟨between, after, placedAfter, shorter, ends⟩
      · exact .inl unended
      · exact .inr ⟨between, after, placedAfter, by rw [List.length_cons]; omega, ends⟩
  | @replaced _ original replacement rest _ renames _ inductionHypothesis =>
    rw [Row.original_cons, Row.output_cons]
    have first : '%' ∉ original := renames.1.undelimited '%' (by decide)
    have second : '%' ∉ replacement := renames.2.undelimited '%' (by decide)
    rw [Part.original, Part.output, afterEnd?_append_of_not_mem first,
      afterEnd?_append_of_not_mem second]
    rcases inductionHypothesis with unended | ⟨between, after, placedAfter, shorter, ends⟩
    · exact .inl unended
    · exact .inr ⟨between, after, placedAfter, by rw [List.length_cons]; omega, ends⟩

end Rows

/-! ## Pieces with the same tags -/

/-- Two rows of pieces have the same tags but for their names, and any characters between them. -/
inductive SameTags (kept : List (List Char)) : List Piece → List Piece → Prop
  | nil : SameTags kept [] []
  | left (c : Char) {first second : List Piece} (more : SameTags kept first second) :
      SameTags kept (.char c :: first) second
  | right (c : Char) {first second : List Piece} (more : SameTags kept first second) :
      SameTags kept first (.char c :: second)
  | tag {before after : Tag} {first second : List Piece}
      (renames : Renames kept before.name after.name) (more : SameTags kept first second) :
      SameTags kept (.tag before :: first) (.tag after :: second)

theorem SameTags.plain {first second : List Piece} (same : SameTags kept first second)
    (before after : List Char) :
    SameTags kept (before.map .char ++ first) (after.map .char ++ second) := by
  induction before with
  | nil =>
    induction after with
    | nil => exact same
    | cons c rest inductionHypothesis => exact .right c inductionHypothesis
  | cons c rest inductionHypothesis => exact .left c inductionHypothesis

theorem verbatimEnd?_eq_none {name : List Char} (other : name ∉ regionNames) :
    verbatimEnd? name = none := by
  have notRaw : name ≠ "raw".toList := by
    rintro rfl
    exact other (by decide)
  have notComment : name ≠ "comment".toList := by
    rintro rfl
    exact other (by decide)
  rw [verbatimEnd?, if_neg notRaw, if_neg notComment]

theorem mem_regionNames_of_verbatimEnd? {name ending : List Char}
    (region : verbatimEnd? name = some ending) : ending ∈ regionNames := by
  unfold verbatimEnd? at region
  split at region
  · obtain rfl := Option.some.inj region
    decide
  · split at region
    · obtain rfl := Option.some.inj region
      decide
    · contradiction

/-- A tag starts the same region under either name. -/
theorem Renames.verbatimEnd?_eq {before after : List Char} (renames : Renames kept before after)
    (regions : regionNames ⊆ kept) : verbatimEnd? after = verbatimEnd? before := by
  rcases renames.same with rfl | ⟨first, second, -⟩
  · rfl
  · rw [verbatimEnd?_eq_none (mt (@regions _) first), verbatimEnd?_eq_none (mt (@regions _) second)]

theorem Renames.eq_iff {before after name : List Char} (renames : Renames kept before after)
    (isKept : name ∈ kept) : after = name ↔ before = name := by
  rcases renames.same with rfl | ⟨first, second, -⟩
  · exact Iff.rfl
  · refine iff_of_false ?_ ?_
    · rintro rfl
      exact second isKept
    · rintro rfl
      exact first isKept

/-- The same tags have the same regions, and outside them the same tags. -/
theorem SameTags.hidden {first second : List Piece} (same : SameTags kept first second)
    (regions : regionNames ⊆ kept) {ending : Option (List Char)}
    (known : ∀ name ∈ ending, name ∈ regionNames) :
    openRegion ending second = openRegion ending first ∧
      SameTags kept (hideVerbatim ending first) (hideVerbatim ending second) := by
  induction same generalizing ending with
  | nil => exact ⟨rfl, .nil⟩
  | left c _ inductionHypothesis =>
    obtain ⟨region, hidden⟩ := inductionHypothesis known
    exact ⟨region, hidden.left c⟩
  | right c _ inductionHypothesis =>
    obtain ⟨region, hidden⟩ := inductionHypothesis known
    exact ⟨region, hidden.right c⟩
  | @tag before after first second renames _ inductionHypothesis =>
    cases ending with
    | some name =>
      -- whether a tag ends the region does not change, because the end of a region is a kept name
      have isEnding := renames.eq_iff (regions (known name rfl))
      have knownNext : ∀ other ∈ (if before.name = name then none else some name),
          other ∈ regionNames := by
        intro other isNext
        split at isNext
        · contradiction
        · exact known other isNext
      obtain ⟨region, hidden⟩ := inductionHypothesis knownNext
      rw [openRegion, openRegion, hideVerbatim, hideVerbatim]
      simp only [isEnding]
      exact ⟨region, hidden.plain before.source after.source⟩
    | none =>
      rw [openRegion, openRegion, hideVerbatim, hideVerbatim, renames.verbatimEnd?_eq regions]
      cases started : verbatimEnd? before.name with
      | some name =>
        have knownNext : ∀ other ∈ some name, other ∈ regionNames := by
          rintro other ⟨⟩
          exact mem_regionNames_of_verbatimEnd? started
        obtain ⟨region, hidden⟩ := inductionHypothesis knownNext
        exact ⟨region, hidden.plain before.source after.source⟩
      | none =>
        obtain ⟨region, hidden⟩ := inductionHypothesis known
        exact ⟨region, .tag renames hidden⟩

end Names

/-! ## What rows of pieces with the same tags have in common -/

/-- No tag among the pieces is named as a loop. -/
def IsLoopless (written : List Piece) : Prop :=
  ∀ tag, .tag tag ∈ written → tag.name ∉ iterationTags

theorem isLoopless_nil : IsLoopless [] :=
  fun _ member => absurd member List.not_mem_nil

theorem isLoopless_tag_iff {tag : Tag} {rest : List Piece} :
    IsLoopless (.tag tag :: rest) ↔ tag.name ∉ iterationTags ∧ IsLoopless rest := by
  constructor
  · intro loopless
    exact ⟨loopless tag List.mem_cons_self, fun other member =>
      loopless other (List.mem_cons_of_mem _ member)⟩
  · rintro ⟨named, loopless⟩ other member
    rcases List.mem_cons.mp member with same | later
    · obtain rfl := Piece.tag.inj same
      exact named
    · exact loopless other later

theorem isLoopless_append_iff {first second : List Piece} :
    IsLoopless (first ++ second) ↔ IsLoopless first ∧ IsLoopless second := by
  constructor
  · intro loopless
    exact ⟨fun tag member => loopless tag (List.mem_append_left _ member),
      fun tag member => loopless tag (List.mem_append_right _ member)⟩
  · rintro ⟨front, back⟩ tag member
    exact (List.mem_append.mp member).elim (front tag) (back tag)

theorem isLoopless_map_char (text : List Char) : IsLoopless (text.map .char) := by
  intro tag member
  obtain ⟨c, -, same⟩ := List.mem_map.mp member
  exact Piece.noConfusion same

theorem Renames.not_iterates {kept : List (List Char)} {before after : List Char}
    (renames : Renames kept before after) (other : before ∉ iterationTags) :
    after ∉ iterationTags := by
  rcases renames.same with rfl | ⟨-, -, named⟩
  · exact other
  · exact named

/-- No tag becomes a loop. -/
theorem SameTags.isLoopless {kept : List (List Char)} {first second : List Piece}
    (same : SameTags kept first second) (loopless : IsLoopless first) : IsLoopless second := by
  have plain (c : Char) : IsLoopless [.char c] := isLoopless_map_char [c]
  induction same with
  | nil => exact loopless
  | left c _ inductionHypothesis =>
    rw [← List.singleton_append, isLoopless_append_iff] at loopless
    exact inductionHypothesis loopless.2
  | right c _ inductionHypothesis =>
    rw [← List.singleton_append, isLoopless_append_iff]
    exact ⟨plain c, inductionHypothesis loopless⟩
  | tag renames _ inductionHypothesis =>
    rw [isLoopless_tag_iff] at loopless ⊢
    exact ⟨renames.not_iterates loopless.1, inductionHypothesis loopless.2⟩

/-- The names of the tags among the pieces that are some of `names`, in their order. -/
def namesAmong (names : List (List Char)) (written : List Piece) : List (List Char) :=
  written.flatMap fun piece =>
    match piece with
    | .char _ => []
    | .tag tag => if tag.name ∈ names then [tag.name] else []

theorem namesAmong_tag (names : List (List Char)) (tag : Tag) (rest : List Piece) :
    namesAmong names (.tag tag :: rest) =
      (if tag.name ∈ names then [tag.name] else []) ++ namesAmong names rest :=
  List.flatMap_cons

theorem namesAmong_append (names : List (List Char)) (first second : List Piece) :
    namesAmong names (first ++ second) = namesAmong names first ++ namesAmong names second :=
  List.flatMap_append

/-- The tags with kept names are the same, in the same order. -/
theorem SameTags.namesAmong_eq {kept names : List (List Char)} {first second : List Piece}
    (same : SameTags kept first second) (known : names ⊆ kept) :
    namesAmong names second = namesAmong names first := by
  induction same with
  | nil => rfl
  | left c _ inductionHypothesis => exact inductionHypothesis
  | right c _ inductionHypothesis => exact inductionHypothesis
  | @tag before after first second renames _ inductionHypothesis =>
    have own : (if after.name ∈ names then [after.name] else []) =
        if before.name ∈ names then [before.name] else [] := by
      rcases renames.same with same | ⟨other, otherAfter, -⟩
      · rw [same]
      · rw [if_neg (mt (@known _) other), if_neg (mt (@known _) otherAfter)]
    rw [namesAmong_tag, namesAmong_tag, inductionHypothesis, own]

/-! ## The tags of a row -/

section Tags

variable {kept : List (List Char)}

/-- A tag starts at a kept character before and after, or not at all. -/
theorem startsTag_iff_of_placed {c : Char} {rest : Row} (placed : Placed (IsRenaming kept) (some c) rest) :
    StartsTag (c :: rest.original) ↔ StartsTag (c :: rest.output) := by
  by_cases opening : c = '\x7b' ∧ rest.original.head? = some '%'
  · obtain ⟨rfl, percent⟩ := opening
    obtain ⟨inside, rfl, placedInside⟩ := exists_kept_of_head? (by decide) placed percent
    have opened : StartsTag ('\x7b' :: '%' :: Row.original inside) ↔
        StartsTag ('\x7b' :: '%' :: Row.output inside) := by
      rw [startsTag_opening_iff, startsTag_opening_iff]
      exact not_congr (renames_tagName placedInside).empty
    exact opened
  · have stillUnopened : ¬ (c = '\x7b' ∧ rest.output.head? = some '%') := fun opened =>
      opening ⟨opened.1, (head?_original_iff (by decide) placed).mpr opened.2⟩
    exact iff_of_false
      (not_startsTag_of_unopened (Decidable.not_and_iff_not_or_not.mp opening))
      (not_startsTag_of_unopened (Decidable.not_and_iff_not_or_not.mp stillUnopened))

/-- A tag that starts at a row is a tag before and after, with a row behind it. -/
theorem exists_tags_of_placed {before : Option Char} {inside : Row}
    (placed : Placed (IsRenaming kept) before inside) (named : tagName inside.original ≠ [])
    (closed : openName? ('\x7b' :: '%' :: inside.original) = none) :
    ∃ first second between rest, Placed (IsRenaming kept) between rest ∧ rest.length < inside.length ∧
      Renames kept first.name second.name ∧
      ('\x7b' :: '%' :: inside.original = first.source ++ rest.original ∧
        tag? (first.source ++ rest.original) = some (first, rest.original)) ∧
      ('\x7b' :: '%' :: inside.output = second.source ++ rest.output ∧
        tag? (second.source ++ rest.output) = some (second, rest.output)) := by
  have renames := renames_tagName placed
  rcases afterEnd?_of_placed placed with ⟨unended, -⟩ | ⟨between, rest, behind, shorter, ends, endsAfter⟩
  · rw [openName?_left named unended] at closed
    contradiction
  · obtain ⟨first, read, isName⟩ := exists_tag named ends
    obtain ⟨second, readAfter, isNameAfter⟩ := exists_tag (mt renames.empty.mpr named) endsAfter
    obtain ⟨split, -⟩ := eq_append_of_tag? read
    obtain ⟨splitAfter, -⟩ := eq_append_of_tag? readAfter
    rw [← isName, ← isNameAfter] at renames
    exact ⟨first, second, between, rest, behind, shorter, renames, ⟨split, split ▸ read⟩,
      splitAfter, splitAfter ▸ readAfter⟩

/-- If the text before leaves no tag open, neither does the text after, and their tags are the same but
for their names. -/
theorem sameTags_of_placed {before : Option Char} {row : Row} (placed : Placed (IsRenaming kept) before row)
    (closed : openName? row.original = none) :
    openName? row.output = none ∧
      SameTags kept (piecesFrom 0 row.original) (piecesFrom 0 row.output) := by
  induction size : row.length using Nat.strongRecOn generalizing before row with
  | ind count inductionHypothesis =>
    cases placed with
    | nil => exact ⟨rfl, .nil⟩
    | @kept _ c rest more =>
      have original : Row.original (.kept c :: rest) = c :: rest.original := Row.original_cons _ _
      have output : Row.output (.kept c :: rest) = c :: rest.output := Row.output_cons _ _
      rw [original] at closed ⊢
      rw [List.length_cons] at size
      rw [output]
      by_cases starts : StartsTag (c :: rest.original)
      · obtain ⟨text, same, named⟩ := starts
        obtain ⟨rfl, isText⟩ := List.cons.inj same
        have percent : rest.original.head? = some '%' := by rw [isText]; rfl
        obtain ⟨inside, rfl, placedInside⟩ := exists_kept_of_head? (by decide) more percent
        obtain rfl : Row.original inside = text := (List.cons.inj isText).2
        obtain ⟨first, second, _, after, behind, shorter, renames, ⟨split, read⟩, splitAfter, readAfter⟩ :=
          exists_tags_of_placed placedInside named closed
        have texts : Row.original (.kept '%' :: inside) = '%' :: Row.original inside ∧
            Row.output (.kept '%' :: inside) = '%' :: Row.output inside :=
          ⟨Row.original_cons _ _, Row.output_cons _ _⟩
        rw [texts.1, split, openName?_tag read] at closed
        rw [List.length_cons] at size
        obtain ⟨closedAfter, same⟩ := inductionHypothesis after.length (by omega) behind closed rfl
        rw [texts.1, texts.2, split, splitAfter, openName?_tag readAfter,
          piecesFrom_tag (source_ne_nil_of_tag? read) read,
          piecesFrom_tag (source_ne_nil_of_tag? readAfter) readAfter]
        exact ⟨closedAfter, .tag renames same⟩
      · have stillUnstarted := fun started => starts ((startsTag_iff_of_placed more).mpr started)
        rw [openName?_of_not_startsTag starts] at closed
        obtain ⟨closedAfter, same⟩ := inductionHypothesis rest.length (by omega) more closed rfl
        rw [openName?_of_not_startsTag stillUnstarted,
          piecesFrom_char (tag?_of_not_startsTag starts),
          piecesFrom_char (tag?_of_not_startsTag stillUnstarted)]
        exact ⟨closedAfter, .left c (.right c same)⟩
    | @replaced _ original replacement rest _ renames more =>
      have first : '\x7b' ∉ original := renames.1.undelimited '\x7b' (by decide)
      have second : '\x7b' ∉ replacement := renames.2.undelimited '\x7b' (by decide)
      have texts : Row.original (.replaced original replacement :: rest) = original ++ rest.original ∧
          Row.output (.replaced original replacement :: rest) = replacement ++ rest.output :=
        ⟨Row.original_cons _ _, Row.output_cons _ _⟩
      rw [List.length_cons] at size
      rw [texts.1, openName?_append_of_not_mem first] at closed
      obtain ⟨closedAfter, same⟩ := inductionHypothesis rest.length (by omega) more closed rfl
      rw [texts.1, texts.2, openName?_append_of_not_mem second, piecesFrom_plain first,
        piecesFrom_plain second]
      exact ⟨closedAfter, same.plain original replacement⟩

end Tags

end FlatLiquid
