import Mathlib.Data.List.TakeWhile
import FlatLiquid.Schema.Block
import FlatLiquid.Proofs.Template.Joining

/-!
Contract: where the pieces of a text depend on what follows it.

Owns:
- the two readings that make a tag: the name behind an opening, and the first end after it;
- the tag that a text leaves open, by its name;
- the pieces of a joined text, if its first part leaves no tag open and the second one can start a
  tag;
- the parts of a text before, at and after one of its tags.

An opening without a name behind it starts no tag. A text may hold any number of these and still
leave nothing open, which is why FlatLiquid.Proofs.Template.Joining does not apply to it.
-/

namespace FlatLiquid

open Text (isWordChar isBlank skipBlanks wordOf afterWord)

/-! ## The two readings of a tag -/

/-- The name behind the opening of a tag. It is empty if no word stands there. -/
def tagName (text : List Char) : List Char :=
  wordOf (skipBlanks (dropDash text))

/-- The text after the first end of a tag. -/
def afterEnd? : List Char → Option (List Char)
  | '%' :: '\x7d' :: rest => some rest
  | _ :: rest => afterEnd? rest
  | [] => none

theorem openTag?_opening (text : List Char) :
    openTag? ('\x7b' :: '%' :: text) = some (skipBlanks (dropDash text)) := by
  unfold openTag? dropDash
  cases text with
  | nil => rfl
  | cons c rest =>
    by_cases dash : c = '-'
    · subst dash
      rfl
    · simp [dash]

theorem afterEnd?_cons {c : Char} {rest : List Char}
    (other : ¬ (c = '%' ∧ rest.head? = some '\x7d')) : afterEnd? (c :: rest) = afterEnd? rest := by
  apply afterEnd?.eq_2
  rintro tail rfl rfl
  exact other ⟨rfl, rfl⟩

/-- An end starts here, or the first end is that of the rest. -/
theorem afterEnd?_cases (c : Char) (rest : List Char) :
    (c = '%' ∧ ∃ tail, rest = '\x7d' :: tail) ∨ afterEnd? (c :: rest) = afterEnd? rest := by
  by_cases closing : c = '%' ∧ rest.head? = some '\x7d'
  · exact .inl ⟨closing.1, List.head?_eq_some_iff.mp closing.2⟩
  · exact .inr (afterEnd?_cons closing)

theorem afterEnd?_append_of_not_mem {front : List Char} (free : '%' ∉ front) (rest : List Char) :
    afterEnd? (front ++ rest) = afterEnd? rest := by
  induction front with
  | nil => rfl
  | cons c tail inductionHypothesis =>
    rw [List.mem_cons, not_or] at free
    rw [List.cons_append, afterEnd?_cons fun closing => free.1 closing.1.symm,
      inductionHypothesis free.2]

/-- An end of a tag is found whatever stands in front of it. -/
theorem afterEnd?_isSome_append {text : List Char} (ends : (afterEnd? text).isSome = true)
    (front : List Char) : (afterEnd? (front ++ text)).isSome = true := by
  induction front with
  | nil => exact ends
  | cons c tail inductionHypothesis =>
    rw [List.cons_append]
    rcases afterEnd?_cases c (tail ++ text) with ⟨rfl, rest, shape⟩ | next
    · rw [shape]
      rfl
    · rw [next]
      exact inductionHypothesis

theorem snd_closeTag? (text : List Char) : (closeTag? text).map Prod.snd = afterEnd? text := by
  fun_induction closeTag? text with
  | case1 rest => rfl
  | case2 rest => rfl
  | case3 c rest _ notPlain inductionHypothesis =>
    rw [Option.map_map, afterEnd?_cons, ← inductionHypothesis]
    · rfl
    · rintro ⟨rfl, brace⟩
      obtain ⟨tail, rfl⟩ := List.head?_eq_some_iff.mp brace
      exact notPlain tail rfl rfl
  | case4 => rfl

/-- Neither the dash of an opening nor the blanks and the name behind it hold an end. -/
theorem afterEnd?_afterWord (text : List Char) :
    afterEnd? (afterWord (skipBlanks (dropDash text))) = afterEnd? text := by
  have undashed : afterEnd? (dropDash text) = afterEnd? text := by
    unfold dropDash
    split
    · rfl
    · rfl
  have unblanked (tail : List Char) : afterEnd? (skipBlanks tail) = afterEnd? tail := by
    have free : '%' ∉ tail.takeWhile isBlank := fun member =>
      absurd (List.mem_takeWhile_imp member) (by decide)
    have split := afterEnd?_append_of_not_mem free (tail.dropWhile isBlank)
    rw [List.takeWhile_append_dropWhile] at split
    exact split.symm
  have unnamed (tail : List Char) : afterEnd? (afterWord tail) = afterEnd? tail := by
    have free : '%' ∉ wordOf tail := fun member =>
      absurd (List.mem_takeWhile_imp member) (by decide)
    have split := afterEnd?_append_of_not_mem free (afterWord tail)
    rw [Text.wordOf_append_afterWord] at split
    exact split.symm
  rw [unnamed, unblanked, undashed]

/-- A tag has the name behind its opening and reaches to the first end after it. -/
theorem readings_of_tag? {text after : List Char} {tag : Tag}
    (read : tag? ('\x7b' :: '%' :: text) = some (tag, after)) :
    tag.name = tagName text ∧ tagName text ≠ [] ∧ afterEnd? text = some after := by
  obtain ⟨rest, opened, name, named, closed, -⟩ := exists_parts_of_tag? read
  rw [openTag?_opening] at opened
  obtain rfl := Option.some.inj opened
  refine ⟨name, ?_, ?_⟩
  · rw [name] at named
    exact named
  · rw [← afterEnd?_afterWord, ← snd_closeTag?, closed]
    rfl

theorem exists_tag {text after : List Char} (named : tagName text ≠ [])
    (ends : afterEnd? text = some after) :
    ∃ tag, tag? ('\x7b' :: '%' :: text) = some (tag, after) ∧ tag.name = tagName text := by
  have isNamed : (wordOf (skipBlanks (dropDash text))).isEmpty = false :=
    List.isEmpty_eq_false_iff.mpr named
  rw [← afterEnd?_afterWord, ← snd_closeTag?] at ends
  obtain ⟨⟨markup, rest⟩, closed, rfl⟩ := Option.map_eq_some_iff.mp ends
  rw [tag?, openTag?_opening]
  simp only [Option.bind_eq_bind, Option.bind_some, isNamed, closed]
  exact ⟨_, rfl, rfl⟩

/-- Every tag is opened and named. -/
theorem exists_opening_of_tag? {text after : List Char} {tag : Tag}
    (read : tag? text = some (tag, after)) : ∃ rest, text = '\x7b' :: '%' :: rest := by
  cases text with
  | nil => contradiction
  | cons c rest =>
    by_cases opening : c = '\x7b' ∧ rest.head? = some '%'
    · obtain ⟨rfl, percent⟩ := opening
      obtain ⟨tail, rfl⟩ := List.head?_eq_some_iff.mp percent
      exact ⟨tail, rfl⟩
    · rw [tag?_eq_none_of_unopened (Decidable.not_and_iff_not_or_not.mp opening)] at read
      contradiction

/-- The opening of a tag does not share its percent sign with an end. -/
theorem afterEnd?_opening {text : List Char} (named : tagName text ≠ []) :
    afterEnd? ('\x7b' :: '%' :: text) = afterEnd? text := by
  rw [afterEnd?_cons (by simp), afterEnd?_cons]
  rintro ⟨-, brace⟩
  obtain ⟨tail, rfl⟩ := List.head?_eq_some_iff.mp brace
  exact named rfl

theorem afterEnd?_of_tag? {text after : List Char} {tag : Tag}
    (read : tag? text = some (tag, after)) : afterEnd? text = some after := by
  obtain ⟨rest, rfl⟩ := exists_opening_of_tag? read
  obtain ⟨-, named, ends⟩ := readings_of_tag? read
  rw [afterEnd?_opening named, ends]

/-- What starts with a tag starts with the brace of its opening. -/
theorem head?_of_tag? {text after : List Char} {tag : Tag}
    (read : tag? text = some (tag, after)) : ∀ c ∈ text.head?, c = '\x7b' := by
  obtain ⟨rest, rfl⟩ := exists_opening_of_tag? read
  rintro c ⟨⟩
  rfl

/-- A tag starts here, whether or not it ends. -/
def StartsTag (text : List Char) : Prop :=
  ∃ rest, text = '\x7b' :: '%' :: rest ∧ tagName rest ≠ []

theorem startsTag_opening_iff (rest : List Char) :
    StartsTag ('\x7b' :: '%' :: rest) ↔ tagName rest ≠ [] := by
  constructor
  · rintro ⟨_, ⟨⟩, named⟩
    exact named
  · exact fun named => ⟨rest, rfl, named⟩

theorem not_startsTag_of_unopened {c : Char} {rest : List Char}
    (unopened : c ≠ '\x7b' ∨ rest.head? ≠ some '%') : ¬ StartsTag (c :: rest) := by
  rintro ⟨tail, same, -⟩
  obtain ⟨rfl, rfl⟩ := List.cons.inj same
  simp at unopened

theorem tag?_of_not_startsTag {text : List Char} (unstarted : ¬ StartsTag text) :
    tag? text = none := by
  cases read : tag? text with
  | none => rfl
  | some found =>
    obtain ⟨rest, rfl⟩ := exists_opening_of_tag? read
    exact absurd ⟨rest, rfl, (readings_of_tag? read).2.1⟩ unstarted

/-! ## Names when the text goes on -/

theorem dropDash_append_of_ne_nil {text : List Char} (nonempty : text ≠ []) (more : List Char) :
    dropDash (text ++ more) = dropDash text ++ more := by
  obtain ⟨c, rest, rfl⟩ := List.exists_cons_of_ne_nil nonempty
  by_cases dash : c = '-'
  · subst dash
    rfl
  · unfold dropDash
    simp [dash]

theorem tagName_append_ne_nil {text : List Char} (named : tagName text ≠ []) (more : List Char) :
    tagName (text ++ more) ≠ [] := by
  have nonempty : text ≠ [] := by
    rintro rfl
    exact named rfl
  have kept : skipBlanks (dropDash text) ≠ [] := by
    intro empty
    rw [tagName, empty] at named
    exact named rfl
  rw [tagName, dropDash_append_of_ne_nil nonempty, skipBlanks_append_of_ne_nil kept]
  rw [tagName] at named
  cases shape : skipBlanks (dropDash text) with
  | nil => exact absurd shape kept
  | cons c rest =>
    rw [shape] at named
    cases isWord : isWordChar c with
    | true =>
      rw [wordOf, List.cons_append, List.takeWhile_cons_of_pos isWord]
      exact List.cons_ne_nil _ _
    | false =>
      rw [wordOf, List.takeWhile_cons_of_neg (by simp [isWord])] at named
      exact absurd rfl named

/-- What can start a tag adds nothing to a name in front of it. -/
theorem tagName_append_of_seam {more : List Char} (seam : ∀ c ∈ more.head?, c = '\x7b')
    (text : List Char) : tagName (text ++ more) = tagName text := by
  have alone : wordOf (skipBlanks (dropDash more)) = [] ∧ wordOf (skipBlanks more) = [] ∧
      wordOf more = [] := by
    cases more with
    | nil => exact ⟨rfl, rfl, rfl⟩
    | cons c rest =>
      obtain rfl : c = '\x7b' := seam c rfl
      exact ⟨rfl, rfl, rfl⟩
  by_cases nonempty : text = []
  · subst nonempty
    exact alone.1
  · rw [tagName, tagName, dropDash_append_of_ne_nil nonempty]
    by_cases kept : skipBlanks (dropDash text) = []
    · have blank : ∀ c ∈ dropDash text, isBlank c = true := List.dropWhile_eq_nil_iff.mp kept
      rw [kept, skipBlanks, List.dropWhile_append_of_pos blank]
      exact alone.2.1
    · have behind : more.takeWhile isWordChar = [] := alone.2.2
      rw [skipBlanks_append_of_ne_nil kept, wordOf, List.takeWhile_append, behind]
      split
      · next whole =>
        rw [List.append_nil]
        exact ((List.takeWhile_prefix isWordChar).eq_of_length whole).symm
      · rfl

theorem startsTag_append_iff {c : Char} {rest more : List Char}
    (seam : ∀ c ∈ more.head?, c = '\x7b') :
    StartsTag (c :: (rest ++ more)) ↔ StartsTag (c :: rest) := by
  by_cases opening : c = '\x7b' ∧ rest.head? = some '%'
  · obtain ⟨rfl, percent⟩ := opening
    obtain ⟨text, rfl⟩ := List.head?_eq_some_iff.mp percent
    rw [List.cons_append, startsTag_opening_iff, startsTag_opening_iff,
      tagName_append_of_seam seam]
  · have unopened := Decidable.not_and_iff_not_or_not.mp opening
    have stillUnopened : c ≠ '\x7b' ∨ (rest ++ more).head? ≠ some '%' := by
      refine unopened.imp_right fun other percent => ?_
      cases rest with
      | nil => exact absurd (seam '%' percent) (by decide)
      | cons first tail => exact other percent
    exact iff_of_false (not_startsTag_of_unopened stillUnopened)
      (not_startsTag_of_unopened unopened)

/-! ## The tag that a text leaves open -/

/-- The name of the tag that a text leaves open: the first one with no end behind it. -/
def openName? : List Char → Option (List Char)
  | '\x7b' :: '%' :: rest =>
    if tagName rest ≠ [] ∧ afterEnd? rest = none then some (tagName rest) else openName? rest
  | _ :: rest => openName? rest
  | [] => none

theorem openName?_cons {c : Char} {rest : List Char}
    (unopened : c ≠ '\x7b' ∨ rest.head? ≠ some '%') : openName? (c :: rest) = openName? rest := by
  apply openName?.eq_2
  rintro tail rfl rfl
  simp at unopened

theorem openName?_append_of_not_mem {front : List Char} (free : '\x7b' ∉ front) (rest : List Char) :
    openName? (front ++ rest) = openName? rest := by
  induction front with
  | nil => rfl
  | cons c tail inductionHypothesis =>
    rw [List.mem_cons, not_or] at free
    rw [List.cons_append, openName?_cons (.inl (Ne.symm free.1)), inductionHypothesis free.2]

/-- What stands in front of an end leaves no tag open. -/
theorem openName?_of_afterEnd? {text after : List Char} (ends : afterEnd? text = some after) :
    openName? text = openName? after := by
  fun_induction openName? text with
  | case1 rest unended =>
    rw [afterEnd?_cons (by simp)] at ends
    rcases afterEnd?_cases '%' rest with ⟨-, tail, rfl⟩ | next
    · exact absurd rfl unended.1
    · rw [next, unended.2] at ends
      contradiction
  | case2 rest _ inductionHypothesis =>
    rw [afterEnd?_cons (by simp)] at ends
    rcases afterEnd?_cases '%' rest with ⟨-, tail, rfl⟩ | next
    · obtain rfl : tail = after := Option.some.inj ends
      exact openName?_cons (.inl (by decide))
    · rw [next] at ends
      exact inductionHypothesis ends
  | case3 c rest _ inductionHypothesis =>
    rcases afterEnd?_cases c rest with ⟨rfl, tail, rfl⟩ | next
    · obtain rfl : tail = after := Option.some.inj ends
      exact openName?_cons (.inl (by decide))
    · rw [next] at ends
      exact inductionHypothesis ends
  | case4 => contradiction

/-- A tag that ends is not left open. -/
theorem openName?_tag {tag : Tag} {after : List Char}
    (read : tag? (tag.source ++ after) = some (tag, after)) :
    openName? (tag.source ++ after) = openName? after := by
  obtain ⟨rest, shape⟩ := exists_opening_of_tag? read
  rw [shape] at read ⊢
  obtain ⟨-, -, ends⟩ := readings_of_tag? read
  rw [openName?, if_neg (by simp [ends]), openName?_of_afterEnd? ends]

theorem openName?_of_not_startsTag {c : Char} {rest : List Char}
    (unstarted : ¬ StartsTag (c :: rest)) : openName? (c :: rest) = openName? rest := by
  by_cases opening : c = '\x7b' ∧ rest.head? = some '%'
  · obtain ⟨rfl, percent⟩ := opening
    obtain ⟨text, rfl⟩ := List.head?_eq_some_iff.mp percent
    rw [startsTag_opening_iff] at unstarted
    rw [openName?, if_neg fun left => unstarted left.1, openName?_cons (.inl (by decide))]
  · exact openName?_cons (Decidable.not_and_iff_not_or_not.mp opening)

/-! ## Pieces of a joined text -/

/-- A text is empty, or it starts with a tag, with a tag that it leaves open, or with a character that
starts none. -/
@[elab_as_elim]
theorem pieces_induction {motive : List Char → Prop} (nil : motive [])
    (tag : ∀ (tag : Tag) (after : List Char), tag? (tag.source ++ after) = some (tag, after) →
      motive after → motive (tag.source ++ after))
    (left : ∀ rest : List Char, tagName rest ≠ [] → afterEnd? rest = none → motive rest →
      motive ('\x7b' :: '%' :: rest))
    (char : ∀ (c : Char) (rest : List Char), ¬ StartsTag (c :: rest) → motive rest →
      motive (c :: rest))
    (text : List Char) : motive text := by
  induction size : text.length using Nat.strongRecOn generalizing text with
  | ind count inductionHypothesis =>
    have shorter (rest : List Char) (less : rest.length < text.length) : motive rest :=
      inductionHypothesis rest.length (size ▸ less) rest rfl
    cases text with
    | nil => exact nil
    | cons c rest =>
      by_cases starts : StartsTag (c :: rest)
      · obtain ⟨inside, same, named⟩ := starts
        rw [same] at shorter ⊢
        cases ends : afterEnd? inside with
        | none => exact left inside named ends (shorter inside (by simp only [List.length_cons]; omega))
        | some after =>
          obtain ⟨found, read, -⟩ := exists_tag named ends
          obtain ⟨split, nonempty⟩ := eq_append_of_tag? read
          have positive : 0 < found.source.length := List.length_pos_iff.mpr nonempty
          rw [split] at read shorter ⊢
          apply tag found after read
          exact shorter after (by rw [List.length_append]; omega)
      · exact char c rest starts (shorter rest (by simp))

theorem source_ne_nil_of_tag? {tag : Tag} {after : List Char}
    (read : tag? (tag.source ++ after) = some (tag, after)) : tag.source ≠ [] :=
  (eq_append_of_tag? read).2

theorem piecesFrom_char {c : Char} {rest : List Char} (unread : tag? (c :: rest) = none) :
    piecesFrom 0 (c :: rest) = .char c :: piecesFrom 0 rest := by
  rw [piecesFrom, unread]

theorem openName?_left {rest : List Char} (named : tagName rest ≠ []) (unended : afterEnd? rest = none) :
    openName? ('\x7b' :: '%' :: rest) = some (tagName rest) := by
  rw [openName?, if_pos ⟨named, unended⟩]

/-- A text that leaves no tag open has pieces of its own in front of what can start a tag. -/
theorem piecesFrom_append_of_closed {text more : List Char} (closed : openName? text = none)
    (seam : ∀ c ∈ more.head?, c = '\x7b') :
    piecesFrom 0 (text ++ more) = piecesFrom 0 text ++ piecesFrom 0 more := by
  induction text using pieces_induction with
  | nil => rfl
  | tag tag after read inductionHypothesis =>
    have nonempty := source_ne_nil_of_tag? read
    have readOn := tag?_append read more
    rw [openName?_tag read] at closed
    rw [List.append_assoc] at readOn ⊢
    rw [piecesFrom_tag nonempty readOn, piecesFrom_tag nonempty read, inductionHypothesis closed]
    rfl
  | left rest named unended _ =>
    rw [openName?_left named unended] at closed
    contradiction
  | char c rest unstarted inductionHypothesis =>
    have unstartedOn : ¬ StartsTag (c :: (rest ++ more)) :=
      fun starts => unstarted ((startsTag_append_iff seam).mp starts)
    rw [openName?_of_not_startsTag unstarted] at closed
    rw [List.cons_append, piecesFrom_char (tag?_of_not_startsTag unstartedOn),
      piecesFrom_char (tag?_of_not_startsTag unstarted), inductionHypothesis closed]
    rfl

/-! ## The parts around a tag -/

theorem length_of_afterEnd? {text after : List Char} (ends : afterEnd? text = some after) :
    after.length < text.length := by
  induction text with
  | nil => contradiction
  | cons c rest inductionHypothesis =>
    rcases afterEnd?_cases c rest with ⟨rfl, tail, rfl⟩ | next
    · obtain rfl : tail = after := Option.some.inj ends
      simp only [List.length_cons]
      omega
    · rw [next] at ends
      have later := inductionHypothesis ends
      rw [List.length_cons]
      omega

/-- The end in front of a text is the end of what stands there. -/
theorem afterEnd?_of_append {front rest : List Char} (ends : afterEnd? (front ++ rest) = some rest) :
    afterEnd? front = some [] := by
  induction front with
  | nil => exact absurd (length_of_afterEnd? ends) (Nat.lt_irrefl _)
  | cons c tail inductionHypothesis =>
    by_cases closing : c = '%' ∧ (tail ++ rest).head? = some '\x7d'
    · obtain ⟨rfl, brace⟩ := closing
      obtain ⟨others, shape⟩ := List.head?_eq_some_iff.mp brace
      rw [List.cons_append, shape] at ends
      obtain rfl : others = rest := Option.some.inj ends
      have single : tail ++ others = ['\x7d'] ++ others := shape
      obtain rfl := List.append_cancel_right single
      rfl
    · rw [List.cons_append, afterEnd?_cons closing] at ends
      rw [afterEnd?_cons ?_, inductionHypothesis ends]
      rintro ⟨rfl, brace⟩
      obtain ⟨others, rfl⟩ := List.head?_eq_some_iff.mp brace
      exact closing ⟨rfl, rfl⟩

/-- A name in front of an end does not run on. -/
theorem tagName_append_of_afterEnd? {text after : List Char} (ends : afterEnd? text = some after)
    (more : List Char) : tagName (text ++ more) = tagName text := by
  have endsBehind : afterWord (skipBlanks (dropDash text)) ≠ [] := by
    intro empty
    rw [← afterEnd?_afterWord, empty] at ends
    contradiction
  have kept : skipBlanks (dropDash text) ≠ [] := by
    intro empty
    rw [empty] at endsBehind
    exact endsBehind rfl
  have nonempty : text ≠ [] := by
    rintro rfl
    exact kept rfl
  have isBehind : ((skipBlanks (dropDash text)).takeWhile isWordChar).length ≠
      (skipBlanks (dropDash text)).length := by
    intro whole
    apply endsBehind
    have all := (List.takeWhile_prefix isWordChar).eq_of_length whole
    exact List.dropWhile_eq_nil_iff.mpr fun c member => List.takeWhile_eq_self_iff.mp all c member
  rw [tagName, dropDash_append_of_ne_nil nonempty, skipBlanks_append_of_ne_nil kept, wordOf,
    List.takeWhile_append, if_neg isBehind]
  rfl

/-- A tag is the same tag in front of any text. -/
theorem tag?_source {tag : Tag} {after : List Char}
    (read : tag? (tag.source ++ after) = some (tag, after)) (other : List Char) :
    tag? (tag.source ++ other) = some (tag, other) := by
  obtain ⟨text, shape⟩ := exists_opening_of_tag? read
  have opened := read
  rw [shape] at opened
  obtain ⟨-, named, ends⟩ := readings_of_tag? opened
  -- the source is the opening and what stands behind it up to `after`
  have size := length_of_afterEnd? ends
  obtain ⟨inside, isInside, source⟩ : ∃ inside, text = inside ++ after ∧
      tag.source = '\x7b' :: '%' :: inside := by
    have total := congrArg List.length shape
    simp only [List.length_append, List.length_cons] at total
    match written : tag.source with
    | [] => simp [written] at total; omega
    | [_] => simp [written] at total; omega
    | first :: second :: inside =>
      rw [written] at shape
      obtain ⟨rfl, tail⟩ := List.cons.inj shape
      obtain ⟨rfl, behind⟩ := List.cons.inj tail
      exact ⟨inside, behind.symm, rfl⟩
  subst isInside
  have endsInside := afterEnd?_of_append ends
  rw [tagName_append_of_afterEnd? endsInside] at named
  obtain ⟨found, readInside, -⟩ := exists_tag named endsInside
  rw [← source] at readInside
  have same := tag?_append readInside after
  rw [read] at same
  obtain rfl : tag = found := congrArg Prod.fst (Option.some.inj same)
  exact tag?_append readInside other

/-- A text without an end of a tag holds no tag. -/
theorem tag_not_mem_of_unended {text : List Char} (unended : afterEnd? text = none) {tag : Tag} :
    .tag tag ∉ piecesFrom 0 text := by
  induction text using pieces_induction with
  | nil => exact List.not_mem_nil
  | tag first after read _ =>
    rw [afterEnd?_of_tag? read] at unended
    contradiction
  | left rest named unendedInside inductionHypothesis =>
    have unreadHere : tag? ('\x7b' :: '%' :: rest) = none := by
      cases read : tag? ('\x7b' :: '%' :: rest) with
      | none => rfl
      | some found =>
        rw [(readings_of_tag? read).2.2] at unendedInside
        contradiction
    rw [piecesFrom_char unreadHere, piecesFrom_char (tag?_of_ne (by decide) rest)]
    simp [inductionHypothesis unendedInside]
  | char c rest unstarted inductionHypothesis =>
    have unendedLater : afterEnd? rest = none := by
      cases ends : afterEnd? rest with
      | none => rfl
      | some after =>
        have some := afterEnd?_isSome_append (by rw [ends]; rfl) [c]
        rw [List.singleton_append, unended] at some
        contradiction
    rw [piecesFrom_char (tag?_of_not_startsTag unstarted)]
    simp [inductionHypothesis unendedLater]

/-- The text before a tag leaves none open, and each of the three parts is read on its own. -/
theorem split_of_piecesFrom {text : List Char} {before after : List Piece} {tag : Tag}
    (split : piecesFrom 0 text = before ++ .tag tag :: after) :
    text = sourceOf before ++ (tag.source ++ sourceOf after) ∧ openName? (sourceOf before) = none ∧
      piecesFrom 0 (sourceOf before) = before ∧
      tag? (tag.source ++ sourceOf after) = some (tag, sourceOf after) ∧
      piecesFrom 0 (sourceOf after) = after := by
  induction text using pieces_induction generalizing before with
  | nil => simp [piecesFrom] at split
  | tag first rest read inductionHypothesis =>
    have nonempty := source_ne_nil_of_tag? read
    rw [piecesFrom_tag nonempty read] at split
    cases before with
    | nil =>
      obtain ⟨same, others⟩ := List.cons.inj split
      obtain rfl := Piece.tag.inj same
      have written : sourceOf after = rest := by
        rw [← others, sourceOf_piecesFrom, List.drop_zero]
      rw [written]
      exact ⟨rfl, rfl, rfl, read, others⟩
    | cons piece tail =>
      obtain ⟨rfl, others⟩ := List.cons.inj split
      obtain ⟨written, closed, own, readLater, behind⟩ := inductionHypothesis others
      have readAlone := tag?_source read (sourceOf tail)
      have source : sourceOf (.tag first :: tail) = first.source ++ sourceOf tail :=
        sourceOf_cons _ _
      refine ⟨?_, ?_, ?_, readLater, behind⟩
      · rw [source, written, List.append_assoc]
      · rw [source, openName?_tag readAlone, closed]
      · rw [source, piecesFrom_tag nonempty readAlone, own]
  | left rest named unended _ =>
    have member : .tag tag ∈ piecesFrom 0 ('\x7b' :: '%' :: rest) := by
      rw [split]
      simp
    rw [← afterEnd?_opening named] at unended
    exact absurd member (tag_not_mem_of_unended unended)
  | char c rest unstarted inductionHypothesis =>
    rw [piecesFrom_char (tag?_of_not_startsTag unstarted)] at split
    cases before with
    | nil => exact Piece.noConfusion (List.cons.inj split).1
    | cons piece tail =>
      obtain ⟨rfl, others⟩ := List.cons.inj split
      obtain ⟨written, closed, own, readLater, behind⟩ := inductionHypothesis others
      have source : sourceOf (.char c :: tail) = c :: sourceOf tail := sourceOf_cons _ _
      have unstartedAlone : ¬ StartsTag (c :: sourceOf tail) := by
        rintro ⟨text, same, named⟩
        apply unstarted
        obtain ⟨rfl, shape⟩ := List.cons.inj same
        rw [written, shape, List.cons_append, startsTag_opening_iff]
        exact tagName_append_ne_nil named _
      refine ⟨?_, ?_, ?_, readLater, behind⟩
      · rw [source, written, List.cons_append]
      · rw [source, openName?_of_not_startsTag unstartedAlone, closed]
      · rw [source, piecesFrom_char (tag?_of_not_startsTag unstartedAlone), own]

end FlatLiquid
