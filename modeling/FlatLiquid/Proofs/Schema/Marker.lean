import FlatLiquid.Schema.Block
import FlatLiquid.Proofs.Text.Classes
import FlatLiquid.Proofs.Text.Trimming

/-!
Contract: the markers of a schema block, as they are written and as they are found.

Owns:
- the grammar of a marker, and that the reader of markers accepts exactly the texts of the grammar;
- the opening brace, which stands at the beginning of a marker and nowhere else in it, so that no
  marker reaches from one side of it to the other;
- the first marker of a text, and of a text to which a marker is appended.
-/

namespace FlatLiquid

open Text (isBlank isWordChar skipBlanks skipBlanks_append exists_blanks)

/-! ## The grammar of a marker -/

/-- A word in small letters. -/
def IsWord (word : List Char) : Prop :=
  word ≠ [] ∧ word.all Char.isLower = true

theorem isWord_schemaWord : IsWord schemaWord := ⟨by decide, by decide⟩

theorem isWord_endSchemaWord : IsWord endSchemaWord := ⟨by decide, by decide⟩

/-- A text spells a word, in any case. -/
inductive Spells : List Char → List Char → Prop where
  | nil : Spells [] []
  | cons {letter c : Char} {word text : List Char} (folds : foldsTo letter c = true)
      (more : Spells word text) : Spells (letter :: word) (c :: text)

/-- A dash, or nothing. -/
def IsDash (text : List Char) : Prop :=
  text = [] ∨ text = ['-']

/-- How a marker of a word is written. -/
inductive IsMarker (word : List Char) : List Char → Prop where
  | written {front left spelled right back : List Char} (opens : IsDash front)
      (leftBlank : left.all isBlank = true) (spells : Spells word spelled)
      (rightBlank : right.all isBlank = true) (closes : IsDash back) :
      IsMarker word
        ('\x7b' :: '%' :: (front ++ (left ++ (spelled ++ (right ++ (back ++ ['%', '\x7d']))))))

theorem isWordChar_of_isAlpha {c : Char} (alpha : c.isAlpha = true) : isWordChar c = true := by
  apply Text.isWordChar_of_isAlphanum
  change (c.isAlpha || c.isDigit) = true
  rw [alpha, Bool.true_or]

/-- What spells a small letter is a character of a word. -/
theorem isWordChar_of_foldsTo {letter c : Char} (lower : letter.isLower = true)
    (folds : foldsTo letter c = true) : isWordChar c = true := by
  rcases Bool.or_eq_true _ _ |>.mp folds with same | longS
  · refine isWordChar_of_isAlpha ?_
    rw [beq_iff_eq] at same
    subst same
    change (c.isUpper || c.isLower) = true
    cases upper : c.isUpper with
    | true => rfl
    | false =>
      have outside : ¬ (c.val ≥ 'A'.val ∧ c.val ≤ 'Z'.val) := of_decide_eq_false upper
      have kept : c.toLower = c := dif_neg outside
      rw [kept] at lower
      rw [lower, Bool.or_true]
  · rw [Bool.and_eq_true, beq_iff_eq, beq_iff_eq] at longS
    rw [longS.2]
    decide

theorem Spells.isWordChar_of_mem {word text : List Char} (spells : Spells word text)
    (lower : word.all Char.isLower = true) {c : Char} (member : c ∈ text) : isWordChar c = true := by
  induction spells with
  | nil => exact absurd member List.not_mem_nil
  | cons folds more inductionHypothesis =>
    rw [List.all_cons, Bool.and_eq_true] at lower
    rcases List.mem_cons.mp member with rfl | later
    · exact isWordChar_of_foldsTo lower.1 folds
    · exact inductionHypothesis lower.2 later

/-! ## The reader of markers -/

theorem afterFolded?_eq_some_iff (word text rest : List Char) :
    afterFolded? word text = some rest ↔ ∃ spelled, Spells word spelled ∧ text = spelled ++ rest := by
  constructor
  · intro found
    induction word generalizing text with
    | nil => exact ⟨[], .nil, Option.some.inj found⟩
    | cons letter word inductionHypothesis =>
      cases text with
      | nil => contradiction
      | cons c text =>
        rw [afterFolded?] at found
        split at found
        · next folds =>
          obtain ⟨spelled, spells, rfl⟩ := inductionHypothesis text found
          exact ⟨c :: spelled, .cons folds spells, rfl⟩
        · contradiction
  · rintro ⟨spelled, spells, rfl⟩
    induction spells with
    | nil => rfl
    | cons folds more inductionHypothesis =>
      rw [List.cons_append, afterFolded?, if_pos folds, inductionHypothesis]

theorem dropDash_append {dash rest : List Char} (isDash : IsDash dash)
    (other : rest.head? ≠ some '-') : dropDash (dash ++ rest) = rest := by
  rcases isDash with rfl | rfl
  · cases rest with
    | nil => rfl
    | cons c tail =>
      have unequal : c ≠ '-' := fun same => other (by rw [same]; rfl)
      rw [List.nil_append, dropDash]
      rintro tail ⟨⟩
      contradiction
  · rfl

theorem exists_dash (text : List Char) : ∃ dash, IsDash dash ∧ text = dash ++ dropDash text := by
  unfold dropDash
  split
  · exact ⟨['-'], .inr rfl, rfl⟩
  · exact ⟨[], .inl rfl, rfl⟩

/-- The reader of markers accepts the markers of the grammar, whatever follows them. -/
theorem afterMarker?_append {word marker : List Char} (isWord : IsWord word)
    (isMarker : IsMarker word marker) (after : List Char) :
    afterMarker? word (marker ++ after) = some after := by
  obtain @⟨front, left, spelled, right, back, opens, leftBlank, spells, rightBlank, closes⟩ := isMarker
  have spelledHead : ∃ c tail, spelled = c :: tail ∧ isWordChar c = true := by
    cases spells with
    | nil => exact absurd rfl isWord.1
    | @cons _ c _ tail folds more =>
      exact ⟨c, tail, rfl, (Spells.cons folds more).isWordChar_of_mem isWord.2 List.mem_cons_self⟩
  obtain ⟨first, letters, shape, firstWord⟩ := spelledHead
  have firstNotBlank : isBlank first = false := by
    cases blank : isBlank first with
    | false => rfl
    | true =>
      rw [Text.not_isWordChar_of_isBlank blank] at firstWord
      contradiction
  have dashRead : dropDash (front ++ (left ++ (spelled ++ (right ++ (back ++ '%' :: '\x7d' :: after))))) =
      left ++ (spelled ++ (right ++ (back ++ '%' :: '\x7d' :: after))) := by
    refine dropDash_append opens ?_
    cases left with
    | nil =>
      rw [shape]
      rintro ⟨⟩
      contradiction
    | cons blank more =>
      rintro ⟨⟩
      exact absurd (List.all_eq_true.mp leftBlank '-' List.mem_cons_self) (by decide)
  have blanksRead : skipBlanks (left ++ (spelled ++ (right ++ (back ++ '%' :: '\x7d' :: after)))) =
      spelled ++ (right ++ (back ++ '%' :: '\x7d' :: after)) := by
    refine skipBlanks_append leftBlank ?_
    rw [shape]
    rintro c ⟨⟩
    exact firstNotBlank
  have wordRead := (afterFolded?_eq_some_iff word _ (right ++ (back ++ '%' :: '\x7d' :: after))).mpr
    ⟨spelled, spells, rfl⟩
  have blanksAfterRead : skipBlanks (right ++ (back ++ '%' :: '\x7d' :: after)) =
      back ++ '%' :: '\x7d' :: after := by
    refine skipBlanks_append rightBlank ?_
    rcases closes with rfl | rfl <;>
    · rintro c ⟨⟩
      decide
  have dashAfterRead : dropDash (back ++ '%' :: '\x7d' :: after) = '%' :: '\x7d' :: after :=
    dropDash_append closes (by simp)
  simp only [List.cons_append, List.append_assoc, List.nil_append]
  rw [afterMarker?, dashRead, blanksRead, wordRead]
  simp [blanksAfterRead, dashAfterRead]

/-- What the reader of markers accepts is a marker of the grammar. -/
theorem exists_marker {word text after : List Char} (found : afterMarker? word text = some after) :
    ∃ marker, IsMarker word marker ∧ text = marker ++ after := by
  unfold afterMarker? at found
  split at found
  · next rest =>
    obtain ⟨afterWord, wordRead, found⟩ := Option.bind_eq_some_iff.mp found
    split at found
    · next more closing =>
      obtain rfl := Option.some.inj found
      obtain ⟨front, opens, frontSplit⟩ := exists_dash rest
      obtain ⟨left, leftBlank, leftSplit⟩ := exists_blanks (dropDash rest)
      obtain ⟨spelled, spells, spelledSplit⟩ :=
        (afterFolded?_eq_some_iff word _ afterWord).mp wordRead
      obtain ⟨right, rightBlank, rightSplit⟩ := exists_blanks afterWord
      obtain ⟨back, closes, backSplit⟩ := exists_dash (skipBlanks afterWord)
      refine ⟨_, .written opens leftBlank spells rightBlank closes, ?_⟩
      rw [frontSplit, leftSplit, spelledSplit, rightSplit, backSplit, closing]
      simp
    · contradiction
  · contradiction

/-! ## The brace of a marker -/

/-- A marker starts with an opening brace and holds no other one. -/
theorem IsMarker.exists_tail {word marker : List Char} (isWord : IsWord word)
    (isMarker : IsMarker word marker) : ∃ tail, marker = '\x7b' :: tail ∧ '\x7b' ∉ tail := by
  obtain @⟨front, left, spelled, right, back, opens, leftBlank, spells, rightBlank, closes⟩ := isMarker
  have dashFree {dash : List Char} (isDash : IsDash dash) : '\x7b' ∉ dash := by
    rcases isDash with rfl | rfl <;> decide
  have blankFree {blanks : List Char} (blank : blanks.all isBlank = true) : '\x7b' ∉ blanks :=
    fun member => absurd (List.all_eq_true.mp blank _ member) (by decide)
  have wordFree : '\x7b' ∉ spelled := fun member =>
    absurd (spells.isWordChar_of_mem isWord.2 member) (by decide)
  refine ⟨_, rfl, ?_⟩
  simp only [List.mem_cons, List.mem_append, not_or]
  exact ⟨by decide, dashFree opens, blankFree leftBlank, wordFree, blankFree rightBlank,
    dashFree closes, by decide, by decide, by simp⟩

/-- No marker that starts before an opening brace reaches it. -/
theorem afterMarker?_barrier {word text : List Char} (isWord : IsWord word) (nonempty : text ≠ [])
    (rest : List Char) :
    afterMarker? word (text ++ '\x7b' :: rest) =
      (afterMarker? word text).map (· ++ '\x7b' :: rest) := by
  cases inside : afterMarker? word text with
  | some after =>
    obtain ⟨marker, isMarker, rfl⟩ := exists_marker inside
    rw [List.append_assoc]
    exact afterMarker?_append isWord isMarker _
  | none =>
    cases across : afterMarker? word (text ++ '\x7b' :: rest) with
    | none => rfl
    | some after =>
      obtain ⟨marker, isMarker, split⟩ := exists_marker across
      obtain ⟨tail, shape, free⟩ := isMarker.exists_tail isWord
      rcases List.append_eq_append_iff.mp split with ⟨more, markerSplit, restSplit⟩ | ⟨more, textSplit, _⟩
      · -- the marker would hold the brace after its own one
        cases more with
        | nil =>
          rw [List.append_nil] at markerSplit
          have found := afterMarker?_append isWord isMarker []
          rw [List.append_nil, markerSplit, inside] at found
          contradiction
        | cons c more =>
          obtain ⟨first, textTail, rfl⟩ := List.exists_cons_of_ne_nil nonempty
          have isBrace : '\x7b' = c := (List.cons.inj restSplit).1
          rw [shape, List.cons_append] at markerSplit
          rw [(List.cons.inj markerSplit).2, ← isBrace] at free
          exact absurd (List.mem_append_right _ List.mem_cons_self) free
      · rw [textSplit, afterMarker?_append isWord isMarker] at inside
        contradiction

/-! ## The first marker of a text -/

/-- A text that starts with a marker is cut right there. -/
theorem cutAtMarker?_of_marker {word marker : List Char} (isWord : IsWord word)
    (isMarker : IsMarker word marker) (after : List Char) :
    cutAtMarker? word (marker ++ after) = some ([], marker, after) := by
  have found := afterMarker?_append isWord isMarker after
  obtain ⟨tail, shape, _⟩ := isMarker.exists_tail isWord
  have size : (tail ++ after).length + 1 - after.length = marker.length := by
    rw [shape, List.length_append, List.length_cons]
    omega
  have taken : (marker ++ after).take marker.length = marker := List.take_left
  rw [shape, List.cons_append] at found taken ⊢
  rw [cutAtMarker?, found]
  simp only
  rw [size, shape, taken]

theorem cutAtMarker?_of_no_marker {word : List Char} {c : Char} {rest : List Char}
    (unfit : afterMarker? word (c :: rest) = none) :
    cutAtMarker? word (c :: rest) = (cutAtMarker? word rest).map fun cut => (c :: cut.1, cut.2) := by
  rw [cutAtMarker?, unfit]

/-- The parts of a cut make up the text, and the middle one is a marker. -/
theorem cutAtMarker?_split {word text before marker after : List Char} (isWord : IsWord word)
    (cut : cutAtMarker? word text = some (before, marker, after)) :
    text = before ++ (marker ++ after) ∧ IsMarker word marker := by
  induction text generalizing before with
  | nil => contradiction
  | cons c rest inductionHypothesis =>
    cases fit : afterMarker? word (c :: rest) with
    | some found =>
      obtain ⟨written, isMarker, shape⟩ := exists_marker fit
      rw [shape, cutAtMarker?_of_marker isWord isMarker] at cut
      cases cut
      exact ⟨shape, isMarker⟩
    | none =>
      rw [cutAtMarker?_of_no_marker fit] at cut
      obtain ⟨⟨innerBefore, innerRest⟩, innerCut, same⟩ := Option.map_eq_some_iff.mp cut
      cases same
      obtain ⟨split, isMarker⟩ := inductionHypothesis innerCut
      exact ⟨congrArg (c :: ·) split, isMarker⟩

/-- A marker that is appended to a text changes nothing about the first marker of the text, and is
the first one if the text has none. -/
theorem cutAtMarker?_append {word marker : List Char} (isWord : IsWord word)
    (isMarker : IsMarker word marker) (text after : List Char) :
    cutAtMarker? word (text ++ (marker ++ after)) =
      some (match cutAtMarker? word text with
        | some (before, first, between) => (before, first, between ++ (marker ++ after))
        | none => (text, marker, after)) := by
  induction text with
  | nil => exact cutAtMarker?_of_marker isWord isMarker after
  | cons c rest inductionHypothesis =>
    cases fit : afterMarker? word (c :: rest) with
    | some found =>
      obtain ⟨written, isFirst, shape⟩ := exists_marker fit
      rw [shape, List.append_assoc, cutAtMarker?_of_marker isWord isFirst,
        cutAtMarker?_of_marker isWord isFirst]
    | none =>
      obtain ⟨tail, braced, _⟩ := isMarker.exists_tail isWord
      have unfit : afterMarker? word (c :: (rest ++ (marker ++ after))) = none := by
        rw [braced, List.cons_append, ← List.cons_append,
          afterMarker?_barrier isWord (List.cons_ne_nil c rest), fit]
        rfl
      rw [List.cons_append, cutAtMarker?_of_no_marker unfit, cutAtMarker?_of_no_marker fit,
        inductionHypothesis]
      cases cutAtMarker? word rest <;> rfl

/-- A text has no first marker if no part of it is a marker. -/
theorem cutAtMarker?_eq_none_iff {word text : List Char} (isWord : IsWord word) :
    cutAtMarker? word text = none ↔ ∀ marker, IsMarker word marker → ¬ marker <:+: text := by
  constructor
  · rintro free marker isMarker ⟨front, back, rfl⟩
    rw [List.append_assoc, cutAtMarker?_append isWord isMarker] at free
    contradiction
  · intro free
    cases cut : cutAtMarker? word text with
    | none => rfl
    | some parts =>
      obtain ⟨before, marker, after⟩ := parts
      obtain ⟨split, isMarker⟩ := cutAtMarker?_split isWord cut
      exact absurd ⟨before, after, by rw [split, List.append_assoc]⟩ (free marker isMarker)

theorem IsMarker.getLast? {word marker : List Char} (isMarker : IsMarker word marker) :
    marker.getLast? = some '\x7d' := by
  obtain ⟨⟩ := isMarker
  simp [List.getLast?_cons, List.getLast?_append]

/-- Line ends around a text are no part of a marker in it. -/
theorem IsMarker.infix_lines_iff {word marker text : List Char} (isWord : IsWord word)
    (isMarker : IsMarker word marker) : marker <:+: '\n' :: text ++ ['\n'] ↔ marker <:+: text := by
  constructor
  · rintro ⟨front, back, split⟩
    obtain ⟨tail, braced, _⟩ := isMarker.exists_tail isWord
    have last := isMarker.getLast?
    cases front with
    | nil =>
      rw [braced] at split
      exact absurd (List.cons.inj split).1 (by decide)
    | cons c front =>
      have rest : front ++ marker ++ back = text ++ ['\n'] := (List.cons.inj split).2
      rcases List.eq_nil_or_concat back with rfl | ⟨inner, c', rfl⟩
      · have ends := congrArg List.getLast? rest
        rw [List.append_nil] at ends
        simp [last] at ends
      · rw [List.concat_eq_append, ← List.append_assoc] at rest
        exact ⟨front, inner, (List.append_inj' rest rfl).1⟩
  · rintro ⟨front, back, rfl⟩
    exact ⟨'\n' :: front, back ++ ['\n'], by simp⟩

end FlatLiquid
