import FlatLiquid.Proofs.Template.Accessor
import Mathlib.Data.List.TakeWhile

/-!
Contract: an accessor in the midst of a template is replaced on its own.

Owns:
- the seams of a template, across which no reader of an accessor looks;
- the two kinds of them: before an opening brace, and after a text that is apart from the accessor that
  follows it;
- an accessor behind such a text, and an output tag with an accessor.

An accessor can run on into the next one, as a key: `section.settings.section` takes the object of a
second accessor with it. Only a dot, a dash or a character of a word can lead to this.
-/

namespace FlatLiquid

open Text (Rule afterPrefix? skipBlanks startsWord isWordChar isBlank replaceAll replaceFrom
  KeepsApart)

/-! ## Readers at a seam -/

/-- The readers of an accessor of an object do not look from the left text into the right one. -/
structure Seam (object left right : List Char) : Prop where
  blanks : skipBlanks right = right
  plain : ∀ c ∈ right.head?, c ∉ ['.', '[', ']', '\'', '"']
  beginning : ∀ text, text <:+ left → text ≠ [] →
    afterPrefix? (object ++ ".settings".toList) (text ++ right) =
      (afterPrefix? (object ++ ".settings".toList) text).map (· ++ right)
  key : ∀ c text, c :: text <:+ left → c = '.' ∨ text ≠ [] →
    key? (text ++ right) = (key? text).map fun found => (found.1, found.2 ++ right)
  unquoted : ∀ key rest, key? right = some (key, rest) → ∀ c ∈ rest.head?, c ≠ '\'' ∧ c ≠ '"'

theorem afterPrefix?_singleton_append {c : Char} {right : List Char}
    (other : ∀ first ∈ right.head?, first ≠ c) (text : List Char) :
    afterPrefix? [c] (text ++ right) = (afterPrefix? [c] text).map (· ++ right) := by
  cases text with
  | nil =>
    cases right with
    | nil => rfl
    | cons first rest => simp [afterPrefix?, Ne.symm (other first rfl)]
  | cons first rest =>
    by_cases same : c = first
    · simp [afterPrefix?, same]
    · simp [afterPrefix?, same]

theorem skipBlanks_append_of_kept {right : List Char} (kept : skipBlanks right = right)
    (text : List Char) : skipBlanks (text ++ right) = skipBlanks text ++ right := by
  unfold skipBlanks at kept ⊢
  rw [List.dropWhile_append, kept]
  split
  · next empty => rw [List.isEmpty_iff.mp empty, List.nil_append]
  · rfl

/-- A key is within the run of characters that may stand in one. -/
theorem length_key_le (text : List Char) :
    ((text.takeWhile isKeyChar).reverse.dropWhile (· == '-')).reverse.length ≤
      (text.takeWhile isKeyChar).length := by
  have within := (List.dropWhile_sublist (· == '-')
    (l := (text.takeWhile isKeyChar).reverse)).length_le
  rw [List.length_reverse] at within ⊢
  exact within

/-- The key is read from its run alone. -/
theorem key?_append_of_run {text right : List Char}
    (run : (text ++ right).takeWhile isKeyChar = text.takeWhile isKeyChar) :
    key? (text ++ right) = (key? text).map fun found => (found.1, found.2 ++ right) := by
  have fewer := Nat.le_trans (length_key_le text)
    (List.takeWhile_sublist isKeyChar (l := text)).length_le
  rw [key?, key?, run]
  split
  · split
    · rw [List.drop_append_of_le_length fewer]
      rfl
    · rfl
  · rfl

theorem exists_drop_of_key? {text key rest : List Char} (found : key? text = some (key, rest)) :
    ∃ count, count ≤ (text.takeWhile isKeyChar).length ∧ rest = text.drop count := by
  refine ⟨_, length_key_le text, ?_⟩
  unfold key? at found
  simp only at found
  split at found
  · split at found
    · exact (Prod.mk.inj (Option.some.inj found)).2.symm
    · contradiction
  · contradiction

section Seam

variable {object left right : List Char} (seam : Seam object left right)

include seam

theorem Seam.closing {c : Char} (isClosing : c ∈ ['.', '[', ']', '\'', '"']) (text : List Char) :
    afterPrefix? [c] (text ++ right) = (afterPrefix? [c] text).map (· ++ right) := by
  apply afterPrefix?_singleton_append
  rintro first isFirst rfl
  exact seam.plain first isFirst isClosing

/-- A key that starts behind the seam does not end in a quote. -/
theorem Seam.unclosed {quote : Char} (isQuote : (quote == '\'' || quote == '"') = true)
    {read : List Char × List Char} (found : key? right = some read) :
    afterPrefix? [quote] read.2 = none := by
  cases following : read.2 with
  | nil => rfl
  | cons c tail =>
    have others := seam.unquoted read.1 read.2 found c (by rw [following]; rfl)
    have different : quote ≠ c := by
      rintro rfl
      simp [others] at isQuote
    rw [afterPrefix?, if_neg different]

theorem Seam.bracketedKey?_append {text : List Char} (isSuffix : text <:+ left) :
    bracketedKey? (text ++ right) =
      (bracketedKey? text).map fun found => (found.1, found.2 ++ right) := by
  have within : skipBlanks text <:+ left := (List.dropWhile_suffix _).trans isSuffix
  rw [bracketedKey?, bracketedKey?, skipBlanks_append_of_kept seam.blanks]
  cases shape : skipBlanks text with
  | nil =>
    cases first : right with
    | nil => rfl
    | cons c rest =>
      have noQuote : (c == '\'' || c == '"') = false := by
        have plain := seam.plain c (by rw [first]; rfl)
        simp only [List.mem_cons, not_or] at plain
        simp [plain]
      simp [noQuote]
  | cons quote rest =>
    rw [shape] at within
    rw [List.cons_append]
    simp only
    by_cases isQuote : (quote == '\'' || quote == '"') = true
    · have isClosing : quote ∈ ['.', '[', ']', '\'', '"'] := by
        rcases Bool.or_eq_true _ _ |>.mp isQuote with single | double
        · simp [beq_iff_eq.mp single]
        · simp [beq_iff_eq.mp double]
      simp only [isQuote, if_true]
      by_cases nothing : rest = []
      · subst nothing
        have noKey : key? ([] : List Char) = none := rfl
        rw [noKey, List.nil_append]
        cases found : key? right with
        | none => rfl
        | some read => simp [seam.unclosed isQuote found]
      · rw [seam.key quote rest within (.inr nothing)]
        cases key? rest with
        | none => rfl
        | some read =>
          simp only [Option.map_some, Option.bind_eq_bind, Option.bind_some,
            seam.closing isClosing]
          cases afterPrefix? [quote] read.2 with
          | none => rfl
          | some closed =>
            have bracket : ']' ∈ ['.', '[', ']', '\'', '"'] := by decide
            simp only [Option.map_some, Option.bind_some, skipBlanks_append_of_kept seam.blanks,
              seam.closing bracket]
            cases afterPrefix? [']'] (skipBlanks closed) <;> rfl
    · simp only [isQuote]
      rfl

theorem Seam.accessorRule_append (before : Option Char) {text : List Char}
    (isSuffix : text <:+ left) (nonempty : text ≠ []) :
    accessorRule object before (text ++ right) =
      (accessorRule object before text).map fun fit => (fit.1, fit.2 ++ right) := by
  rw [accessorRule, accessorRule]
  split
  · rw [seam.beginning text isSuffix nonempty]
    cases found : afterPrefix? (object ++ ".settings".toList) text with
    | none => rfl
    | some written =>
      have within : written <:+ left := by
        rw [Text.eq_append_of_afterPrefix? found] at isSuffix
        exact (List.suffix_append _ _).trans isSuffix
      simp only [Option.map_some, Option.bind_eq_bind, Option.bind_some]
      cases written with
      | nil =>
        rw [List.nil_append]
        cases first : right with
        | nil => rfl
        | cons c rest =>
          have plain := seam.plain c (by rw [first]; rfl)
          split
          · next same => exact absurd (List.cons.inj same).1 (by rintro rfl; simp at plain)
          · next same => exact absurd (List.cons.inj same).1 (by rintro rfl; simp at plain)
          · rfl
      | cons c tail =>
        rw [List.cons_append]
        by_cases dot : c = '.'
        · subst dot
          exact seam.key '.' tail within (.inl rfl)
        · by_cases bracket : c = '['
          · subst bracket
            exact seam.bracketedKey?_append ((List.suffix_cons _ _).trans within)
          · split
            · next same => exact absurd (List.cons.inj same).1 dot
            · next same => exact absurd (List.cons.inj same).1 bracket
            · split
              · next same => exact absurd (List.cons.inj same).1 dot
              · next same => exact absurd (List.cons.inj same).1 bracket
              · rfl
  · rfl

/-- At a seam the rule keeps the two texts apart. -/
theorem Seam.keepsApart (scope : List Char) (pickers : Pickers) :
    KeepsApart (variableRule object scope pickers) left right := by
  intro before text isSuffix nonempty
  rw [variableRule, variableRule, seam.accessorRule_append before isSuffix nonempty]
  cases accessorRule object before text with
  | none => rfl
  | some fit =>
    have written : recognized (text ++ right) (fit.2 ++ right) = recognized text fit.2 := by
      rw [recognized, recognized, List.length_append, List.length_append, Nat.add_sub_add_right,
        List.take_append_of_le_length (Nat.sub_le _ _)]
    simp [written]

end Seam

/-! ## Where the rule does not look -/

/-- The rule fits at no character other than the first one of the object. -/
theorem variableRule_of_ne {first c : Char} {object scope : List Char} {pickers : Pickers}
    (other : first ≠ c) (before : Option Char) (rest : List Char) :
    variableRule (first :: object) scope pickers before (c :: rest) = none := by
  have unfit : afterPrefix? (first :: object ++ ".settings".toList) (c :: rest) = none := by
    rw [List.cons_append, afterPrefix?, if_neg other]
  rw [variableRule, accessorRule, unfit]
  split <;> rfl

/-! ## Opening braces -/

theorem afterPrefix?_brace {beginning : List Char} (free : '\x7b' ∉ beginning)
    (text rest : List Char) :
    afterPrefix? beginning (text ++ '\x7b' :: rest) =
      (afterPrefix? beginning text).map (· ++ '\x7b' :: rest) := by
  induction beginning generalizing text with
  | nil => rfl
  | cons expected more inductionHypothesis =>
    rw [List.mem_cons, not_or] at free
    cases text with
    | nil => simp [afterPrefix?, Ne.symm free.1]
    | cons c tail =>
      rw [List.cons_append, afterPrefix?, afterPrefix?, inductionHypothesis free.2]
      split <;> rfl

/-- Nothing that belongs to an accessor holds an opening brace. -/
theorem seam_brace {object : List Char} (free : '\x7b' ∉ object) (left rest : List Char) :
    Seam object left ('\x7b' :: rest) where
  blanks := rfl
  plain := by
    rintro c ⟨⟩
    decide
  beginning := by
    intro text _ _
    apply afterPrefix?_brace
    rw [List.mem_append, not_or]
    exact ⟨free, by decide⟩
  key := by
    intro c text _ _
    apply key?_append_of_run
    have stop : List.takeWhile isKeyChar ('\x7b' :: rest) = [] := rfl
    rw [List.takeWhile_append, stop, List.append_nil]
    split
    · next whole => exact (List.takeWhile_prefix _).eq_of_length whole |>.symm
    · rfl
  unquoted := by
    intro key more read
    have nothing : key? ('\x7b' :: rest) = none := rfl
    rw [nothing] at read
    contradiction

/-! ## Texts that are apart from an accessor -/

/-- Behind its last character that is no dash the text does not run on into an accessor: the character
belongs to no word, and it is no dot. -/
def EndsApart (text : List Char) : Prop :=
  ∀ c ∈ (text.reverse.dropWhile (· == '-')).head?, isWordChar c = false ∧ c ≠ '.'

theorem EndsApart.of_suffix {text more : List Char} (apart : EndsApart more)
    (isSuffix : text <:+ more) : EndsApart text := by
  obtain ⟨front, rfl⟩ := isSuffix
  intro c isLast
  apply apart c
  rw [List.reverse_append, List.dropWhile_append]
  have nonempty : ((text.reverse.dropWhile (· == '-')).isEmpty) = false := by
    cases shape : text.reverse.dropWhile (· == '-') with
    | nil => rw [shape] at isLast; contradiction
    | cons first rest => rfl
  rw [nonempty, if_neg Bool.false_ne_true, List.head?_append, Option.mem_def.mp isLast]
  rfl

/-- The last character of such a text belongs to no word and is no dot. -/
theorem EndsApart.last (front : List Char) {c : Char} (apart : EndsApart (front ++ [c])) :
    isWordChar c = false ∧ c ≠ '.' := by
  by_cases dash : c = '-'
  · subst dash
    decide
  · apply apart c
    rw [List.reverse_append, List.reverse_singleton, List.singleton_append,
      List.dropWhile_cons_of_neg (by simpa using dash)]
    rfl

theorem EndsApart.startsWord {text : List Char} (apart : EndsApart text) :
    startsWord text.getLast? = true := by
  rcases List.eq_nil_or_concat text with rfl | ⟨front, c, rfl⟩
  · rfl
  · rw [List.concat_eq_append] at apart ⊢
    simp [Text.startsWord, (EndsApart.last front apart).1]

theorem EndsApart.afterPrefix?_append {beginning text : List Char} (apart : EndsApart text)
    (nonempty : text ≠ []) (inside : ∀ c ∈ beginning, isWordChar c = true ∨ c = '.')
    (right : List Char) :
    afterPrefix? beginning (text ++ right) = (afterPrefix? beginning text).map (· ++ right) := by
  induction text generalizing beginning with
  | nil => exact absurd rfl nonempty
  | cons c rest inductionHypothesis =>
    cases beginning with
    | nil => rfl
    | cons expected more =>
      rw [List.cons_append, afterPrefix?, afterPrefix?]
      by_cases same : expected = c
      · rw [if_pos same, if_pos same]
        have longer : rest ≠ [] := by
          rintro rfl
          have last := EndsApart.last [] apart
          rcases inside expected List.mem_cons_self with word | dot
          · rw [same, last.1] at word
            contradiction
          · exact last.2 (same.symm.trans dot)
        exact inductionHypothesis (apart.of_suffix (List.suffix_cons c rest)) longer fun other member =>
          inside other (List.mem_cons_of_mem _ member)
      · rw [if_neg same, if_neg same]
        rfl

theorem isWordChar_of_isIdentifierChar {c : Char} (identifier : isIdentifierChar c = true) :
    isWordChar c = true := by
  rcases Bool.or_eq_true _ _ |>.mp identifier with alphanum | underscore
  · exact Text.isWordChar_of_isAlphanum alphanum
  · rw [beq_iff_eq.mp underscore]
    decide

theorem isKeyChar_eq_false {c : Char} (other : isWordChar c = false) (noDash : c ≠ '-') :
    isKeyChar c = false := by
  cases identifier : isIdentifierChar c with
  | false => simp [isKeyChar, identifier, noDash]
  | true =>
    rw [isWordChar_of_isIdentifierChar identifier] at other
    contradiction

theorem key?_dash (text : List Char) : key? ('-' :: text) = none := by
  have run : ('-' :: text).takeWhile isKeyChar = '-' :: text.takeWhile isKeyChar := rfl
  rw [key?, run]
  simp only [List.reverse_cons, List.dropWhile_append]
  split
  · next shape =>
    split at shape
    · simp at shape
    · rw [List.reverse_append] at shape
      obtain ⟨rfl, -⟩ := List.cons.inj shape
      rfl
  · rfl

/-- A key in such a text does not run on: it is over before the last character that is no dash. -/
theorem EndsApart.key?_append {text : List Char} (apart : EndsApart text) (nonempty : text ≠ [])
    (right : List Char) :
    key? (text ++ right) = (key? text).map fun found => (found.1, found.2 ++ right) := by
  cases shape : text.reverse.dropWhile (· == '-') with
  | nil =>
    have dashes : ∀ c ∈ text.reverse, (c == '-') = true := List.dropWhile_eq_nil_iff.mp shape
    obtain ⟨first, rest, rfl⟩ := List.exists_cons_of_ne_nil nonempty
    obtain rfl : first = '-' := beq_iff_eq.mp (dashes first (by simp))
    rw [List.cons_append, key?_dash, key?_dash]
    rfl
  | cons c front =>
    have noDash : c ≠ '-' := by
      have head := List.head?_dropWhile_not (· == '-') text.reverse
      rw [shape] at head
      simpa using head
    have member : c ∈ text := by
      apply List.mem_reverse.mp
      apply (List.dropWhile_sublist (· == '-')).subset
      rw [shape]
      exact List.mem_cons_self
    have stop := isKeyChar_eq_false (apart c (by rw [shape]; rfl)).1 noDash
    apply key?_append_of_run
    rw [List.takeWhile_append]
    split
    · next whole =>
      have all := (List.takeWhile_prefix isKeyChar).eq_of_length whole
      have keyChar := List.takeWhile_eq_self_iff.mp all c member
      rw [stop] at keyChar
      contradiction
    · rfl

/-- A key at an object reaches to the dot behind it at most, and so to no quote. -/
theorem unquoted_of_key?_object {object rest key tail : List Char}
    (inside : ∀ c ∈ object, isWordChar c = true) (found : key? (object ++ '.' :: rest) = some (key, tail)) :
    ∀ c ∈ tail.head?, c ≠ '\'' ∧ c ≠ '"' := by
  intro c isHead
  obtain ⟨count, within, rfl⟩ := exists_drop_of_key? found
  have run : ((object ++ '.' :: rest).takeWhile isKeyChar).length ≤ object.length := by
    have stop : List.takeWhile isKeyChar ('.' :: rest) = [] := rfl
    rw [List.takeWhile_append, stop, List.append_nil]
    split
    · exact Nat.le_refl _
    · exact (List.takeWhile_sublist isKeyChar).length_le
  rw [List.drop_append_of_le_length (Nat.le_trans within run), List.head?_append] at isHead
  have quotes : isWordChar '\'' = false ∧ isWordChar '"' = false := by decide
  cases remaining : (object.drop count).head? with
  | none =>
    rw [remaining] at isHead
    obtain rfl : '.' = c := Option.some.inj isHead
    decide
  | some first =>
    rw [remaining] at isHead
    obtain rfl : first = c := Option.some.inj isHead
    have inObject := inside first (List.mem_of_mem_drop (List.mem_of_head? remaining))
    constructor
    · rintro rfl
      simp [quotes] at inObject
    · rintro rfl
      simp [quotes] at inObject

/-- After a text that is apart from it, an accessor is read on its own. -/
theorem seam_of_endsApart {object left : List Char} (apart : EndsApart left) (named : object ≠ [])
    (word : object.all isWordChar = true) (rest : List Char) :
    Seam object left (object ++ '.' :: rest) := by
  have inside : ∀ c ∈ object, isWordChar c = true := List.all_eq_true.mp word
  obtain ⟨first, more, shape⟩ := List.exists_cons_of_ne_nil named
  have isWord : isWordChar first = true := inside first (by rw [shape]; exact List.mem_cons_self)
  have noWord : ['.', '[', ']', '\'', '"'].all (fun c => !isWordChar c) = true := by decide
  constructor
  · have notBlank : ¬ isBlank first = true := by
      intro blank
      rw [Text.not_isWordChar_of_isBlank blank] at isWord
      contradiction
    rw [shape, skipBlanks, List.cons_append, List.dropWhile_cons, if_neg notBlank]
  · intro c isHead closes
    rw [shape] at isHead
    obtain rfl : first = c := Option.some.inj isHead
    have other := List.all_eq_true.mp noWord first closes
    rw [isWord] at other
    contradiction
  · intro text isSuffix nonempty
    apply (apart.of_suffix isSuffix).afterPrefix?_append nonempty
    intro c member
    rcases List.mem_append.mp member with inObject | inSettings
    · exact .inl (inside c inObject)
    · have settings : ".settings".toList.all (fun c => isWordChar c || c == '.') = true := by
        decide
      have inClass := List.all_eq_true.mp settings c inSettings
      rw [Bool.or_eq_true, beq_iff_eq] at inClass
      exact inClass
  · intro c text isSuffix between
    have own := apart.of_suffix isSuffix
    have nonempty : text ≠ [] := by
      rintro rfl
      rcases between with dot | longer
      · exact (EndsApart.last [] own).2 dot
      · exact longer rfl
    exact (own.of_suffix (List.suffix_cons c text)).key?_append nonempty _
  · intro key tail found
    exact unquoted_of_key?_object inside found

/-! ## Replaced accessors -/

/-- An accessor after a text that is apart from it gives way to what its key stands for. The text in
front of it is replaced on its own. -/
theorem replaceAll_variableRule_accessor {object scope key variableName before after : List Char}
    {pickers : Pickers} (form : KeyForm) (named : object ≠ []) (word : object.all isWordChar = true)
    (apart : EndsApart before) (grammar : IsKey key) (ends : form.endsBefore after)
    (stands : pickers.flatName? scope key = some variableName) :
    let rule := variableRule object scope pickers
    replaceAll rule (before ++ accessorText object form key ++ after) =
      replaceAll rule before ++ variableName ++
        replaceFrom rule (accessorText object form key).getLast? 0 after := by
  intro rule
  have parts : accessorText object form key ++ after =
      object ++ '.' :: ("settings".toList ++ form.text key ++ after) := by
    simp [accessorText]
  have seam := seam_of_endsApart apart named word ("settings".toList ++ form.text key ++ after)
  have fits := variableRule_of_accessorRule
    (accessorRule_append object form apart.startsWord grammar ends) stands
  obtain ⟨first, more, rfl⟩ := List.exists_cons_of_ne_nil named
  have shape : accessorText (first :: more) form key =
      first :: (more ++ ".settings".toList ++ form.text key) := rfl
  rw [List.append_assoc, parts, (seam.keepsApart scope pickers).replaceAll_append, ← parts]
  rw [shape] at fits ⊢
  rw [Text.replaceFrom_of_fit fits, List.append_assoc (replaceAll rule before)]

/-! ## Output tags -/

/-- The opening of an output tag, up to its expression: braces, dashes and blanks. -/
def IsOutputOpening (opening : List Char) : Prop :=
  ∃ gap, opening = '\x7b' :: '\x7b' :: gap ∧ gap.all (fun c => isBlank c || c == '-') = true

theorem not_isWordChar_of_gap {c : Char} (gap : (isBlank c || c == '-') = true) :
    isWordChar c = false := by
  rcases Bool.or_eq_true _ _ |>.mp gap with blank | dash
  · exact Text.not_isWordChar_of_isBlank blank
  · rw [beq_iff_eq.mp dash]
    decide

theorem IsOutputOpening.endsApart {opening : List Char} (isOpening : IsOutputOpening opening)
    (before : List Char) : EndsApart (before ++ opening) := by
  obtain ⟨gap, rfl, gapChars⟩ := isOpening
  intro c isLast
  have parts : (before ++ '\x7b' :: '\x7b' :: gap).reverse =
      gap.reverse ++ '\x7b' :: '\x7b' :: before.reverse := by simp
  rw [parts, List.dropWhile_append] at isLast
  split at isLast
  · obtain rfl : '\x7b' = c := Option.some.inj isLast
    decide
  · next nonempty =>
    obtain ⟨first, rest, shape⟩ := List.exists_cons_of_ne_nil fun empty =>
      nonempty (List.isEmpty_iff.mpr empty)
    rw [shape] at isLast
    obtain rfl : first = c := Option.some.inj isLast
    have member : first ∈ gap := by
      apply List.mem_reverse.mp
      apply (List.dropWhile_sublist (· == '-')).subset
      rw [shape]
      exact List.mem_cons_self
    have inGap := List.all_eq_true.mp gapChars first member
    refine ⟨not_isWordChar_of_gap inGap, ?_⟩
    rintro rfl
    exact absurd inGap (by decide)

/-- In an output tag anywhere in a template, an accessor whose key picks no resource gives way to its
variable. All else is replaced as if the tag were not there. -/
theorem replaceAll_variableRule_outputTag {first : Char} {object key name opening after : List Char}
    {pickers : Pickers} (scope : List Char) (form : KeyForm) (before : List Char)
    (word : (first :: object).all isWordChar = true) (isOpening : IsOutputOpening opening)
    (grammar : IsKey key) (ends : form.endsBefore after)
    (separate : ∀ c ∈ after.head?, isWordChar c = false)
    (free : pickers.target? (String.ofList key) = none) (made : identifier? key = some name) :
    let rule := variableRule (first :: object) scope pickers
    replaceAll rule (before ++ opening ++ accessorText (first :: object) form key ++ after) =
      replaceAll rule before ++ opening ++ scopedName scope name ++ replaceAll rule after := by
  intro rule
  have inside : ∀ c ∈ first :: object, isWordChar c = true := List.all_eq_true.mp word
  have unfit (c : Char) (other : isWordChar c = false) (before : Option Char) (tail : List Char) :
      rule before (c :: tail) = none := by
    refine variableRule_of_ne ?_ before tail
    rintro rfl
    rw [inside first List.mem_cons_self] at other
    contradiction
  have noBrace : '\x7b' ∉ first :: object := fun member => absurd (inside _ member) (by decide)
  have accessor := replaceAll_variableRule_accessor form (List.cons_ne_nil first object) word
    (isOpening.endsApart before) grammar ends (Pickers.flatName?_of_free scope free made)
  obtain ⟨gap, rfl, gapChars⟩ := isOpening
  -- nothing in the opening fits the rule
  have openingKept : replaceAll rule (before ++ '\x7b' :: '\x7b' :: gap) =
      replaceAll rule before ++ '\x7b' :: '\x7b' :: gap := by
    have openingUnfit : ∀ c ∈ '\x7b' :: '\x7b' :: gap, ∀ before tail,
        rule before (c :: tail) = none := by
      intro c member
      apply unfit c
      rcases List.mem_cons.mp member with rfl | member
      · decide
      · rcases List.mem_cons.mp member with rfl | inGap
        · decide
        · exact not_isWordChar_of_gap (List.all_eq_true.mp gapChars c inGap)
    have apart := (seam_brace noBrace before ('\x7b' :: gap)).keepsApart scope pickers
    have kept := Text.replaceFrom_of_unfit before.getLast? [] openingUnfit
    rw [List.append_nil] at kept
    rw [apart.replaceAll_append, kept]
    exact congrArg _ (List.append_nil _)
  have afterOnItsOwn : replaceFrom rule (accessorText (first :: object) form key).getLast? 0 after =
      replaceAll rule after :=
    Text.replaceFrom_of_unfit_head _ none fun c isHead => unfit c (separate c isHead)
  rw [accessor, openingKept, afterOnItsOwn]

end FlatLiquid
