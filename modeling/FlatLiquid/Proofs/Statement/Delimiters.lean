import FlatLiquid.Proofs.Statement.Scopes

/-!
Contract: which delimiters stand in the text of a statement.

Owns:
- the places of all delimiters of a text, overlapping ones included, and how they add up when texts
  are joined;
- texts without a delimiter: names, numbers, handles, quoted texts, captured texts once split;
- the delimiters that a statement's own tags bring in, against those that its text holds.

Main statement: `delimiters_render_iff`. The text of a produced statement holds the delimiters of its
own tags and no others, unless a captured text touches one of its tags with a brace.
-/

namespace FlatLiquid

/-- A delimiter in a text, with the number of characters before it. -/
structure DelimiterPlace where
  place : Nat
  first : Char
  second : Char
deriving DecidableEq, Repr

/-- The delimiters of a text that starts at a place. Delimiters that share a character both count. -/
def delimitersFrom (start : Nat) : List Char → List DelimiterPlace
  | first :: second :: rest =>
    if isDelimiter first second then
      ⟨start, first, second⟩ :: delimitersFrom (start + 1) (second :: rest)
    else delimitersFrom (start + 1) (second :: rest)
  | _ => []

/-- The delimiters of a text. -/
def delimiters (text : List Char) : List DelimiterPlace :=
  delimitersFrom 0 text

/-- The delimiter that arises between two texts when they are joined, if one does. -/
def seam (start : Nat) (left right : List Char) : List DelimiterPlace :=
  match left.getLast?, right.head? with
  | some first, some second =>
    if isDelimiter first second then [⟨start + left.length - 1, first, second⟩] else []
  | _, _ => []

/-- The delimiters of two joined texts are those of each, and the one between them. -/
theorem delimitersFrom_append (start : Nat) (left right : List Char) :
    delimitersFrom start (left ++ right) =
      delimitersFrom start left ++ seam start left right ++
        delimitersFrom (start + left.length) right := by
  induction left generalizing start with
  | nil => simp [delimitersFrom, seam]
  | cons first rest inductionHypothesis =>
    cases rest with
    | nil =>
      cases right with
      | nil => simp [delimitersFrom, seam]
      | cons second tail =>
        simp only [List.cons_append, List.nil_append, delimitersFrom, seam, List.getLast?_singleton,
          List.head?_cons, List.length_cons, List.length_nil]
        split <;> simp
    | cons second tail =>
      have shifted := inductionHypothesis (start + 1)
      have sameSeam : seam (start + 1) (second :: tail) right =
          seam start (first :: second :: tail) right := by
        simp only [seam, List.getLast?_cons_cons, List.length_cons]
        have places : start + 1 + (tail.length + 1) - 1 = start + (tail.length + 1 + 1) - 1 := by
          omega
        rw [places]
      have sameEnd : start + 1 + (second :: tail).length = start + (first :: second :: tail).length := by
        simp only [List.length_cons]
        omega
      rw [sameSeam, sameEnd] at shifted
      simp only [List.cons_append, delimitersFrom] at shifted ⊢
      split <;> simp [shifted]

/-! ## Texts without a delimiter -/

/-- A character that no delimiter has in it. -/
def isInert (c : Char) : Bool :=
  c != '\x7b' && c != '%' && c != '\x7d'

/-- Both characters of a delimiter are other than inert. -/
theorem not_inert_of_isDelimiter {first second : Char} (delimiter : isDelimiter first second = true) :
    isInert first = false ∧ isInert second = false := by
  simp only [isDelimiter, Bool.or_eq_true, Bool.and_eq_true, beq_iff_eq] at delimiter
  rcases delimiter with ⟨rfl, rfl | rfl⟩ | ⟨rfl | rfl, rfl⟩ <;> decide

theorem seam_of_inert_left {left right : List Char} (start : Nat)
    (inert : left.getLast?.all isInert = true) : seam start left right = [] := by
  unfold seam
  split
  · next first second isLast isFirst =>
    rw [isLast, Option.all_some] at inert
    refine if_neg fun delimiter => ?_
    rw [(not_inert_of_isDelimiter delimiter).1] at inert
    contradiction
  · rfl

theorem seam_of_inert_right {left right : List Char} (start : Nat)
    (inert : right.head?.all isInert = true) : seam start left right = [] := by
  unfold seam
  split
  · next first second isLast isFirst =>
    rw [isFirst, Option.all_some] at inert
    refine if_neg fun delimiter => ?_
    rw [(not_inert_of_isDelimiter delimiter).2] at inert
    contradiction
  · rfl

/-- A text of inert characters holds no delimiter. -/
theorem delimitersFrom_of_inert (start : Nat) {text : List Char} (inert : text.all isInert = true) :
    delimitersFrom start text = [] := by
  induction text generalizing start with
  | nil => rfl
  | cons first rest inductionHypothesis =>
    rw [List.all_cons, Bool.and_eq_true] at inert
    cases rest with
    | nil => rfl
    | cons second tail =>
      rw [delimitersFrom, if_neg, inductionHypothesis (start + 1) inert.2]
      intro delimiter
      rw [(not_inert_of_isDelimiter delimiter).1] at inert
      exact Bool.false_ne_true inert.1

/-- The test for a delimiter finds none exactly if there is none. -/
theorem delimitersFrom_eq_nil_iff (start : Nat) {text : List Char} :
    delimitersFrom start text = [] ↔ hasDelimiter text = false := by
  induction text generalizing start with
  | nil => exact iff_of_true rfl rfl
  | cons first rest inductionHypothesis =>
    cases rest with
    | nil => exact iff_of_true rfl rfl
    | cons second tail =>
      rw [delimitersFrom, hasDelimiter, Bool.or_eq_false_iff]
      split
      · next delimiter => simp [delimiter]
      · next other => simp [other, inductionHypothesis (start + 1)]

/-- A space before a text without delimiters makes none. -/
theorem delimitersFrom_cons_of_inert (start : Nat) {c : Char} {text : List Char}
    (inert : isInert c = true) : delimitersFrom start (c :: text) = delimitersFrom (start + 1) text := by
  cases text with
  | nil => rfl
  | cons second tail =>
    rw [delimitersFrom, if_neg]
    intro delimiter
    rw [(not_inert_of_isDelimiter delimiter).1] at inert
    contradiction

/-- Splitting keeps the first character. -/
theorem splitDelimiters_cons (first : Char) (rest : List Char) :
    ∃ tail, splitDelimiters (first :: rest) = first :: tail := by
  cases rest with
  | nil => exact ⟨[], rfl⟩
  | cons second tail =>
    rw [splitDelimiters]
    split
    · exact ⟨_, rfl⟩
    · exact ⟨_, rfl⟩

theorem head?_splitDelimiters (text : List Char) : (splitDelimiters text).head? = text.head? := by
  cases text with
  | nil => rfl
  | cons first rest =>
    obtain ⟨tail, shape⟩ := splitDelimiters_cons first rest
    rw [shape]
    rfl

/-- Splitting keeps the last character. -/
theorem getLast?_splitDelimiters (text : List Char) :
    (splitDelimiters text).getLast? = text.getLast? := by
  fun_induction splitDelimiters text with
  | case1 first second rest delimiter inductionHypothesis =>
    obtain ⟨tail, shape⟩ := splitDelimiters_cons second rest
    rw [shape] at inductionHypothesis ⊢
    rw [List.getLast?_cons_cons, List.getLast?_cons_cons, inductionHypothesis,
      List.getLast?_cons_cons]
  | case2 first second rest other inductionHypothesis =>
    obtain ⟨tail, shape⟩ := splitDelimiters_cons second rest
    rw [shape] at inductionHypothesis ⊢
    rw [List.getLast?_cons_cons, inductionHypothesis, List.getLast?_cons_cons]
  | case3 short tooShort => rfl

/-- Splitting leaves no delimiter. -/
theorem delimitersFrom_splitDelimiters (start : Nat) (text : List Char) :
    delimitersFrom start (splitDelimiters text) = [] := by
  fun_induction splitDelimiters text generalizing start with
  | case1 first second rest delimiter inductionHypothesis =>
    have blank : isInert ' ' = true := by decide
    rw [delimitersFrom, if_neg, delimitersFrom_cons_of_inert _ blank, inductionHypothesis]
    intro spaced
    rw [(not_inert_of_isDelimiter spaced).2] at blank
    contradiction
  | case2 first second rest other inductionHypothesis =>
    obtain ⟨tail, shape⟩ := splitDelimiters_cons second rest
    have after := inductionHypothesis (start + 1)
    rw [shape] at after ⊢
    rw [delimitersFrom, if_neg other, after]
  | case3 short tooShort =>
    match short with
    | [] => rfl
    | [_] => rfl
    | first :: second :: rest => exact absurd rfl (tooShort first second rest)

/-! ## Names, numbers and handles -/

theorem isInert_of_isAlphanum {c : Char} (alphanum : c.isAlphanum = true) : isInert c = true := by
  unfold isInert
  refine Bool.and_eq_true_iff.mpr ⟨Bool.and_eq_true_iff.mpr ⟨?_, ?_⟩, ?_⟩ <;>
  · rw [bne_iff_ne]
    rintro rfl
    exact absurd alphanum (by decide)

theorem isInert_of_isIdentifierChar {c : Char} (identifier : isIdentifierChar c = true) :
    isInert c = true := by
  rw [isIdentifierChar, Bool.or_eq_true] at identifier
  rcases identifier with alphanum | underscore
  · exact isInert_of_isAlphanum alphanum
  · rw [beq_iff_eq.mp underscore]
    decide

theorem isInert_of_isDigit {c : Char} (digit : c.isDigit = true) : isInert c = true := by
  refine isInert_of_isAlphanum ?_
  rw [Char.isAlphanum, digit, Bool.or_true]

/-- The digits of a natural number hold no delimiter. -/
theorem inert_toDigits (value : Nat) : (Nat.toDigits 10 value).all isInert = true := by
  refine List.all_eq_true.mpr fun c member => isInert_of_isDigit ?_
  exact Nat.isDigit_of_mem_toDigits (by decide) (by decide) member

theorem inert_positional (format : Decimal.NumberFormat) (decimal : Decimal.Decadic) :
    (format.positional decimal).all isInert = true := by
  have digits : decimal.digits.all isInert = true := inert_toDigits decimal.coefficient
  have zeros (count : Nat) : (List.replicate count '0').all isInert = true := by
    refine List.all_eq_true.mpr fun c member => ?_
    rw [List.eq_of_mem_replicate member]
    decide
  unfold Decimal.NumberFormat.positional
  split
  · rw [List.all_append, List.all_append, digits, zeros, Bool.true_and, Bool.true_and]
    split <;> decide
  · have padded (width : Nat) :
        (List.replicate width '0' ++ decimal.digits).all isInert = true := by
      rw [List.all_append, digits, zeros, Bool.true_and]
    have part {text piece : List Char} (all : text.all isInert = true) (sub : piece ⊆ text) :
        piece.all isInert = true :=
      List.all_eq_true.mpr fun c member => List.all_eq_true.mp all c (sub member)
    simp only [List.all_append, List.all_cons, Bool.and_eq_true]
    exact ⟨part (padded _) (List.take_subset _ _), by decide, part (padded _) (List.drop_subset _ _)⟩

/-- The text of a number in a template holds no delimiter. -/
theorem inert_numberText (value : Float) : (numberText value).toList.all isInert = true := by
  unfold numberText
  split
  · next whole _ =>
    rw [Int.toString_eq_repr, Int.repr_eq_if]
    split
    · simp [inert_toDigits]
    · simp [inert_toDigits, isInert]
  · unfold Decimal.NumberFormat.text
    split
    · split
      · decide
      · split <;> decide
    · have plain (decimal : Decimal.Decadic) :
          Decimal.NumberFormat.plain.isPositional decimal.magnitude = true := rfl
      simp only [plain, if_true, String.toList_ofList]
      split
      · rw [List.all_cons, inert_positional, Bool.and_true]
        decide
      · exact inert_positional _ _

/-! ## Statements that are free of foreign delimiters -/

/-- The names, the handles and the quoted texts of a statement hold no delimiter. Nothing is asked of
a captured text. -/
def Statement.IsInert : Statement → Prop
  | .assign name value => name.all FlatLiquid.isInert = true ∧
      ∀ quote text, value = .quoted quote text → hasDelimiter text = false
  | .capture name _ => name.all FlatLiquid.isInert = true
  | .lookup name collection handle => name.all FlatLiquid.isInert = true ∧
      collection.all FlatLiquid.isInert = true ∧ handle.all FlatLiquid.isInert = true

/-- The delimiters of a statement's own tags, in the text of the statement: one tag for an assignment
and a lookup, two for a capture. -/
def Statement.ownDelimiters (statement : Statement) : List DelimiterPlace :=
  let size := statement.render.length
  match statement with
  | .capture name body =>
    let opening := (tagText ("capture ".toList ++ name)).length
    let closing := opening + (splitDelimiters body).length
    [⟨0, '\x7b', '%'⟩, ⟨opening - 2, '%', '\x7d'⟩, ⟨closing, '\x7b', '%'⟩, ⟨size - 2, '%', '\x7d'⟩]
  | _ => [⟨0, '\x7b', '%'⟩, ⟨size - 2, '%', '\x7d'⟩]

/-- A captured text that touches one of its two tags with a brace. -/
def Statement.touchesTag : Statement → Bool
  | .capture _ body => body.head? == some '\x7d' || body.getLast? == some '\x7b'
  | _ => false

theorem length_tagText (markup : List Char) : (tagText markup).length = markup.length + 6 := by
  simp [tagText]

theorem head?_tagText (markup : List Char) : (tagText markup).head? = some '\x7b' := rfl

theorem getLast?_tagText (markup : List Char) : (tagText markup).getLast? = some '\x7d' := by
  simp [tagText, List.getLast?_cons, List.getLast?_append]

/-- A tag around markup without delimiters holds its own two. -/
theorem delimitersFrom_tagText (start : Nat) {markup : List Char}
    (free : delimitersFrom (start + 3) markup = []) :
    delimitersFrom start (tagText markup) =
      [⟨start, '\x7b', '%'⟩, ⟨start + markup.length + 4, '%', '\x7d'⟩] := by
  have blank : isInert ' ' = true := by decide
  have opening : tagText markup = ['\x7b', '%', ' '] ++ (markup ++ [' ', '%', '\x7d']) := rfl
  have ending : seam (start + 3) markup [' ', '%', '\x7d'] = [] := seam_of_inert_right _ rfl
  rw [opening, delimitersFrom_append, seam_of_inert_left _ rfl, List.length_cons, List.length_cons,
    List.length_cons, List.length_nil, delimitersFrom_append, free, ending,
    delimitersFrom_cons_of_inert _ blank]
  simp [delimitersFrom, isDelimiter]
  omega

/-- An assignment of a right-hand side without delimiters holds those of its one tag. -/
theorem delimiters_assignText {name right : List Char} (inert : name.all isInert = true)
    (free : ∀ start, delimitersFrom start right = []) :
    delimiters (assignText name right) =
      [⟨0, '\x7b', '%'⟩, ⟨(assignText name right).length - 2, '%', '\x7d'⟩] := by
  have left : ("assign ".toList ++ name ++ " = ".toList).all isInert = true := by
    rw [List.all_append, List.all_append, inert]
    decide
  have markup (start : Nat) :
      delimitersFrom start ("assign ".toList ++ name ++ " = ".toList ++ right) = [] := by
    have joined : seam start ("assign ".toList ++ name ++ " = ".toList) right = [] := by
      refine seam_of_inert_left _ ?_
      simp only [List.getLast?_append]
      rfl
    rw [delimitersFrom_append, delimitersFrom_of_inert _ left, joined, free]
    rfl
  have size : (assignText name right).length - 2 =
      0 + ("assign ".toList ++ name ++ " = ".toList ++ right).length + 4 := by
    rw [assignText, length_tagText]
    omega
  rw [size]
  exact delimitersFrom_tagText 0 (markup _)

/-- The text of a literal holds no delimiter, if its quoted text holds none. -/
theorem delimitersFrom_literal (start : Nat) {value : Literal}
    (free : ∀ quote text, value = .quoted quote text → hasDelimiter text = false) :
    delimitersFrom start value.render = [] := by
  cases value with
  | nil => rfl
  | bool truth => cases truth <;> rfl
  | number value => exact delimitersFrom_of_inert _ (inert_numberText value)
  | count value => exact delimitersFrom_of_inert _ (inert_toDigits value)
  | quoted quote text =>
    have mark : isInert quote.char = true := by cases quote <;> decide
    have ending : seam (start + 1) text [quote.char] = [] := seam_of_inert_right _ (by simpa using mark)
    rw [Literal.render, List.cons_append, delimitersFrom_cons_of_inert _ mark, delimitersFrom_append,
      (delimitersFrom_eq_nil_iff _).mpr (free quote text rfl), ending]
    rfl

/-- After a closing brace a delimiter arises exactly before another one. -/
theorem seam_of_closing_left {left right : List Char} (start : Nat)
    (ends : left.getLast? = some '\x7d') :
    seam start left right =
      if right.head? = some '\x7d' then [⟨start + left.length - 1, '\x7d', '\x7d'⟩] else [] := by
  unfold seam
  rw [ends]
  cases right with
  | nil => rfl
  | cons second tail =>
    by_cases closing : second = '\x7d'
    · subst closing
      rfl
    · have other : isDelimiter '\x7d' second = false := by
        simp [isDelimiter, closing]
      simp [other, closing]

/-- Before an opening brace a delimiter arises exactly after another one. -/
theorem seam_of_opening_right {left right : List Char} (start : Nat)
    (begins : right.head? = some '\x7b') :
    seam start left right =
      if left.getLast? = some '\x7b' then [⟨start + left.length - 1, '\x7b', '\x7b'⟩] else [] := by
  unfold seam
  rw [begins]
  cases left.getLast? with
  | none => rfl
  | some first =>
    by_cases opening : first = '\x7b'
    · subst opening
      rfl
    · have other : isDelimiter first '\x7b' = false := by
        simp [isDelimiter, opening]
      simp [other, opening]

/-- The delimiters of a capture: those of its two tags, and one at each tag that the text touches
with a brace. -/
theorem delimiters_capture {name : List Char} (body : List Char) (inert : name.all isInert = true) :
    let opening := (tagText ("capture ".toList ++ name)).length
    let closing := opening + (splitDelimiters body).length
    delimiters (Statement.capture name body).render =
      [⟨0, '\x7b', '%'⟩, ⟨opening - 2, '%', '\x7d'⟩] ++
        (if body.head? = some '\x7d' then [⟨opening - 1, '\x7d', '\x7d'⟩] else []) ++
        (if body.getLast? = some '\x7b' then [⟨closing - 1, '\x7b', '\x7b'⟩] else []) ++
        [⟨closing, '\x7b', '%'⟩, ⟨(Statement.capture name body).render.length - 2, '%', '\x7d'⟩] := by
  intro opening closing
  have markup : ("capture ".toList ++ name).all isInert = true := by
    rw [List.all_append, inert]
    decide
  have openingTag := delimitersFrom_tagText 0 (delimitersFrom_of_inert _ markup)
  have word : "endcapture".toList.all isInert = true := by decide
  have closingTag := delimitersFrom_tagText closing (delimitersFrom_of_inert _ word)
  have lastOfLeft : (tagText ("capture ".toList ++ name) ++ splitDelimiters body).getLast? =
      some '\x7b' ↔ body.getLast? = some '\x7b' := by
    rw [List.getLast?_append, getLast?_tagText, getLast?_splitDelimiters]
    cases body.getLast? <;> simp
  have size : (Statement.capture name body).render.length - 2 =
      closing + "endcapture".toList.length + 4 := by
    simp only [Statement.render, List.length_append, length_tagText, opening, closing]
    omega
  have openingEnd : 0 + ("capture ".toList ++ name).length + 4 = opening - 2 := by
    simp only [opening, length_tagText]
    omega
  have leftSize : 0 + (tagText ("capture ".toList ++ name) ++ splitDelimiters body).length =
      closing := by
    rw [Nat.zero_add, List.length_append]
  rw [size, delimiters, Statement.render, delimitersFrom_append, delimitersFrom_append, openingTag,
    openingEnd, seam_of_closing_left _ (getLast?_tagText _), head?_splitDelimiters,
    delimitersFrom_splitDelimiters, seam_of_opening_right _ (head?_tagText _), leftSize, closingTag]
  simp only [lastOfLeft, List.append_nil, Nat.zero_add, opening]

/-- The delimiters of a statement are its own exactly if no captured text touches a tag. -/
theorem Statement.delimiters_eq_own_iff {statement : Statement} (inert : statement.IsInert) :
    delimiters statement.render = statement.ownDelimiters ↔ statement.touchesTag = false := by
  cases statement with
  | assign name value =>
    have own := delimiters_assignText inert.1 fun start => delimitersFrom_literal start inert.2
    exact iff_of_true own rfl
  | lookup name collection handle =>
    have right : (collection ++ "['".toList ++ handle ++ "']".toList).all FlatLiquid.isInert = true := by
      rw [List.all_append, List.all_append, List.all_append, inert.2.1, inert.2.2]
      decide
    have own := delimiters_assignText inert.1 fun start => delimitersFrom_of_inert start right
    exact iff_of_true own rfl
  | capture name body =>
    rw [delimiters_capture body inert, ownDelimiters, touchesTag, Bool.or_eq_false_iff,
      beq_eq_false_iff_ne, beq_eq_false_iff_ne]
    by_cases atOpening : body.head? = some '\x7d' <;>
      by_cases atClosing : body.getLast? = some '\x7b' <;>
        simp [atOpening, atClosing]

/-! ## Produced statements -/

/-- The identifier of a key holds no delimiter, and neither does a name made of it. -/
theorem inert_scopedName {scope name key : List Char} (scopeInert : scope.all isInert = true)
    (made : identifier? key = some name) : (scopedName scope name).all isInert = true := by
  rw [scopedName, List.all_append, scopeInert, List.all_cons, Bool.true_and, Bool.and_eq_true]
  refine ⟨by decide, List.all_eq_true.mpr fun c member => ?_⟩
  exact isInert_of_isIdentifierChar (isIdentifierChar_of_mem made member)

theorem inert_blockScope (index : Nat) : (blockScope index).all isInert = true := by
  rw [blockScope_eq, List.all_append, inert_toDigits]
  decide

theorem inert_of_isHandle {handle : List Char} (valid : isHandle handle = true) :
    handle.all isInert = true := by
  simp only [isHandle, Bool.and_eq_true] at valid
  refine List.all_eq_true.mpr fun c member => ?_
  have allowed := List.all_eq_true.mp valid.2 c member
  rw [Bool.or_eq_true] at allowed
  rcases allowed with alphanum | dash
  · exact isInert_of_isAlphanum alphanum
  · rw [beq_iff_eq.mp dash]
    decide

/-- A text that goes between quotes holds no delimiter. -/
theorem hasDelimiter_of_quoted {text : List Char} {quote : Quote}
    (style : TextStyle.ofText text = .quoted quote) : hasDelimiter text = false := by
  cases holds : hasDelimiter text with
  | false => rfl
  | true =>
    rw [TextStyle.ofText, if_pos holds] at style
    contradiction

theorem isInert_ofText {name : List Char} (text : List Char) (inert : name.all isInert = true) :
    (Statement.ofText name text).IsInert := by
  unfold Statement.ofText
  split
  · exact ⟨inert, fun quote text same => by contradiction⟩
  · split
    · next quote style =>
      refine ⟨inert, fun other written same => ?_⟩
      obtain ⟨rfl, rfl⟩ := Literal.quoted.inj same
      exact hasDelimiter_of_quoted style
    · exact inert

theorem isInert_ofValue? {name : List Char} {value : SettingValue} {statement : Statement}
    (inert : name.all isInert = true) (made : Statement.ofValue? name value = some statement) :
    statement.IsInert := by
  cases value with
  | nil =>
    obtain rfl := Option.some.inj made
    exact ⟨inert, fun quote text same => by contradiction⟩
  | bool truth =>
    obtain rfl := Option.some.inj made
    exact ⟨inert, fun quote text same => by contradiction⟩
  | number value =>
    obtain rfl := Option.some.inj made
    refine ⟨inert, fun quote text same => ?_⟩
    split at same <;> contradiction
  | string text =>
    obtain rfl := Option.some.inj made
    exact isInert_ofText text.toList inert
  | unsupported value => contradiction

/-- Every statement is inert. -/
def Bindings.IsInert (bindings : Bindings) : Prop :=
  ∀ statement ∈ bindings.statements, statement.IsInert

theorem Bindings.IsInert.append {first second : Bindings} (left : first.IsInert)
    (right : second.IsInert) : (first ++ second).IsInert := by
  intro statement member
  rcases List.mem_append.mp member with inFirst | inSecond
  · exact left statement inFirst
  · exact right statement inSecond

theorem isInert_empty : Bindings.empty.IsInert := by
  intro statement member
  exact absurd member List.not_mem_nil

/-- One setting binds by an inert statement. -/
theorem isInert_settingBinding {scope : List Char} (scopeInert : scope.all isInert = true)
    (entry : String × SettingValue) : (settingBinding scope entry).IsInert := by
  intro statement member
  unfold settingBinding at member
  split at member
  · exact absurd member List.not_mem_nil
  · next name made =>
    exact isInert_ofValue? (inert_scopedName scopeInert made) (Option.mem_toList.mp member)

theorem isInert_scopedBindings {scope : List Char} (scopeInert : scope.all isInert = true)
    (settings : SettingValues) : (scopedBindings scope settings).IsInert := by
  unfold scopedBindings
  induction settings.entries with
  | nil => exact isInert_empty
  | cons entry rest inductionHypothesis =>
    exact (isInert_settingBinding scopeInert entry).append inductionHypothesis

theorem isInert_blockBinding (index : Nat) (block : BlockInstance) :
    (blockBinding index block).IsInert := by
  have scopeInert := inert_blockScope index
  refine Bindings.IsInert.append ?_ (isInert_scopedBindings scopeInert block.settings)
  have named (field : List Char) (fieldInert : field.all isInert = true) :
      (scopedName (blockScope index) field).all isInert = true := by
    rw [scopedName, List.all_append, scopeInert, List.all_cons, fieldInert]
    decide
  intro statement member
  rcases List.mem_cons.mp member with rfl | member
  · exact isInert_ofText _ (named _ (by decide))
  · rw [List.mem_singleton.mp member]
    exact isInert_ofText _ (named _ (by decide))

theorem isInert_blockBindingsFrom (index : Nat) (blocks : List BlockInstance) :
    (blockBindingsFrom index blocks).IsInert := by
  induction blocks generalizing index with
  | nil => exact isInert_empty
  | cons block rest inductionHypothesis =>
    exact (isInert_blockBinding index block).append (inductionHypothesis (index + 1))

theorem isInert_blockBindings (blocks : List BlockInstance) : (blockBindings blocks).IsInert := by
  refine (isInert_blockBindingsFrom 0 blocks).append ?_
  intro statement member
  rw [List.mem_singleton.mp member]
  exact ⟨by decide, fun quote text same => by contradiction⟩

theorem isInert_resourceBinding (resource : Resource) {collection : String} (handle : Option String)
    (collectionInert : collection.toList.all isInert = true) :
    (resourceBinding resource collection handle).IsInert := by
  unfold resourceBinding
  split
  · exact isInert_empty
  · next handle =>
    split
    · next valid =>
      intro statement member
      rw [List.mem_singleton.mp member]
      exact ⟨by cases resource <;> decide, collectionInert, inert_of_isHandle valid⟩
    · intro statement member
      exact absurd member List.not_mem_nil

theorem isInert_resourceBindings (context : ResourceContext) :
    (resourceBindings context).IsInert :=
  (isInert_resourceBinding .product context.product (by decide)).append
    (isInert_resourceBinding .collection context.collection (by decide))

/-- A statement that is bound for settings, for blocks or for resources holds in its text the
delimiters of its own tags and no others, exactly if it captures no text that starts with a closing
brace or ends with an opening one. -/
theorem delimiters_render_iff (settings : SettingValues) (blocks : List BlockInstance)
    (context : ResourceContext) (statement : Statement)
    (bound : statement ∈
      (settingBindings settings ++ blockBindings blocks ++ resourceBindings context).statements) :
    delimiters statement.render = statement.ownDelimiters ↔ statement.touchesTag = false := by
  have settingsInert : (settingBindings settings).IsInert :=
    isInert_scopedBindings (by decide) settings
  have allInert := (settingsInert.append (isInert_blockBindings blocks)).append
    (isInert_resourceBindings context)
  exact Statement.delimiters_eq_own_iff (allInert statement bound)

/-- A text with both quotes and a delimiter in its middle is captured and stays away from the tags. -/
theorem delimiters_render_of_quotation :
    let settings : SettingValues :=
      ⟨[("quote", .string "She said \"it's \x7b\x7b x \x7d\x7d\".")], by decide⟩
    let statement : Statement :=
      .capture "settings_quote".toList "She said \"it's \x7b\x7b x \x7d\x7d\".".toList
    statement ∈ (settingBindings settings ++ blockBindings [] ++
        resourceBindings ResourceContext.empty).statements ∧
      delimiters statement.render = statement.ownDelimiters := by
  intro settings statement
  have bound : statement ∈ (settingBindings settings ++ blockBindings [] ++
      resourceBindings ResourceContext.empty).statements := List.mem_cons_self
  exact ⟨bound, (delimiters_render_iff settings [] .empty statement bound).mpr (by decide)⟩

/-- A captured text that ends with an opening brace opens an output tag together with the closing
tag of its capture. -/
theorem delimiters_render_of_brace :
    let settings : SettingValues := ⟨[("note", .string "'\"\x7b")], by decide⟩
    ∃ statement ∈ (settingBindings settings).statements,
      statement.render =
        "\x7b% capture settings_note %\x7d'\"\x7b\x7b% endcapture %\x7d".toList ∧
      ⟨29, '\x7b', '\x7b'⟩ ∈ delimiters statement.render ∧
      delimiters statement.render ≠ statement.ownDelimiters := by
  intro settings
  refine ⟨.capture "settings_note".toList "'\"\x7b".toList, List.mem_cons_self, by decide, by decide,
    by decide⟩

end FlatLiquid
