import FlatLiquid.Proofs.Text.Replacement

/-!
Contract: what a replacement pass keeps and what it replaces, part by part.

Owns:
- rows of parts, which tell a text before and after replacement;
- traced rules, which answer a row instead of a text, and the row of a whole pass;
- where the replaced parts of a row stand: each one starts a word of the text before;
- known texts in the text after: what must be kept there, and where the row can be split.

A row says more than its two texts: it tells which part of the text after was there before.
-/

namespace FlatLiquid.Text

/-- A part of a text: a character that stays, or a stretch and what takes its place. -/
inductive Part where
  | kept (c : Char)
  | replaced (original replacement : List Char)

def Part.original : Part → List Char
  | .kept c => [c]
  | .replaced original _ => original

def Part.output : Part → List Char
  | .kept c => [c]
  | .replaced _ replacement => replacement

abbrev Row := List Part

namespace Row

/-- The text before replacement. -/
def original (row : Row) : List Char :=
  row.flatMap Part.original

/-- The text after replacement. -/
def output (row : Row) : List Char :=
  row.flatMap Part.output

/-- The row of a text in which nothing is replaced. -/
def plain (text : List Char) : Row :=
  text.map .kept

@[simp]
theorem original_nil : original [] = [] := rfl

@[simp]
theorem output_nil : output [] = [] := rfl

@[simp]
theorem original_cons (part : Part) (row : Row) :
    original (part :: row) = part.original ++ original row :=
  List.flatMap_cons

@[simp]
theorem output_cons (part : Part) (row : Row) :
    output (part :: row) = part.output ++ output row :=
  List.flatMap_cons

@[simp]
theorem original_append (first second : Row) :
    original (first ++ second) = original first ++ original second :=
  List.flatMap_append

@[simp]
theorem output_append (first second : Row) :
    output (first ++ second) = output first ++ output second :=
  List.flatMap_append

@[simp]
theorem original_plain (text : List Char) : original (plain text) = text := by
  rw [original, plain, List.flatMap_map]
  exact List.flatMap_singleton' text

@[simp]
theorem output_plain (text : List Char) : output (plain text) = text := by
  rw [output, plain, List.flatMap_map]
  exact List.flatMap_singleton' text

theorem plain_cons (c : Char) (text : List Char) : plain (c :: text) = .kept c :: plain text :=
  rfl

theorem plain_append (first second : List Char) :
    plain (first ++ second) = plain first ++ plain second :=
  List.map_append

end Row

/-! ## Traced passes -/

/-- The row of a pass: the rule is applied at every place in turn, after `skip` characters that an
earlier fit covers. -/
def traceFrom (rule : Rule Row) : Option Char → Nat → List Char → Row
  | _, _, [] => []
  | _, skip + 1, c :: rest => traceFrom rule (some c) skip rest
  | before, 0, c :: rest =>
    match rule before (c :: rest) with
    | some (row, after) => row ++ traceFrom rule (some c) (rest.length - after.length) rest
    | none => .kept c :: traceFrom rule (some c) 0 rest

def traceAll (rule : Rule Row) (text : List Char) : Row :=
  traceFrom rule none 0 text

/-- What a traced rule covers is the text before in its row, and it covers something. -/
def CoversRow (traced : Rule Row) : Prop :=
  ∀ before text row after, traced before text = some (row, after) →
    text = row.original ++ after ∧ row.original ≠ []

/-- The traced rule fits where the rule does, and the row has the rule's answer as its text after. -/
def Traces (traced : Rule Row) (rule : Rule (List Char)) : Prop :=
  ∀ before text, rule before text = (traced before text).map fun fit => (fit.1.output, fit.2)

theorem Traces.output_traceFrom {traced : Rule Row} {rule : Rule (List Char)}
    (traces : Traces traced rule) (before : Option Char) (skip : Nat) (text : List Char) :
    (traceFrom traced before skip text).output = replaceFrom rule before skip text := by
  induction text generalizing before skip with
  | nil => rfl
  | cons c rest inductionHypothesis =>
    cases skip with
    | succ skip => rw [traceFrom, replaceFrom, inductionHypothesis]
    | zero =>
      rw [traceFrom, replaceFrom, traces before (c :: rest)]
      cases traced before (c :: rest) with
      | none =>
        simp only [Option.map_none, Row.output_cons, inductionHypothesis]
        rfl
      | some fit => simp only [Option.map_some, Row.output_append, inductionHypothesis]

theorem Traces.output_traceAll {traced : Rule Row} {rule : Rule (List Char)}
    (traces : Traces traced rule) (text : List Char) :
    (traceAll traced text).output = replaceAll rule text :=
  traces.output_traceFrom none 0 text

section Steps

variable {traced : Rule Row}

theorem traceFrom_skip (before : Option Char) (covered rest : List Char) :
    traceFrom traced before covered.length (covered ++ rest) =
      traceFrom traced (covered.getLast?.or before) 0 rest := by
  induction covered generalizing before with
  | nil => rfl
  | cons c tail inductionHypothesis =>
    rw [List.length_cons, List.cons_append, traceFrom, inductionHypothesis, getLast?_cons_or]

/-- Where the rule fits, the pass goes on after what it covers. -/
theorem traceFrom_of_fit {before : Option Char} {covered rest : List Char} {row : Row}
    (nonempty : covered ≠ []) (fits : traced before (covered ++ rest) = some (row, rest)) :
    traceFrom traced before 0 (covered ++ rest) =
      row ++ traceFrom traced (covered.getLast?.or before) 0 rest := by
  obtain ⟨c, tail, rfl⟩ := List.exists_cons_of_ne_nil nonempty
  have skipped : (tail ++ rest).length - rest.length = tail.length := by
    rw [List.length_append, Nat.add_sub_cancel]
  rw [List.cons_append] at fits ⊢
  rw [traceFrom, fits, getLast?_cons_or]
  simp only
  rw [skipped, traceFrom_skip]

theorem traceFrom_of_none {before : Option Char} {c : Char} {rest : List Char}
    (unfit : traced before (c :: rest) = none) :
    traceFrom traced before 0 (c :: rest) = .kept c :: traceFrom traced (some c) 0 rest := by
  rw [traceFrom, unfit]

/-- A text in which the rule fits nowhere is kept, up to the text behind it. -/
theorem traceFrom_of_unfit {plain : List Char} (before : Option Char) (rest : List Char)
    (unfit : ∀ front c back, plain = front ++ c :: back →
      traced (front.getLast?.or before) (c :: (back ++ rest)) = none) :
    traceFrom traced before 0 (plain ++ rest) =
      Row.plain plain ++ traceFrom traced (plain.getLast?.or before) 0 rest := by
  induction plain generalizing before with
  | nil => rfl
  | cons c tail inductionHypothesis =>
    have here : traced before (c :: (tail ++ rest)) = none := unfit [] c tail rfl
    have later := inductionHypothesis (some c) fun front d back shape => by
      have unfitLater := unfit (c :: front) d back (congrArg (c :: ·) shape)
      rw [getLast?_cons_or] at unfitLater
      exact unfitLater
    rw [List.cons_append, traceFrom_of_none here, later, getLast?_cons_or]
    rfl

/-- A pass is its first fit, or its first character, and the pass over what is left. -/
theorem traceFrom_induction {motive : Option Char → List Char → Row → Prop}
    (covers : CoversRow traced) (nil : ∀ before, motive before [] [])
    (fit : ∀ before row rest, row.original ≠ [] →
      traced before (row.original ++ rest) = some (row, rest) →
      motive (row.original.getLast?.or before) rest
        (traceFrom traced (row.original.getLast?.or before) 0 rest) →
      motive before (row.original ++ rest)
        (row ++ traceFrom traced (row.original.getLast?.or before) 0 rest))
    (kept : ∀ before c rest, traced before (c :: rest) = none →
      motive (some c) rest (traceFrom traced (some c) 0 rest) →
      motive before (c :: rest) (.kept c :: traceFrom traced (some c) 0 rest))
    (before : Option Char) (text : List Char) :
    motive before text (traceFrom traced before 0 text) := by
  induction size : text.length using Nat.strongRecOn generalizing before text with
  | ind count inductionHypothesis =>
    have shorter (before : Option Char) (rest : List Char) (less : rest.length < text.length) :
        motive before rest (traceFrom traced before 0 rest) :=
      inductionHypothesis rest.length (size ▸ less) before rest rfl
    cases text with
    | nil => exact nil before
    | cons c rest =>
      cases answer : traced before (c :: rest) with
      | none =>
        rw [traceFrom_of_none answer]
        exact kept before c rest answer (shorter (some c) rest (Nat.lt_succ_self _))
      | some found =>
        obtain ⟨row, after⟩ := found
        obtain ⟨split, nonempty⟩ := covers before (c :: rest) row after answer
        have positive : 0 < row.original.length := List.length_pos_iff.mpr nonempty
        rw [split] at answer shorter ⊢
        rw [traceFrom_of_fit nonempty answer]
        apply fit before row after nonempty answer
        exact shorter _ after (by rw [List.length_append]; omega)

theorem original_traceFrom (covers : CoversRow traced) (before : Option Char) (text : List Char) :
    (traceFrom traced before 0 text).original = text := by
  induction before, text using traceFrom_induction covers with
  | nil before => rfl
  | fit before row rest _ _ inductionHypothesis =>
    rw [Row.original_append, inductionHypothesis]
  | kept before c rest _ inductionHypothesis =>
    rw [Row.original_cons, inductionHypothesis]
    rfl

end Steps

/-! ## Where replaced parts stand -/

/-- Every replaced part starts a word of the text before, and what takes its place is `allowed`. -/
inductive Placed (allowed : List Char → List Char → Prop) : Option Char → Row → Prop
  | nil {before : Option Char} : Placed allowed before []
  | kept {before : Option Char} {c : Char} {rest : Row} (more : Placed allowed (some c) rest) :
      Placed allowed before (.kept c :: rest)
  | replaced {before : Option Char} {original replacement : List Char} {rest : Row}
      (starts : startsWord before = true) (isAllowed : allowed original replacement)
      (more : Placed allowed (original.getLast?.or before) rest) :
      Placed allowed before (.replaced original replacement :: rest)

section Placed

variable {allowed : List Char → List Char → Prop} {before : Option Char}

theorem placed_plain (before : Option Char) (text : List Char) :
    Placed allowed before (Row.plain text) := by
  induction text generalizing before with
  | nil => exact .nil
  | cons c rest inductionHypothesis => exact .kept (inductionHypothesis (some c))

theorem Placed.append {first second : Row} (front : Placed allowed before first)
    (back : Placed allowed (first.original.getLast?.or before) second) :
    Placed allowed before (first ++ second) := by
  induction front with
  | nil => exact back
  | kept more inductionHypothesis =>
    apply Placed.kept
    apply inductionHypothesis
    rw [Row.original_cons, List.getLast?_append, Option.or_assoc] at back
    exact back
  | replaced starts isAllowed more inductionHypothesis =>
    apply Placed.replaced starts isAllowed
    apply inductionHypothesis
    rw [Row.original_cons, List.getLast?_append, Option.or_assoc] at back
    exact back

theorem Placed.of_append {first second : Row} (placed : Placed allowed before (first ++ second)) :
    Placed allowed (first.original.getLast?.or before) second := by
  induction first generalizing before with
  | nil => exact placed
  | cons part rest inductionHypothesis =>
    rw [Row.original_cons, List.getLast?_append, Option.or_assoc]
    cases placed with
    | kept more => exact inductionHypothesis more
    | replaced _ _ more => exact inductionHypothesis more

theorem Placed.of_append_left {first second : Row}
    (placed : Placed allowed before (first ++ second)) : Placed allowed before first := by
  induction first generalizing before with
  | nil => exact .nil
  | cons part rest inductionHypothesis =>
    cases placed with
    | kept more => exact .kept (inductionHypothesis more)
    | replaced starts isAllowed more => exact .replaced starts isAllowed (inductionHypothesis more)

theorem Placed.mono {other : List Char → List Char → Prop} {row : Row}
    (placed : Placed allowed before row)
    (weaker : ∀ original replacement, allowed original replacement → other original replacement) :
    Placed other before row := by
  induction placed with
  | nil => exact .nil
  | kept _ inductionHypothesis => exact .kept inductionHypothesis
  | replaced starts isAllowed _ inductionHypothesis =>
    exact .replaced starts (weaker _ _ isAllowed) inductionHypothesis

theorem Placed.allowed_of_mem {row : Row} (placed : Placed allowed before row)
    {original replacement : List Char} (member : .replaced original replacement ∈ row) :
    allowed original replacement := by
  induction placed with
  | nil => exact absurd member List.not_mem_nil
  | kept _ inductionHypothesis =>
    exact (List.mem_cons.mp member).elim Part.noConfusion inductionHypothesis
  | replaced _ isAllowed _ inductionHypothesis =>
    rcases List.mem_cons.mp member with same | later
    · obtain ⟨rfl, rfl⟩ := Part.replaced.inj same
      exact isAllowed
    · exact inductionHypothesis later

/-- A text that does not start with a word has the same places behind any character. -/
theorem Placed.of_endsWord {row : Row} (placed : Placed allowed none row)
    (ends : endsWord row.original = true)
    (words : ∀ original replacement, allowed original replacement → endsWord original = false) :
    Placed allowed before row := by
  cases placed with
  | nil => exact .nil
  | kept more => exact .kept more
  | @replaced _ original replacement rest _ isAllowed _ =>
    have startsWithWord := words original replacement isAllowed
    rw [Row.original_cons] at ends
    cases original with
    | nil => contradiction
    | cons c tail =>
      have contrary : true = false := ends.symm.trans startsWithWord
      contradiction

/-- A run over a text is placed as each of its fits is. -/
theorem placed_traceFrom {traced : Rule Row} (covers : CoversRow traced)
    (fits : ∀ before text row after, traced before text = some (row, after) →
      Placed allowed before row)
    (before : Option Char) (text : List Char) :
    Placed allowed before (traceFrom traced before 0 text) := by
  induction before, text using traceFrom_induction covers with
  | nil before => exact .nil
  | fit before row rest _ answer inductionHypothesis =>
    exact (fits before _ row rest answer).append inductionHypothesis
  | kept before c rest _ inductionHypothesis => exact .kept inductionHypothesis

end Placed

/-- A replacement pass by its traced rule, with what it may replace. -/
structure Pass where
  traced : Rule Row
  allowed : List Char → List Char → Prop
  covers : CoversRow traced
  placed : ∀ before text row after, traced before text = some (row, after) →
    Placed allowed before row

/-- The row of the pass over a text. -/
def Pass.trace (pass : Pass) (text : List Char) : Row :=
  traceAll pass.traced text

theorem Pass.original_trace (pass : Pass) (text : List Char) : (pass.trace text).original = text :=
  original_traceFrom pass.covers none text

theorem Pass.placed_trace (pass : Pass) (text : List Char) :
    Placed pass.allowed none (pass.trace text) :=
  placed_traceFrom pass.covers pass.placed none text

/-- A pass that fits at the start of a text and nowhere behind it. -/
theorem Pass.trace_of_fit (pass : Pass) {covered rest : List Char} {row : Row}
    (nonempty : covered ≠ []) (fits : pass.traced none (covered ++ rest) = some (row, rest))
    (unfit : ∀ before front c back, rest = front ++ c :: back →
      pass.traced before (c :: back) = none) :
    pass.trace (covered ++ rest) = row ++ Row.plain rest := by
  have behind := traceFrom_of_unfit (covered.getLast?.or none) [] fun front c back split => by
    rw [List.append_nil]
    exact unfit (front.getLast?.or (covered.getLast?.or none)) front c back split
  rw [List.append_nil, traceFrom, List.append_nil] at behind
  rw [Pass.trace, traceAll, traceFrom_of_fit nonempty fits, behind]

/-! ## Known texts in a row -/

/-- Only words, or parts of words, are inserted. -/
def InsertsWords (allowed : List Char → List Char → Prop) : Prop :=
  ∀ original replacement, allowed original replacement →
    replacement ≠ [] ∧ ∀ c ∈ replacement, isWordChar c = true

/-- A text that starts with characters of a word starts with them inside its first word. -/
theorem prefix_of_append_eq {start rest word after : List Char}
    (inside : ∀ c ∈ start, isWordChar c = true) (ends : endsWord after = true)
    (same : start ++ rest = word ++ after) : start <+: word := by
  rcases List.append_eq_append_iff.mp same with ⟨more, rfl, -⟩ | ⟨more, split, following⟩
  · exact List.prefix_append start more
  · cases more with
    | nil =>
      obtain rfl : start = word := by rw [split, List.append_nil]
      exact List.prefix_refl start
    | cons c tail =>
      have isWord : isWordChar c = true := inside c (by rw [split]; simp)
      simp [following, endsWord, isWord] at ends

section Splitting

variable {allowed : List Char → List Char → Prop} (words : InsertsWords allowed)

include words

/-- A row falls apart where its text after goes on with no word. -/
theorem exists_append_of_output {before : Option Char} {row : Row} {front back : List Char}
    (placed : Placed allowed before row) (text : row.output = front ++ back)
    (ends : endsWord back = true) :
    ∃ first second, row = first ++ second ∧ first.output = front ∧ second.output = back := by
  induction placed generalizing front with
  | nil =>
    obtain ⟨rfl, rfl⟩ := List.append_eq_nil_iff.mp text.symm
    exact ⟨[], [], rfl, rfl, rfl⟩
  | @kept _ c rest _ inductionHypothesis =>
    cases front with
    | nil => exact ⟨[], .kept c :: rest, rfl, rfl, text⟩
    | cons d more =>
      obtain ⟨rfl, tail⟩ := List.cons.inj text
      obtain ⟨first, second, rfl, rfl, rfl⟩ := inductionHypothesis tail
      exact ⟨.kept c :: first, second, rfl, rfl, rfl⟩
  | @replaced _ original replacement rest _ isAllowed _ inductionHypothesis =>
    obtain ⟨nonempty, inside⟩ := words original replacement isAllowed
    rw [Row.output_cons] at text
    obtain ⟨more, rfl⟩ := prefix_of_append_eq inside ends text
    rw [List.append_assoc] at text
    obtain ⟨first, second, rfl, rfl, rfl⟩ :=
      inductionHypothesis (List.append_cancel_left text)
    exact ⟨.replaced original replacement :: first, second, rfl, Row.output_cons _ _, rfl⟩

/-- Characters of no word are kept. -/
theorem exists_plain_of_output {before : Option Char} {row : Row} {front back : List Char}
    (placed : Placed allowed before row) (text : row.output = front ++ back)
    (outside : ∀ c ∈ front, isWordChar c = false) :
    ∃ rest, row = Row.plain front ++ rest ∧ rest.output = back := by
  induction front generalizing before row with
  | nil => exact ⟨row, rfl, text⟩
  | cons d more inductionHypothesis =>
    cases placed with
    | nil => contradiction
    | kept placed =>
      obtain ⟨rfl, tail⟩ := List.cons.inj text
      obtain ⟨rest, rfl, behind⟩ := inductionHypothesis placed tail fun c member =>
        outside c (List.mem_cons_of_mem _ member)
      exact ⟨rest, rfl, behind⟩
    | @replaced _ original replacement _ _ isAllowed _ =>
      obtain ⟨nonempty, inside⟩ := words original replacement isAllowed
      obtain ⟨c, others, rfl⟩ := List.exists_cons_of_ne_nil nonempty
      obtain ⟨rfl, -⟩ := List.cons.inj text
      have isWord := inside c List.mem_cons_self
      rw [outside c List.mem_cons_self] at isWord
      contradiction

omit words in
/-- A word that starts with a kept character is kept as a whole, because no replaced part starts
inside a word. -/
theorem exists_plain_of_word {c : Char} (isWord : isWordChar c = true) {row : Row}
    {word back : List Char} (placed : Placed allowed (some c) row)
    (text : row.output = word ++ back) (inside : ∀ d ∈ word, isWordChar d = true) :
    ∃ rest, row = Row.plain word ++ rest ∧ rest.output = back := by
  induction word generalizing c row with
  | nil => exact ⟨row, rfl, text⟩
  | cons d more inductionHypothesis =>
    cases placed with
    | nil => contradiction
    | kept placed =>
      obtain ⟨rfl, tail⟩ := List.cons.inj text
      obtain ⟨rest, rfl, behind⟩ := inductionHypothesis (inside _ List.mem_cons_self) placed tail
        fun d member => inside d (List.mem_cons_of_mem _ member)
      exact ⟨rest, rfl, behind⟩
    | replaced starts _ _ => simp [startsWord, isWord] at starts

/-- A word that no inserted text is the beginning of is kept. -/
theorem exists_plain_of_unprefixed {before : Option Char} {row : Row} {word back : List Char}
    (placed : Placed allowed before row) (text : row.output = word ++ back)
    (inside : ∀ c ∈ word, isWordChar c = true) (ends : endsWord back = true)
    (unprefixed : ∀ original replacement, allowed original replacement → ¬ replacement <+: word) :
    ∃ rest, row = Row.plain word ++ rest ∧ rest.output = back := by
  cases word with
  | nil => exact ⟨row, rfl, text⟩
  | cons d more =>
    cases placed with
    | nil => contradiction
    | kept placed =>
      obtain ⟨rfl, tail⟩ := List.cons.inj text
      obtain ⟨rest, rfl, behind⟩ := exists_plain_of_word (inside _ List.mem_cons_self) placed tail
        fun c member => inside c (List.mem_cons_of_mem _ member)
      exact ⟨rest, rfl, behind⟩
    | @replaced _ original replacement _ _ isAllowed _ =>
      rw [Row.output_cons] at text
      have within := prefix_of_append_eq (words original replacement isAllowed).2 ends text
      exact absurd within (unprefixed original replacement isAllowed)

end Splitting

end FlatLiquid.Text
