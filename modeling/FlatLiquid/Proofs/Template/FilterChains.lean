import FlatLiquid.Proofs.Text.Fragments
import FlatLiquid.Proofs.Text.Trimming
import FlatLiquid.Template.ImageFilter

/-!
Contract: the parts of an expression between bars.

Owns:
- which quote is open behind a text, if none of its bars separates parts;
- chains of parts: no part holds a separating bar, and only the last one may leave a quote open;
- splitting, which gives the parts of a chain back that are joined by bars;
- chains written with spaces around their bars, whose trimmed parts are read back.

Key step: a part may leave a quote open only at the end of the expression. So parts can be left out of
a chain, and the bars between the others separate them as before.
-/

namespace FlatLiquid

open Text (trim isBlank IsTrimmed)

/-! ## Quotes -/

/-- The quote that is open behind a character. -/
def stepQuote (quote : Option Char) (c : Char) : Option Char :=
  match quote with
  | some opened => if c = opened then none else some opened
  | none => if c = '\'' ∨ c = '"' then some c else none

/-- The character is a bar outside quotes. -/
def IsSeparator (quote : Option Char) (c : Char) : Prop :=
  quote = none ∧ c = '|'

instance (quote : Option Char) (c : Char) : Decidable (IsSeparator quote c) :=
  inferInstanceAs (Decidable (_ ∧ _))

/-- From one state of quotes a text leads to another, and no bar of it is outside quotes. -/
inductive LeadsTo : Option Char → List Char → Option Char → Prop
  | nil {quote : Option Char} : LeadsTo quote [] quote
  | cons {quote next : Option Char} {c : Char} {rest : List Char} (inside : ¬ IsSeparator quote c)
      (more : LeadsTo (stepQuote quote c) rest next) : LeadsTo quote (c :: rest) next

theorem splitFiltersFrom_ne_nil (quote : Option Char) (text : List Char) :
    splitFiltersFrom quote text ≠ [] := by
  cases text with
  | nil => exact List.cons_ne_nil _ _
  | cons c rest =>
    simp only [splitFiltersFrom]
    repeat' split
    all_goals exact List.cons_ne_nil _ _

/-- A separator ends a part, and every other character belongs to one. -/
theorem splitFiltersFrom_cons (quote : Option Char) (c : Char) (rest : List Char) :
    splitFiltersFrom quote (c :: rest) =
      if IsSeparator quote c then [] :: splitFiltersFrom none rest
      else (splitFiltersFrom (stepQuote quote c) rest).modifyHead (c :: ·) := by
  -- the parts behind the character are named, since the first of them takes it up
  obtain ⟨part, others, shape⟩ :=
    List.exists_cons_of_ne_nil (splitFiltersFrom_ne_nil (stepQuote quote c) rest)
  cases quote with
  | some opened =>
    have inQuotes : ¬ IsSeparator (some opened) c :=
      fun separates => Option.some_ne_none _ separates.1
    simp only [stepQuote] at shape
    simp only [splitFiltersFrom, stepQuote, if_neg inQuotes, shape, List.modifyHead_cons]
  | none =>
    by_cases quoted : c = '\'' ∨ c = '"'
    · have noBar : ¬ IsSeparator none c := by
        rintro ⟨-, rfl⟩
        revert quoted
        decide
      simp only [stepQuote, if_pos quoted] at shape
      simp only [splitFiltersFrom, stepQuote, if_pos quoted, if_neg noBar, shape,
        List.modifyHead_cons]
    · by_cases bar : c = '|'
      · simp only [splitFiltersFrom, IsSeparator, bar, and_self, if_true, if_neg (bar ▸ quoted)]
      · have noBar : ¬ IsSeparator none c := fun separates => bar separates.2
        simp only [stepQuote, if_neg quoted] at shape
        simp only [splitFiltersFrom, stepQuote, if_neg quoted, if_neg bar, if_neg noBar, shape,
          List.modifyHead_cons]

/-- The splitter passes over a text without separators. -/
theorem LeadsTo.splitFiltersFrom_append {quote next : Option Char} {text : List Char}
    (leads : LeadsTo quote text next) (rest : List Char) :
    splitFiltersFrom quote (text ++ rest) =
      (splitFiltersFrom next rest).modifyHead (text ++ ·) := by
  induction leads with
  | @nil quote =>
    obtain ⟨part, others, shape⟩ := List.exists_cons_of_ne_nil (splitFiltersFrom_ne_nil quote rest)
    rw [List.nil_append, shape]
    rfl
  | cons inside more inductionHypothesis =>
    rw [List.cons_append, splitFiltersFrom_cons, if_neg inside, inductionHypothesis,
      List.modifyHead_modifyHead]
    rfl

theorem LeadsTo.append {quote middle next : Option Char} {front back : List Char}
    (first : LeadsTo quote front middle) (second : LeadsTo middle back next) :
    LeadsTo quote (front ++ back) next := by
  induction first with
  | nil => exact second
  | cons inside _ inductionHypothesis => exact .cons inside (inductionHypothesis second)

theorem LeadsTo.of_append {quote next : Option Char} {front back : List Char}
    (leads : LeadsTo quote (front ++ back) next) :
    ∃ middle, LeadsTo quote front middle ∧ LeadsTo middle back next := by
  induction front generalizing quote with
  | nil => exact ⟨quote, .nil, leads⟩
  | cons c rest inductionHypothesis =>
    cases leads with
    | cons inside more =>
      obtain ⟨middle, first, second⟩ := inductionHypothesis more
      exact ⟨middle, .cons inside first, second⟩

theorem LeadsTo.unique {quote next other : Option Char} {text : List Char}
    (leads : LeadsTo quote text next) (also : LeadsTo quote text other) : next = other := by
  induction leads with
  | nil => cases also; rfl
  | cons _ _ inductionHypothesis =>
    cases also with
    | cons _ more => exact inductionHypothesis more

/-- Blanks neither open a quote, nor close one, nor separate parts. -/
theorem leadsTo_of_blank {blanks : List Char} {quote : Option Char}
    (blank : blanks.all isBlank = true) (solid : ∀ mark ∈ quote, isBlank mark = false) :
    LeadsTo quote blanks quote := by
  induction blanks with
  | nil => exact .nil
  | cons c rest inductionHypothesis =>
    rw [List.all_cons, Bool.and_eq_true] at blank
    have unlike {d : Char} (solid : isBlank d = false) : c ≠ d := by
      rintro rfl
      rw [blank.1] at solid
      contradiction
    have noSeparator : ¬ IsSeparator quote c := fun separates => unlike (by decide) separates.2
    have same : stepQuote quote c = quote := by
      cases quote with
      | some mark => exact if_neg (unlike (solid mark rfl))
      | none => exact if_neg (not_or.mpr ⟨unlike (by decide), unlike (by decide)⟩)
    refine .cons noSeparator ?_
    rw [same]
    exact inductionHypothesis blank.2

theorem LeadsTo.solid {quote next : Option Char} {text : List Char}
    (leads : LeadsTo quote text next) (solid : ∀ mark ∈ quote, isBlank mark = false) :
    ∀ mark ∈ next, isBlank mark = false := by
  induction leads with
  | nil => exact solid
  | @cons quote _ c _ _ _ inductionHypothesis =>
    apply inductionHypothesis
    intro mark opened
    cases quote with
    | some already =>
      simp only [stepQuote, Option.mem_def, Option.ite_none_left_eq_some] at opened
      exact solid mark opened.2
    | none =>
      simp only [stepQuote, Option.mem_def, Option.ite_none_right_eq_some] at opened
      obtain ⟨rfl | rfl, same⟩ := opened <;>
      · obtain rfl := Option.some.inj same
        decide

theorem solid_none : ∀ mark ∈ (none : Option Char), isBlank mark = false :=
  fun _ opened => nomatch opened

/-- The blanks around a part do not change what quote is open behind it. -/
theorem LeadsTo.trim {next : Option Char} {text : List Char} (leads : LeadsTo none text next) :
    LeadsTo none (trim text) next := by
  obtain ⟨front, back, blankFront, blankBack, split⟩ := Text.exists_blanks_around_trim text
  rw [split] at leads
  obtain ⟨behind, first, last⟩ := leads.of_append
  obtain ⟨start, leading, middle⟩ := first.of_append
  obtain rfl := (leadsTo_of_blank blankFront solid_none).unique leading
  obtain rfl := (leadsTo_of_blank blankBack (middle.solid solid_none)).unique last
  exact middle

theorem LeadsTo.spaced {next : Option Char} {text : List Char} (leads : LeadsTo none text next) :
    LeadsTo none (' ' :: text ++ [' ']) next := by
  have space : [' '].all isBlank = true := by decide
  exact ((leadsTo_of_blank space solid_none).append leads).append
    (leadsTo_of_blank space (leads.solid solid_none))

/-! ## Chains -/

/-- Parts between separators: none holds a separator, and only behind the last one may a quote be
open. -/
inductive IsChain : Option Char → List (List Char) → Prop
  | last {quote next : Option Char} {part : List Char} (leads : LeadsTo quote part next) :
      IsChain quote [part]
  | more {quote : Option Char} {part : List Char} {others : List (List Char)}
      (closed : LeadsTo quote part none) (rest : IsChain none others) :
      IsChain quote (part :: others)

/-- The parts of a text are a chain. -/
theorem isChain_splitFiltersFrom (quote : Option Char) (text : List Char) :
    IsChain quote (splitFiltersFrom quote text) := by
  induction text generalizing quote with
  | nil => exact .last .nil
  | cons c rest inductionHypothesis =>
    rw [splitFiltersFrom_cons]
    split
    · next separates =>
      obtain ⟨rfl, -⟩ := separates
      exact .more .nil (inductionHypothesis none)
    · next inside =>
      have behind := inductionHypothesis (stepQuote quote c)
      generalize splitFiltersFrom (stepQuote quote c) rest = parts at behind
      cases behind with
      | last leads => exact .last (.cons inside leads)
      | more closed chain => exact .more (.cons inside closed) chain

/-- The parts of a chain are what splitting makes of them, joined by bars. -/
theorem IsChain.splitFiltersFrom_intercalate {quote : Option Char} {parts : List (List Char)}
    (chain : IsChain quote parts) : splitFiltersFrom quote (List.intercalate ['|'] parts) = parts := by
  induction chain with
  | @last quote next part leads =>
    have whole := leads.splitFiltersFrom_append []
    rw [List.append_nil] at whole
    rw [List.intercalate_singleton, whole]
    exact congrArg ([·]) (List.append_nil part)
  | @more quote part others closed rest inductionHypothesis =>
    obtain ⟨next, more, rfl⟩ : ∃ next more, others = next :: more := by
      cases rest <;> exact ⟨_, _, rfl⟩
    have bar : IsSeparator none '|' := ⟨rfl, rfl⟩
    rw [List.intercalate_cons_cons, List.append_assoc, closed.splitFiltersFrom_append,
      List.singleton_append, splitFiltersFrom_cons, if_pos bar, inductionHypothesis]
    exact congrArg (· :: next :: more) (List.append_nil part)

theorem intercalate_splitFiltersFrom (quote : Option Char) (text : List Char) :
    List.intercalate ['|'] (splitFiltersFrom quote text) = text := by
  induction text generalizing quote with
  | nil => rfl
  | cons c rest inductionHypothesis =>
    rw [splitFiltersFrom_cons]
    split
    · next separates =>
      have behind := inductionHypothesis none
      obtain ⟨part, others, shape⟩ := List.exists_cons_of_ne_nil (splitFiltersFrom_ne_nil none rest)
      rw [shape] at behind ⊢
      rw [List.intercalate_cons_cons, behind, separates.2]
      rfl
    · have behind := inductionHypothesis (stepQuote quote c)
      obtain ⟨part, others, shape⟩ :=
        List.exists_cons_of_ne_nil (splitFiltersFrom_ne_nil (stepQuote quote c) rest)
      rw [shape] at behind ⊢
      rw [List.modifyHead_cons, ← behind]
      cases others with
      | nil => rw [List.intercalate_singleton, List.intercalate_singleton]
      | cons second more => rw [List.intercalate_cons_cons, List.intercalate_cons_cons]; rfl

theorem IsChain.map {parts : List (List Char)} {change : List Char → List Char}
    (chain : IsChain none parts)
    (keeps : ∀ part next, LeadsTo none part next → LeadsTo none (change part) next) :
    IsChain none (parts.map change) := by
  generalize quote : none = start at chain
  induction chain with
  | last leads =>
    subst quote
    exact .last (keeps _ _ leads)
  | more closed _ inductionHypothesis =>
    subst quote
    exact .more (keeps _ _ closed) (inductionHypothesis rfl)

/-- A chain stays one when parts are left out. -/
theorem IsChain.sublist {parts kept : List (List Char)} (chain : IsChain none parts)
    (sublist : kept.Sublist parts) (nonempty : kept ≠ []) : IsChain none kept := by
  induction sublist with
  | slnil => contradiction
  | cons part within inductionHypothesis =>
    cases chain with
    | last _ => exact absurd (List.sublist_nil.mp within) nonempty
    | more _ rest => exact inductionHypothesis rest nonempty
  | @cons_cons kept others part within inductionHypothesis =>
    cases chain with
    | last leads =>
      rw [List.sublist_nil.mp within]
      exact .last leads
    | more closed rest =>
      cases kept with
      | nil => exact .last closed
      | cons next more => exact .more closed (inductionHypothesis rest (List.cons_ne_nil _ _))

/-! ## Chains with spaces -/

/-- The parts as they are written: with bars between them, and spaces around each. -/
def spacedChain (parts : List (List Char)) : List Char :=
  ' ' :: List.intercalate " | ".toList parts ++ [' ']

theorem spacedChain_eq_intercalate {parts : List (List Char)} (nonempty : parts ≠ []) :
    spacedChain parts = List.intercalate ['|'] (parts.map fun part => ' ' :: part ++ [' ']) := by
  obtain ⟨first, rest, rfl⟩ := List.exists_cons_of_ne_nil nonempty
  induction rest generalizing first with
  | nil => simp [spacedChain]
  | cons second more inductionHypothesis =>
    have later := inductionHypothesis second (List.cons_ne_nil _ _)
    rw [List.map_cons] at later
    rw [List.map_cons, List.map_cons, List.intercalate_cons_cons, ← later]
    simp [spacedChain, List.intercalate_cons_cons]

/-- A word of a written chain is a word of one of its parts. -/
theorem exists_part_of_infix_spacedChain {word : List Char} {parts : List (List Char)}
    (nonempty : parts ≠ []) (noSpace : ' ' ∉ word) (noBar : '|' ∉ word)
    (within : word <:+: spacedChain parts) : ∃ part ∈ parts, word <:+: part := by
  rw [spacedChain_eq_intercalate nonempty] at within
  have spacedNonempty : parts.map (fun part => ' ' :: part ++ [' ']) ≠ [] := by
    simpa using nonempty
  obtain ⟨spaced, member, inside⟩ :=
    Text.exists_part_of_infix_intercalate spacedNonempty noBar within
  obtain ⟨part, isPart, rfl⟩ := List.mem_map.mp member
  refine ⟨part, isPart, ?_⟩
  rcases Text.infix_of_infix_around noSpace inside with here | nothing
  · exact Text.infix_of_infix_cons noSpace here
  · exact nothing.trans List.nil_infix

/-- The parts of an expression without the blanks around them. -/
def trimmedParts (expression : List Char) : List (List Char) :=
  (splitFilters expression).map trim

theorem isChain_trimmedParts (expression : List Char) : IsChain none (trimmedParts expression) :=
  (isChain_splitFiltersFrom none expression).map fun _ _ leads => leads.trim

theorem isTrimmed_of_mem_trimmedParts {expression part : List Char}
    (member : part ∈ trimmedParts expression) : IsTrimmed part := by
  obtain ⟨written, -, rfl⟩ := List.mem_map.mp member
  exact Text.isTrimmed_trim written

theorem infix_of_mem_trimmedParts {expression part : List Char}
    (member : part ∈ trimmedParts expression) : part <:+: expression := by
  obtain ⟨written, isPart, rfl⟩ := List.mem_map.mp member
  have within : written <:+: List.intercalate ['|'] (splitFilters expression) :=
    Text.infix_intercalate_of_mem isPart
  rw [splitFilters, intercalate_splitFiltersFrom] at within
  exact (Text.isInfix_trim written).trans within

/-- A chain of trimmed parts is read back from its spaced form. -/
theorem trimmedParts_spacedChain {parts : List (List Char)} (chain : IsChain none parts)
    (trimmed : ∀ part ∈ parts, IsTrimmed part) : trimmedParts (spacedChain parts) = parts := by
  have nonempty : parts ≠ [] := by
    rintro rfl
    contradiction
  have space : [' '].all isBlank = true := by decide
  have spaced := chain.map fun _ _ leads => leads.spaced
  rw [trimmedParts, splitFilters, spacedChain_eq_intercalate nonempty,
    spaced.splitFiltersFrom_intercalate, List.map_map]
  conv_rhs => rw [← List.map_id parts]
  apply List.map_congr_left
  intro part member
  exact (trimmed part member).trim_surrounded space space

end FlatLiquid
