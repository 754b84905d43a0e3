import FlatLiquid.Proofs.Template.Inserted

/-!
Contract: which accessors the rewriters take for accessors of the object itself.

Owns:
- the places of a row, and where a rule that starts words rewrites something;
- texts from which a name or a path runs on: a word, a dot, and a dash of a name at their end;
- the rewriters of the section's settings and of the settings and fields of a block, and which
  tails of longer paths and names they spare.

Of the text in front of an accessor, a rewriter looks only at whether a word runs on from it. So it
takes the tail of a path for an accessor of the object, and the tail of a name behind a dash as well.
-/

namespace FlatLiquid

open Text (Rule Row Part Pass Traces CoversRow traceFrom afterPrefix? endsWord isWordChar replaceAll
  startsWord)

/-! ## Places of a row -/

/-- A place of a row, by the text in front of it and the text from it on. No part lies across it. -/
def HasPlace (row : Row) (front rest : List Char) : Prop :=
  ∃ first second : Row, row = first ++ second ∧ first.original = front ∧ second.original = rest

/-- Behind a text, the row puts something else in place of what is written there. -/
def RewritesBehind (row : Row) (front : List Char) : Prop :=
  ∃ (first second : Row) (original replacement : List Char),
    row = first ++ .replaced original replacement :: second ∧ first.original = front ∧
      replacement ≠ original

/-- A traced rule that covers one stretch at a time, which starts a word. It rewrites the targets,
and covers other stretches only to keep them as they are. -/
structure RewritesWords (traced : Rule Row) (target : List Char → Prop) : Prop where
  fits : ∀ before text, startsWord before = true → target text →
    ∃ row after, traced before text = some (row, after)
  stretch : ∀ before text row after, traced before text = some (row, after) →
    startsWord before = true ∧ ∃ original replacement, row = [.replaced original replacement] ∧
      (replacement ≠ original ↔ target text)

section Places

variable {traced : Rule Row} {target : List Char → Prop}

/-- A pass that covers something is its first part and the pass over what is left. -/
theorem RewritesWords.head_cases (words : RewritesWords traced target) (covers : CoversRow traced)
    {before : Option Char} {text : List Char} {part : Part} {rest : Row}
    (parts : traceFrom traced before 0 text = part :: rest) :
    ∃ after, text = part.original ++ after ∧
      rest = traceFrom traced (part.original.getLast?.or before) 0 after ∧
      ((∃ c, part = .kept c) ∨ traced before text = some ([part], after)) := by
  cases text with
  | nil => contradiction
  | cons c tail =>
    cases answer : traced before (c :: tail) with
    | none =>
      rw [Text.traceFrom_of_none answer] at parts
      obtain ⟨rfl, rfl⟩ := List.cons.inj parts
      exact ⟨tail, rfl, rfl, .inl ⟨c, rfl⟩⟩
    | some fit =>
      obtain ⟨row, after⟩ := fit
      obtain ⟨split, nonempty⟩ := covers before (c :: tail) row after answer
      obtain ⟨-, original, replacement, rfl, -⟩ := words.stretch before _ row after answer
      rw [Row.original_cons, Row.original_nil, List.append_nil] at split nonempty
      rw [split] at parts answer
      have goesOn := Text.traceFrom_of_fit nonempty answer
      rw [parts] at goesOn
      obtain ⟨rfl, rfl⟩ := List.cons.inj goesOn
      exact ⟨after, split, rfl, .inr rfl⟩

/-- From each of its places on, the row of a pass is the row of the pass over what is left. -/
theorem RewritesWords.eq_traceFrom (words : RewritesWords traced target) (covers : CoversRow traced)
    {before : Option Char} {text : List Char} {first second : Row}
    (parts : traceFrom traced before 0 text = first ++ second) :
    second = traceFrom traced (first.original.getLast?.or before) 0 second.original := by
  -- behind its first part the row is the row of what is left, and the split is one of that row
  induction first generalizing before text with
  | nil =>
    rw [List.nil_append] at parts
    rw [← parts, Text.original_traceFrom covers]
    rfl
  | cons part more inductionHypothesis =>
    obtain ⟨after, -, rest, -⟩ := words.head_cases covers parts
    rw [Row.original_cons, List.getLast?_append, Option.or_assoc]
    exact inductionHypothesis rest.symm

/-- A pass rewrites exactly the targets at its places that start a word. -/
theorem RewritesWords.rewritesBehind_iff (words : RewritesWords traced target)
    (covers : CoversRow traced) (text front : List Char) :
    RewritesBehind (Text.traceAll traced text) front ↔
      startsWord front.getLast? = true ∧
        ∃ rest, HasPlace (Text.traceAll traced text) front rest ∧ target rest := by
  constructor
  · rintro ⟨first, second, original, replacement, parts, rfl, changed⟩
    have goesOn := words.eq_traceFrom covers parts
    rw [Option.or_none] at goesOn
    obtain ⟨after, split, -, answer⟩ := words.head_cases covers goesOn.symm
    rcases answer with ⟨c, kept⟩ | answer
    · contradiction
    · obtain ⟨starts, _, _, same, isTarget⟩ := words.stretch _ _ _ _ answer
      obtain ⟨rfl, rfl⟩ := Part.replaced.inj (List.singleton_inj.mp same)
      exact ⟨starts, _, ⟨first, _, parts, rfl, rfl⟩, isTarget.mp changed⟩
  · rintro ⟨starts, rest, ⟨first, second, parts, rfl, rfl⟩, isTarget⟩
    have goesOn := words.eq_traceFrom covers parts
    rw [Option.or_none] at goesOn
    obtain ⟨row, after, answer⟩ := words.fits _ _ starts isTarget
    obtain ⟨split, nonempty⟩ := covers _ _ row after answer
    obtain ⟨-, original, replacement, rfl, changes⟩ := words.stretch _ _ row after answer
    rw [split] at answer goesOn
    rw [Text.traceFrom_of_fit nonempty answer] at goesOn
    have shape := parts.trans (congrArg (first ++ ·) goesOn)
    exact ⟨first, _, original, replacement, shape, rfl, changes.mpr isTarget⟩

end Places

/-! ## Tails of paths and names -/

/-- A text that ends in a joint of a path or of a name: in a dot, or in a dash behind a word. -/
inductive EndsInJoint : List Char → Prop
  | dot (front : List Char) : EndsInJoint (front ++ ['.'])
  | dash (front : List Char) {c : Char} (isWord : isWordChar c = true) :
      EndsInJoint (front ++ [c, '-'])

/-- A text from which a path or a name runs on. What follows it is the tail of something longer. -/
def LeadsOn (front : List Char) : Prop :=
  startsWord front.getLast? = false ∨ EndsInJoint front

theorem EndsInJoint.startsWord {front : List Char} (joint : EndsInJoint front) :
    startsWord front.getLast? = true := by
  cases joint with
  | dot front =>
    rw [List.getLast?_concat]
    decide
  | dash front isWord =>
    rw [List.append_cons, List.getLast?_concat]
    decide

/-- No tail of a path or a name is rewritten. -/
def SparesTails (row : Row) : Prop :=
  ∀ front, RewritesBehind row front → ¬ LeadsOn front

/-- What a rewriter of words does with a text. Behind a word it spares every tail. Behind a joint it
does so exactly when it never gets to a target there. -/
structure IsWordRewriting (row : Row) (text output : List Char) (target : List Char → Prop) : Prop
    where
  original : row.original = text
  output : row.output = output
  rewritesBehind_iff : ∀ front, RewritesBehind row front ↔
    startsWord front.getLast? = true ∧ ∃ rest, HasPlace row front rest ∧ target rest
  sparesTails_iff : SparesTails row ↔
    ∀ front rest, HasPlace row front rest → EndsInJoint front → ¬ target rest

/-- A pass by a rule that rewrites words is a rewriting of words. -/
theorem isWordRewriting_trace {pass : Pass} {rule : Rule (List Char)} {target : List Char → Prop}
    (words : RewritesWords pass.traced target) (traces : Traces pass.traced rule)
    (text : List Char) :
    IsWordRewriting (pass.trace text) text (replaceAll rule text) target where
  original := pass.original_trace text
  output := traces.output_traceAll text
  rewritesBehind_iff := words.rewritesBehind_iff pass.covers text
  sparesTails_iff := by
    have exactly := words.rewritesBehind_iff pass.covers text
    constructor
    · intro spares front rest place joint isTarget
      apply spares front
      · exact (exactly front).mpr ⟨joint.startsWord, rest, place, isTarget⟩
      · exact .inr joint
    · intro untargeted front rewrites leadsOn
      -- behind a word nothing is rewritten, so that only a joint is left
      obtain ⟨starts, rest, place, isTarget⟩ := (exactly front).mp rewrites
      rcases leadsOn with word | joint
      · rw [starts] at word
        contradiction
      · exact untargeted front rest place joint isTarget

/-! ## The rewriters -/

/-- A text starts with an accessor of a setting that a variable stands for. -/
def IsSettingAt (object scope : List Char) (pickers : Pickers) (text : List Char) : Prop :=
  ∃ key after, accessorRule object none text = some (key, after) ∧
    pickers.flatName? scope key ≠ none

/-- A text starts with the type or the id of the loop's variable. -/
def IsFieldAt (variableName text : List Char) : Prop :=
  ∃ name after, text = variableName ++ '.' :: (name ++ after) ∧
    (name = "type".toList ∨ name = "id".toList) ∧ endsWord after = true

/-- Recognizes an accessor of a setting. One without a variable stands for itself. -/
def accessorTrace (object scope : List Char) (pickers : Pickers) : Rule Row := fun before text =>
  (accessorRule object before text).map fun (key, after) =>
    ([.replaced (recognized text after)
      ((pickers.flatName? scope key).getD (recognized text after))], after)

theorem traces_accessorTrace (object scope : List Char) (pickers : Pickers) :
    Traces (accessorTrace object scope pickers) (variableRule object scope pickers) := by
  intro before text
  rw [variableRule, accessorTrace, Option.map_map]
  congr 1
  funext fit
  simp [Part.output]

/-- What a fit at an accessor tells. -/
theorem exists_key_of_accessorTrace {object scope text after : List Char} {pickers : Pickers}
    {before : Option Char} {row : Row}
    (fits : accessorTrace object scope pickers before text = some (row, after)) :
    ∃ key original, accessorRule object before text = some (key, after) ∧ startsWord before = true ∧
      text = original ++ after ∧ IsAccessor object key original ∧
      row = [.replaced original ((pickers.flatName? scope key).getD original)] := by
  obtain ⟨⟨key, rest⟩, recognizes, same⟩ := Option.map_eq_some_iff.mp fits
  obtain ⟨rfl, rfl⟩ := Prod.mk.inj same
  obtain ⟨starts, original, rfl, accessor⟩ := exists_original_of_accessorRule recognizes
  refine ⟨key, original, recognizes, starts, rfl, accessor, ?_⟩
  rw [recognized_append]

/-- The pass over the accessors of settings, with those that have no variable. -/
def accessorPass (object scope : List Char) (pickers : Pickers) : Pass where
  traced := accessorTrace object scope pickers
  allowed := fun original _ => ∃ key, IsAccessor object key original
  covers := by
    intro before text row after fits
    obtain ⟨key, original, -, -, rfl, accessor, rfl⟩ := exists_key_of_accessorTrace fits
    simp [Part.original, accessor.ne_nil]
  placed := by
    intro before text row after fits
    obtain ⟨key, original, -, starts, rfl, accessor, rfl⟩ := exists_key_of_accessorTrace fits
    exact .replaced starts ⟨key, accessor⟩ .nil

theorem accessorRule_of_startsWord {object text : List Char} {before : Option Char}
    (starts : startsWord before = true) :
    accessorRule object before text = accessorRule object none text := by
  have first : startsWord none = true := rfl
  rw [accessorRule, accessorRule, if_pos starts, if_pos first]

/-- A variable that stands for a setting is a word. -/
theorem isWordChar_of_mem_flatName? {pickers : Pickers} {scope key variableName : List Char}
    (word : ∀ c ∈ scope, isWordChar c = true)
    (stands : pickers.flatName? scope key = some variableName) :
    ∀ c ∈ variableName, isWordChar c = true := by
  unfold Pickers.flatName? at stands
  split at stands
  · next resource _ =>
    obtain rfl := Option.some.inj stands
    exact (isForeign_resource resource).inside
  · obtain ⟨name, made, rfl⟩ := Option.map_eq_some_iff.mp stands
    exact isWordChar_of_mem_scopedName word fun c member =>
      isWordChar_of_isIdentifierChar (isIdentifierChar_of_mem made member)

/-- A word is other than what holds a dot. -/
theorem ne_of_dot {word text : List Char} (inside : ∀ c ∈ word, isWordChar c = true)
    (dot : '.' ∈ text) : word ≠ text := by
  rintro rfl
  exact absurd (inside '.' dot) (by decide)

theorem rewritesWords_accessorPass {scope : List Char} (word : ∀ c ∈ scope, isWordChar c = true)
    (object : List Char) (pickers : Pickers) :
    RewritesWords (accessorPass object scope pickers).traced
      (IsSettingAt object scope pickers) where
  fits := by
    rintro before text starts ⟨key, after, recognizes, -⟩
    rw [← accessorRule_of_startsWord starts] at recognizes
    exact ⟨_, after, congrArg (Option.map _) recognizes⟩
  stretch := by
    intro before text row after fits
    obtain ⟨key, original, recognizes, starts, rfl, accessor, rfl⟩ :=
      exists_key_of_accessorTrace fits
    refine ⟨starts, original, _, rfl, ?_⟩
    rw [accessorRule_of_startsWord starts] at recognizes
    have dot : '.' ∈ original := by
      obtain ⟨-, written, rfl, -⟩ := accessor
      simp
    constructor
    · intro changed
      refine ⟨key, after, recognizes, fun unnamed => changed ?_⟩
      rw [unnamed, Option.getD_none]
    · rintro ⟨other, rest, again, named⟩
      obtain ⟨rfl, -⟩ := Prod.mk.inj (Option.some.inj (recognizes.symm.trans again))
      obtain ⟨variableName, stands⟩ := Option.ne_none_iff_exists'.mp named
      rw [stands, Option.getD_some]
      exact ne_of_dot (isWordChar_of_mem_flatName? word stands) dot

theorem rewritesWords_memberPass {scope : List Char} (word : ∀ c ∈ scope, isWordChar c = true)
    (variableName : List Char) :
    RewritesWords (memberPass variableName (fieldVariable? scope)).traced
      (IsFieldAt variableName) where
  fits := by
    rintro before text starts ⟨name, after, rfl, isField, ends⟩
    have inside : ∀ c ∈ name, isWordChar c = true := by
      rcases isField with rfl | rfl <;> exact List.all_eq_true.mp (by decide)
    have value : fieldVariable? scope name = some (scopedName scope name) := if_pos isField
    have found : afterPrefix? (variableName ++ ['.']) (variableName ++ '.' :: (name ++ after)) =
        some (name ++ after) := by
      rw [List.append_cons variableName '.' (name ++ after)]
      exact Text.afterPrefix?_append _ _
    refine ⟨[.replaced (variableName ++ '.' :: name) (scopedName scope name)], after, ?_⟩
    simp only [memberPass, memberTrace, if_pos starts, found, Option.bind_eq_bind,
      Option.bind_some, Text.wordOf_append inside ends, Text.afterWord_append inside ends, value]
  stretch := by
    intro before text row after fits
    obtain ⟨starts, name, value, isValue, inside, ends, rfl, rfl⟩ := exists_name_of_memberTrace fits
    refine ⟨starts, _, _, rfl, ?_⟩
    unfold fieldVariable? at isValue
    split at isValue
    · next isField =>
      obtain rfl := Option.some.inj isValue
      have dot : '.' ∈ variableName ++ '.' :: name := by simp
      have changes := ne_of_dot (isWordChar_of_mem_scopedName word inside) dot
      exact iff_of_true changes ⟨name, after, rfl, isField, ends⟩
    · contradiction

/-- The rewriters of accessors spare the tails of longer paths and names exactly as far as they never
get to an accessor with a variable behind a joint: the rewriter of the section's settings in every
template, and in every copy of a body the rewriters of the settings and, behind it, of the fields of
the block. -/
theorem rewriters_spare_tails_iff (pickers : Pickers) :
    (∀ template, IsWordRewriting ((accessorPass sectionObject sectionScope pickers).trace template)
      template (flattenSettings pickers template)
      (IsSettingAt sectionObject sectionScope pickers)) ∧
    ∀ variableName index body, ∃ settings fields,
      copyFor variableName pickers index body =
        replaceAll (conditionRule index) (replaceAll (loopPropertyRule index) fields) ∧
      IsWordRewriting ((accessorPass variableName (blockScope index) pickers).trace body)
        body settings (IsSettingAt variableName (blockScope index) pickers) ∧
      IsWordRewriting ((memberPass variableName (fieldVariable? (blockScope index))).trace settings)
        settings fields (IsFieldAt variableName) := by
  constructor
  · intro template
    have inScope : ∀ c ∈ sectionScope, isWordChar c = true := List.all_eq_true.mp (by decide)
    exact isWordRewriting_trace (rewritesWords_accessorPass inScope sectionObject pickers)
      (traces_accessorTrace _ _ _) template
  · intro variableName index body
    have inScope := isWordChar_of_mem_blockScope index
    refine ⟨replaceAll (variableRule variableName (blockScope index) pickers) body, _, rfl, ?_, ?_⟩
    · exact isWordRewriting_trace (rewritesWords_accessorPass inScope variableName pickers)
        (traces_accessorTrace _ _ _) body
    · exact isWordRewriting_trace (rewritesWords_memberPass inScope variableName)
        (traces_blockFieldRule _ _) _

/-- The settings of a section that another object holds are taken for those of the section itself. -/
theorem flattenSettings_of_tail :
    let template := "\x7b\x7b other.section.settings.title \x7d\x7d".toList
    flattenSettings .empty template = "\x7b\x7b other.settings_title \x7d\x7d".toList ∧
      ¬ SparesTails ((accessorPass sectionObject sectionScope .empty).trace template) := by
  refine ⟨by decide +kernel, fun spares => ?_⟩
  refine spares "\x7b\x7b other.".toList ?_ (.inr (.dot "\x7b\x7b other".toList))
  refine ⟨Row.plain "\x7b\x7b other.".toList, Row.plain " \x7d\x7d".toList,
    "section.settings.title".toList, "settings_title".toList, ?_, rfl, by decide⟩
  rfl

/-- A copy of a body takes the tail of a name behind a dash for the loop's variable. -/
example :
    copyFor "block".toList .empty 0 "\x7b\x7b my-block.id \x7d\x7d".toList =
      "\x7b\x7b my-block_0_id \x7d\x7d".toList := by
  decide +kernel

end FlatLiquid
