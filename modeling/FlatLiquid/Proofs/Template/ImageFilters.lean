import FlatLiquid.Proofs.Template.FilterChains
import FlatLiquid.Proofs.Template.ImageArguments
import FlatLiquid.Proofs.Template.OutputTags
import FlatLiquid.Proofs.Text.Rows

/-!
Contract: a template without the image filters of flat variables.

Owns:
- the subject and the filters of an output tag, and whether it applies an image filter to a flat
  variable;
- what takes the place of such a tag, and which tag is left there;
- the output tags of the template after, which are those of the template before, each without its
  image filters.

Key step: of an element or a shorter chain, exactly the tag that is left in it is read as a tag, and
no opening braces arise where it meets the text around it.
-/

namespace FlatLiquid

open Text (Rule Row Traces CoversRow traceFrom replaceFrom findFrom findAll IsTrimmed)

/-! ## Chains of tags -/

/-- The subject of a tag and its filters, without the blanks around them. -/
def OutputTag.chain (tag : OutputTag) : List (List Char) :=
  trimmedParts tag.inner

def OutputTag.subject (tag : OutputTag) : List Char :=
  tag.chain.headD []

def OutputTag.filters (tag : OutputTag) : List (List Char) :=
  tag.chain.tail

/-- The tag puts a flat variable through a filter that makes an address of an image. -/
def OutputTag.appliesImageFilter (tag : OutputTag) : Bool :=
  isFlatVariable tag.subject && tag.filters.any isImageFilter

/-- The last filter makes an element. -/
def OutputTag.endsInImageTag (tag : OutputTag) : Bool :=
  tag.filters.getLast?.any isImageTag

/-- The filters that make no address of an image. -/
def OutputTag.otherFilters (tag : OutputTag) : List (List Char) :=
  tag.filters.filter fun filter => !isImageFilter filter

theorem OutputTag.chain_eq (tag : OutputTag) : tag.chain = tag.subject :: tag.filters := by
  have nonempty : tag.chain ≠ [] := by
    rw [chain, trimmedParts, Ne, List.map_eq_nil_iff]
    exact splitFiltersFrom_ne_nil none tag.inner
  obtain ⟨first, rest, shape⟩ := List.exists_cons_of_ne_nil nonempty
  rw [subject, filters, shape]
  rfl

/-- The filters that are left of a chain with an image filter. One that makes an element leaves only
the variable. -/
def OutputTag.keptFilters (tag : OutputTag) : List (List Char) :=
  if tag.endsInImageTag then [] else tag.otherFilters

/-- The tag that is left of a tag. -/
def OutputTag.stripped (tag : OutputTag) : OutputTag :=
  if tag.appliesImageFilter then
    { tag with inner := spacedChain (tag.subject :: tag.keptFilters) }
  else tag

/-- What takes the place of a tag. -/
def OutputTag.replacement (tag : OutputTag) : List Char :=
  tag.withoutImageFilters?.getD tag.text

theorem OutputTag.replacement_of_unapplied {tag : OutputTag}
    (unapplied : tag.appliesImageFilter = false) : tag.replacement = tag.text := by
  have chain : (splitFilters tag.inner).map Text.trim = tag.subject :: tag.filters := tag.chain_eq
  have unfit : ¬ (isFlatVariable tag.subject && tag.filters.any isImageFilter) = true := by
    rw [← appliesImageFilter, unapplied]
    decide
  rw [replacement, withoutImageFilters?, chain]
  simp only [if_neg unfit]
  rfl

theorem OutputTag.replacement_of_element {tag : OutputTag} {last : List Char}
    (applies : tag.appliesImageFilter = true) (isLast : tag.filters.getLast? = some last)
    (isTag : isImageTag last = true) :
    tag.replacement = imageElement (tag.around tag.subject) last := by
  have chain : (splitFilters tag.inner).map Text.trim = tag.subject :: tag.filters := tag.chain_eq
  rw [appliesImageFilter] at applies
  rw [replacement, withoutImageFilters?, chain]
  simp only [if_pos applies, isLast, if_pos isTag]
  rfl

theorem OutputTag.replacement_of_chain {tag : OutputTag}
    (applies : tag.appliesImageFilter = true) (noElement : tag.endsInImageTag = false) :
    tag.replacement =
      tag.around (List.intercalate " | ".toList (tag.subject :: tag.otherFilters)) := by
  have chain : (splitFilters tag.inner).map Text.trim = tag.subject :: tag.filters := tag.chain_eq
  rw [appliesImageFilter] at applies
  obtain ⟨last, isLast⟩ : ∃ last, tag.filters.getLast? = some last := by
    cases shape : tag.filters with
    | nil => simp [shape] at applies
    | cons first rest => exact ⟨_, List.getLast?_eq_some_getLast (List.cons_ne_nil first rest)⟩
  have noTag : ¬ isImageTag last = true := by
    rw [endsInImageTag, isLast] at noElement
    simpa using noElement
  rw [replacement, withoutImageFilters?, chain]
  simp only [if_pos applies, isLast, if_neg noTag]
  rfl

/-! ## The tag that is left -/

theorem OutputTag.isTrimmed_of_mem_chain {tag : OutputTag} :
    ∀ part ∈ tag.chain, IsTrimmed part :=
  fun _ => isTrimmed_of_mem_trimmedParts

/-- Any filters may be left out of the chain. -/
theorem OutputTag.trimmedParts_of_sublist {tag : OutputTag} {kept : List (List Char)}
    (sublist : kept.Sublist tag.filters) :
    trimmedParts (spacedChain (tag.subject :: kept)) = tag.subject :: kept := by
  have within : (tag.subject :: kept).Sublist tag.chain := by
    rw [tag.chain_eq]
    exact sublist.cons_cons tag.subject
  refine trimmedParts_spacedChain ?_ fun part member =>
    tag.isTrimmed_of_mem_chain part (within.subset member)
  exact (isChain_trimmedParts tag.inner).sublist within (List.cons_ne_nil _ _)

/-- What is left of a content without a word holds it neither, if it has no space and no bar. -/
theorem OutputTag.not_infix_spacedChain {tag : OutputTag} {kept : List (List Char)}
    {word : List Char} (sublist : kept.Sublist tag.filters) (noSpace : ' ' ∉ word)
    (noBar : '|' ∉ word) (free : ¬ word <:+: tag.inner) :
    ¬ word <:+: spacedChain (tag.subject :: kept) := by
  intro within
  obtain ⟨part, member, inside⟩ :=
    exists_part_of_infix_spacedChain (List.cons_ne_nil _ _) noSpace noBar within
  have ofChain : part ∈ tag.chain := by
    rw [tag.chain_eq]
    exact (sublist.cons_cons tag.subject).subset member
  exact free (inside.trans (infix_of_mem_trimmedParts ofChain))

theorem OutputTag.stripped_of_unapplied {tag : OutputTag}
    (unapplied : tag.appliesImageFilter = false) : tag.stripped = tag := by
  rw [stripped, unapplied]
  rfl

theorem OutputTag.keptFilters_sublist (tag : OutputTag) :
    tag.keptFilters.Sublist tag.filters := by
  rw [keptFilters]
  split
  · exact List.nil_sublist _
  · exact List.filter_sublist

theorem OutputTag.stripped_of_applied {tag : OutputTag} (applies : tag.appliesImageFilter = true) :
    tag.stripped =
      ⟨tag.openDash, spacedChain (tag.subject :: tag.keptFilters), tag.closeDash⟩ := by
  rw [stripped, if_pos applies]

theorem OutputTag.chain_stripped {tag : OutputTag} (applies : tag.appliesImageFilter = true) :
    tag.stripped.chain = tag.subject :: tag.keptFilters := by
  rw [stripped_of_applied applies]
  exact trimmedParts_of_sublist tag.keptFilters_sublist

/-- No image filter of a flat variable is left. -/
theorem OutputTag.appliesImageFilter_stripped (tag : OutputTag) :
    tag.stripped.appliesImageFilter = false := by
  by_cases applies : tag.appliesImageFilter = true
  · have kept : tag.keptFilters.any isImageFilter = false := by
      rw [keptFilters]
      split
      · rfl
      · simp [otherFilters]
    rw [appliesImageFilter, subject, filters, chain_stripped applies]
    exact (congrArg _ kept).trans (Bool.and_false _)
  · rw [stripped_of_unapplied (eq_false_of_ne_true applies)]
    exact eq_false_of_ne_true applies

/-! ## Reading the template after -/

/-- A shorter chain in the braces of the tag is read as the tag with that chain. -/
theorem outputTag?_shortened {tag : OutputTag} {kept : List (List Char)}
    (unclosed : ¬ closingBraces <:+: tag.inner) (sublist : kept.Sublist tag.filters)
    (rest : List Char) :
    outputTag? none (tag.around (List.intercalate " | ".toList (tag.subject :: kept)) ++ rest) =
      some (⟨tag.openDash, spacedChain (tag.subject :: kept), tag.closeDash⟩, rest) := by
  apply outputTag?_around
  intro within
  refine OutputTag.not_infix_spacedChain sublist (by decide) (by decide) unclosed ?_
  exact within.trans ⟨[' '], [' '], rfl⟩

theorem not_opening_infix_classText {className : Option (List Char)}
    (unopened : ∀ value ∈ className, ¬ openingBraces <:+: value) :
    ¬ openingBraces <:+: classText className := by
  cases className with
  | none => decide
  | some value =>
    intro within
    rw [classText, List.append_assoc] at within
    have outside : '\x7b' ∉ classOpening := by decide
    have inValue := Text.infix_of_infix_append outside within
    rcases Text.infix_of_infix_around (by decide) inValue with here | nothing
    · exact unopened value rfl here
    · exact absurd nothing (by decide)

/-- The attributes behind the reference of an element hold no tag. -/
theorem findAll_attributesText {alt : List Char} {className : Option (List Char)}
    (unopenedAlt : ¬ openingBraces <:+: alt)
    (unopenedClass : ∀ value ∈ className, ¬ openingBraces <:+: value) (rest : List Char) :
    findAll outputTag? (attributesText alt className ++ rest) = findAll outputTag? rest := by
  have parts : attributesText alt className ++ rest =
      (altOpening ++ (alt ++ '"' :: classText className)) ++ '>' :: rest := by
    rw [attributesText]
    simp only [List.append_assoc, List.cons_append, List.nil_append]
  rw [parts]
  refine findAll_append_of_unopened (by decide) (fun within => ?_) rest
  have outside : '\x7b' ∉ altOpening := by decide
  have behindName := Text.infix_of_infix_append outside within
  rcases Text.infix_of_infix_around (by decide) behindName with inAlt | inClass
  · exact unopenedAlt inAlt
  · exact not_opening_infix_classText unopenedClass inClass

theorem findAll_imageElement {tag : OutputTag} {last : List Char}
    (unclosed : ¬ closingBraces <:+: tag.inner) (unopened : ¬ openingBraces <:+: last)
    (rest : List Char) :
    findAll outputTag? (imageElement (tag.around tag.subject) last ++ rest) =
      ⟨tag.openDash, spacedChain [tag.subject], tag.closeDash⟩ :: findAll outputTag? rest := by
  have reference := findAll_of_read (outputTag?_shortened unclosed (List.nil_sublist tag.filters)
    (attributesText (carriedAlt last) (carriedClass? last) ++ rest))
  rw [List.intercalate_singleton, findAll_attributesText] at reference
  · rw [imageElement_eq, List.append_assoc, findAll_append_of_outside (by decide),
      List.append_assoc, reference]
  · exact fun within => unopened (within.trans (isInfix_carriedAlt last))
  · exact fun value carried within => unopened (within.trans (isInfix_carriedClass? carried))

/-- Where a tag stood, exactly the tag that is left of it is found. -/
theorem findAll_replacement {before : Option Char} {text after : List Char} {tag : OutputTag}
    (read : outputTag? before text = some (tag, after)) (unopened : ¬ openingBraces <:+: tag.inner)
    (rest : List Char) :
    findAll outputTag? (tag.replacement ++ rest) = tag.stripped :: findAll outputTag? rest := by
  have unclosed := not_closing_infix_of_outputTag? read
  cases applies : tag.appliesImageFilter with
  | false =>
    rw [OutputTag.replacement_of_unapplied applies, OutputTag.stripped_of_unapplied applies]
    exact findAll_of_read (outputTag?_of_read read none rest)
  | true =>
    rw [OutputTag.stripped_of_applied applies, OutputTag.keptFilters]
    cases element : tag.endsInImageTag with
    | false =>
      rw [OutputTag.replacement_of_chain applies element]
      exact findAll_of_read (outputTag?_shortened unclosed List.filter_sublist rest)
    | true =>
      obtain ⟨last, isLast, isTag⟩ := (Option.any_eq_true _ _).mp element
      rw [OutputTag.replacement_of_element applies isLast isTag]
      refine findAll_imageElement unclosed (fun within => unopened (within.trans ?_)) rest
      apply infix_of_mem_trimmedParts
      rw [← OutputTag.chain, tag.chain_eq]
      exact List.mem_cons_of_mem _ (List.mem_of_getLast? isLast)

/-! ## The pass over a template -/

/-- The tags of a text are replaced, each as `becomes` says, and everything else is kept. -/
inductive ReplacesTags (becomes : OutputTag → List Char → Prop) : List Char → List Char → Prop
  | nil : ReplacesTags becomes [] []
  | kept {c : Char} {rest output : List Char} (unread : outputTag? none (c :: rest) = none)
      (more : ReplacesTags becomes rest output) : ReplacesTags becomes (c :: rest) (c :: output)
  | replaced {text after replacement output : List Char} {tag : OutputTag}
      (read : outputTag? none text = some (tag, after)) (isReplacement : becomes tag replacement)
      (more : ReplacesTags becomes after output) : ReplacesTags becomes text (replacement ++ output)

theorem ReplacesTags.mono {becomes other : OutputTag → List Char → Prop} {text output : List Char}
    (replaces : ReplacesTags becomes text output)
    (weaker : ∀ {text after tag replacement}, outputTag? none text = some (tag, after) →
      becomes tag replacement → other tag replacement) : ReplacesTags other text output := by
  induction replaces with
  | nil => exact .nil
  | kept unread _ inductionHypothesis => exact .kept unread inductionHypothesis
  | replaced read isReplacement _ inductionHypothesis =>
    exact .replaced read (weaker read isReplacement) inductionHypothesis

/-- The rule that tells which tag it replaces, and by what. -/
def imageFilterTrace : Rule Row := fun before text =>
  (outputTag? before text).map fun (tag, after) => ([.replaced tag.text tag.replacement], after)

theorem traces_imageFilterRule : Traces imageFilterTrace imageFilterRule := by
  intro before text
  rw [imageFilterRule, imageFilterTrace]
  cases read : outputTag? before text with
  | none => rfl
  | some found =>
    obtain ⟨tag, after⟩ := found
    have written : recognized text after = tag.text := by
      rw [eq_append_of_outputTag? read, recognized_append]
    simp only [Option.map_some, written]
    simp [OutputTag.replacement, Text.Part.output]

theorem exists_tag_of_imageFilterTrace {before : Option Char} {text after : List Char} {row : Row}
    (fits : imageFilterTrace before text = some (row, after)) :
    ∃ tag, outputTag? none text = some (tag, after) ∧
      row = [.replaced tag.text tag.replacement] := by
  obtain ⟨⟨tag, rest⟩, read, same⟩ := Option.map_eq_some_iff.mp fits
  obtain ⟨rfl, rfl⟩ := Prod.mk.inj same
  rw [outputTag?_before] at read
  exact ⟨tag, read, rfl⟩

theorem coversRow_imageFilterTrace : CoversRow imageFilterTrace := by
  intro before text row after fits
  obtain ⟨tag, read, rfl⟩ := exists_tag_of_imageFilterTrace fits
  have original : Row.original [.replaced tag.text tag.replacement] = tag.text := by
    simp [Text.Part.original]
  rw [original]
  exact ⟨eq_append_of_outputTag? read, tag.text_ne_nil⟩

/-- Stripping replaces each tag in its turn. -/
theorem replacesTags_stripImageFilters (template : List Char) :
    ReplacesTags (fun tag replacement => replacement = tag.replacement) template
      (stripImageFilters template) := by
  rw [stripImageFilters, ← traces_imageFilterRule.output_traceAll, Text.traceAll]
  generalize (none : Option Char) = before
  induction before, template using Text.traceFrom_induction coversRow_imageFilterTrace with
  | nil before => exact .nil
  | fit before row rest nonempty fits inductionHypothesis =>
    obtain ⟨tag, read, rfl⟩ := exists_tag_of_imageFilterTrace fits
    rw [Row.output_append]
    exact .replaced read (List.append_nil _) inductionHypothesis
  | kept before c rest unfit inductionHypothesis =>
    have unread : outputTag? none (c :: rest) = none := by
      rw [← outputTag?_before before]
      exact Option.map_eq_none_iff.mp unfit
    exact .kept unread inductionHypothesis

section Tags

variable {text output : List Char}
  (replaces : ReplacesTags (fun tag replacement => replacement = tag.replacement) text output)

include replaces

/-- An opening brace at the front of the output was there before. -/
theorem ReplacesTags.head?_of_head?_output (opens : output.head? = some '\x7b') :
    text.head? = some '\x7b' := by
  cases replaces with
  | nil => contradiction
  | kept _ _ => exact opens
  | replaced read _ _ =>
    rw [eq_append_of_outputTag? read]
    rfl

/-- A text without closing braces is kept. -/
theorem ReplacesTags.eq_of_unclosed (unclosed : ¬ closingBraces <:+: text) : output = text := by
  induction replaces with
  | nil => rfl
  | kept _ _ inductionHypothesis =>
    rw [inductionHypothesis fun within => unclosed (List.infix_cons_iff.mpr (.inr within))]
  | replaced read _ _ _ =>
    rw [outputTag?_eq_none_of_unclosed none unclosed] at read
    contradiction

/-- The tags of the output are those that are left of the tags before. -/
theorem ReplacesTags.findAll_output
    (unopened : ∀ tag ∈ findAll outputTag? text, ¬ openingBraces <:+: tag.inner) :
    findAll outputTag? output = (findAll outputTag? text).map OutputTag.stripped := by
  induction replaces with
  | nil => rfl
  | @replaced text after _ output tag read isReplacement _ inductionHypothesis =>
    rw [findAll_of_read read] at unopened ⊢
    have later := inductionHypothesis fun other member =>
      unopened other (List.mem_cons_of_mem tag member)
    rw [isReplacement, List.map_cons, ← later]
    exact findAll_replacement read (unopened tag List.mem_cons_self) output
  | @kept c rest output unread more inductionHypothesis =>
    rw [findAll_of_unread unread] at unopened ⊢
    have stillUnread : outputTag? none (c :: output) = none := by
      -- braces that open a tag now opened none before, and then no tag follows that could change
      by_cases opened : openingBraces <+: c :: rest
      · obtain ⟨behind, same⟩ := opened
        obtain ⟨rfl, tail⟩ := List.cons.inj same
        obtain rfl : rest = '\x7b' :: behind := tail.symm
        have notBehind := not_closing_infix_of_unread unread
        have unclosed : ¬ closingBraces <:+: '\x7b' :: behind := fun within =>
          notBehind (Text.infix_of_infix_cons (by decide) within)
        rw [more.eq_of_unclosed unclosed]
        exact unread
      · apply outputTag?_eq_none_of_unopened
        rintro ⟨behind, same⟩
        obtain ⟨rfl, tail⟩ := List.cons.inj same
        have opens := more.head?_of_head?_output (congrArg List.head? tail.symm)
        obtain ⟨after, rfl⟩ := List.head?_eq_some_iff.mp opens
        exact opened ⟨after, rfl⟩
    rw [← inductionHypothesis unopened]
    exact findAll_of_unread stillUnread

/-- A text in which no tag applies an image filter to a flat variable is kept. -/
theorem ReplacesTags.eq_of_unapplied
    (unapplied : ∀ tag ∈ findAll outputTag? text, tag.appliesImageFilter = false) :
    output = text := by
  induction replaces with
  | nil => rfl
  | @replaced text after _ output tag read isReplacement _ inductionHypothesis =>
    rw [findAll_of_read read] at unapplied
    have later := inductionHypothesis fun other member =>
      unapplied other (List.mem_cons_of_mem tag member)
    rw [isReplacement, OutputTag.replacement_of_unapplied (unapplied tag List.mem_cons_self), later,
      eq_append_of_outputTag? read]
  | kept unread _ inductionHypothesis =>
    rw [findAll_of_unread unread] at unapplied
    rw [inductionHypothesis unapplied]

end Tags

/-! ## Stripped templates -/

/-- What takes the place of a tag. If the tag applies no image filter to a flat variable, it stays as
it is written. If it does and makes no element, a tag with the same dashes does, whose chain has lost
its image filters and nothing else. -/
structure StripsTag (tag : OutputTag) (replacement : List Char) : Prop where
  unchanged : tag.appliesImageFilter = false → replacement = tag.text
  shortened : tag.appliesImageFilter = true → tag.endsInImageTag = false →
    ∃ left : OutputTag, outputTag? none replacement = some (left, []) ∧
      left.openDash = tag.openDash ∧ left.closeDash = tag.closeDash ∧
      left.chain = tag.subject :: tag.otherFilters

theorem stripsTag_replacement {text after : List Char} {tag : OutputTag}
    (read : outputTag? none text = some (tag, after)) : StripsTag tag tag.replacement where
  unchanged := OutputTag.replacement_of_unapplied
  shortened := by
    intro applies noElement
    have sublist : tag.otherFilters.Sublist tag.filters := List.filter_sublist
    have left := outputTag?_shortened (not_closing_infix_of_outputTag? read) sublist []
    rw [List.append_nil, ← OutputTag.replacement_of_chain applies noElement] at left
    exact ⟨_, left, rfl, rfl, OutputTag.trimmedParts_of_sublist sublist⟩

/-- A template is stripped of its image filters: its tags are replaced and nothing else, no tag that
is left applies an image filter to a flat variable, and stripping again changes nothing. -/
structure IsStripped (template stripped : List Char) : Prop where
  replaces : ReplacesTags StripsTag template stripped
  removed : ∀ tag ∈ findAll outputTag? stripped, isFlatVariable tag.subject = true →
    ∀ filter ∈ tag.filters, isImageFilter filter = false
  settled : stripImageFilters stripped = stripped

/-- Image filters of flat variables are removed completely and once. -/
theorem isStripped_stripImageFilters {template : List Char}
    (unopened : ∀ tag ∈ findAll outputTag? template, ¬ openingBraces <:+: tag.inner) :
    IsStripped template (stripImageFilters template) := by
  have replaces := replacesTags_stripImageFilters template
  have unapplied : ∀ tag ∈ findAll outputTag? (stripImageFilters template),
      tag.appliesImageFilter = false := by
    rw [replaces.findAll_output unopened]
    intro tag member
    obtain ⟨before, -, rfl⟩ := List.mem_map.mp member
    exact before.appliesImageFilter_stripped
  refine ⟨replaces.mono ?_, ?_, ?_⟩
  · rintro _ _ tag _ read rfl
    exact stripsTag_replacement read
  · intro tag member flat
    have none := unapplied tag member
    rw [OutputTag.appliesImageFilter, flat, Bool.true_and, List.any_eq_false] at none
    exact fun filter isFilter => eq_false_of_ne_true (none filter isFilter)
  · exact (replacesTags_stripImageFilters _).eq_of_unapplied unapplied

/-- A bar inside quotes separates no filters, and the dashes are kept. -/
theorem isStripped_stripImageFilters_of_quotedBar :
    let template := "\x7b\x7b- settings_a | img_url: 'x|y' | append: '|' -\x7d\x7d".toList
    (∀ tag ∈ findAll outputTag? template, ¬ openingBraces <:+: tag.inner) ∧
      stripImageFilters template = "\x7b\x7b- settings_a | append: '|' -\x7d\x7d".toList ∧
      IsStripped template (stripImageFilters template) := by
  intro template
  have unopened : ∀ tag ∈ findAll outputTag? template, ¬ openingBraces <:+: tag.inner := by
    decide +kernel
  exact ⟨unopened, by decide +kernel, isStripped_stripImageFilters unopened⟩

end FlatLiquid
