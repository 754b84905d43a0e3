import FlatLiquid.Proofs.Schema.Location
import FlatLiquid.Schema.Parsing

/-!
Contract: what is left of a template without its schema blocks.

Owns:
- the texts that stay, and the seams between them, where a block was taken out;
- the blocks of the text that is left, each of which starts with a marker across a seam;
- when stripping leaves no schema behind.

Blocks are taken out in one pass. None of the texts that stay holds a block, but the end of one and the
beginning of the next can make up a marker.
-/

namespace FlatLiquid

/-! ## The texts that stay -/

theorem SchemaBlock.length_after_lt {template : List Char} {block : SchemaBlock}
    (found : find? template = some block) : block.after.length < template.length := by
  obtain ⟨rfl, isFirst⟩ := isFirst_of_find? found
  have opening := (opening_markerAt isFirst).brace isWord_schemaWord
  have closing := (closing_markerAt isFirst).brace isWord_endSchemaWord
  have whole := length_text block
  omega

/-- The texts before, between and after the schema blocks of a template. -/
def remainders (template : List Char) : List (List Char) :=
  match found : SchemaBlock.find? template with
  | none => [template]
  | some block =>
    have := SchemaBlock.length_after_lt found
    block.before :: remainders block.after
termination_by template.length

theorem remainders_ne_nil (template : List Char) : remainders template ≠ [] := by
  rw [remainders]
  split <;> simp

theorem remainders_of_find?_eq_none {template : List Char}
    (none : SchemaBlock.find? template = none) : remainders template = [template] := by
  rw [remainders]
  split
  · rfl
  · next found => rw [none] at found; contradiction

theorem remainders_of_find? {template : List Char} {block : SchemaBlock}
    (found : SchemaBlock.find? template = some block) :
    remainders template = block.before :: remainders block.after := by
  rw [remainders]
  split
  · next none => rw [found] at none; contradiction
  · next other same =>
    rw [found] at same
    rw [Option.some.inj same]

/-- A template is without a block, or its first block stands in front of a shorter template. -/
theorem template_induction {motive : List Char → Prop}
    (none : ∀ template, SchemaBlock.find? template = none → motive template)
    (some : ∀ template block, SchemaBlock.find? template = some block → motive block.after →
      motive template) (template : List Char) : motive template := by
  induction size : template.length using Nat.strongRecOn generalizing template with
  | ind count inductionHypothesis =>
    cases found : SchemaBlock.find? template with
    | none => exact none template found
    | some block =>
      have shorter := SchemaBlock.length_after_lt found
      apply some template block found
      exact inductionHypothesis block.after.length (size ▸ shorter) block.after rfl

/-- Stripping joins the texts that stay. -/
theorem stripSchema_eq_flatten (template : List Char) :
    stripSchema template = (remainders template).flatten := by
  induction template using template_induction with
  | none template free =>
    rw [stripSchema_of_find?_eq_none free, remainders_of_find?_eq_none free, List.flatten_singleton]
  | some template block found inductionHypothesis =>
    rw [stripSchema_of_find? found, remainders_of_find? found, inductionHypothesis, List.flatten_cons]

theorem length_stripSchema_le (template : List Char) :
    (stripSchema template).length ≤ template.length := by
  induction template using template_induction with
  | none template free => exact Nat.le_of_eq (congrArg _ (stripSchema_of_find?_eq_none free))
  | some template block found inductionHypothesis =>
    rw [stripSchema_of_find? found, List.length_append]
    obtain ⟨rfl, -⟩ := SchemaBlock.isFirst_of_find? found
    simp only [SchemaBlock.text, List.length_append]
    omega

/-! ## Seams -/

/-- An offset in the text that is left, at which a block was taken out. -/
def IsSeam (template : List Char) (offset : Nat) : Prop :=
  ∃ first second, remainders template = first ++ second ∧ first ≠ [] ∧ second ≠ [] ∧
    offset = first.flatten.length

/-- The first block leaves a seam, and the others leave theirs behind it. -/
theorem isSeam_of_find? {template : List Char} {block : SchemaBlock}
    (found : SchemaBlock.find? template = some block) :
    IsSeam template block.before.length ∧
      ∀ seam, IsSeam block.after seam → IsSeam template (block.before.length + seam) := by
  have parts := remainders_of_find? found
  constructor
  · refine ⟨[block.before], remainders block.after, parts, List.cons_ne_nil _ _,
      remainders_ne_nil block.after, ?_⟩
    rw [List.flatten_singleton]
  · rintro seam ⟨first, second, split, -, nonempty, rfl⟩
    refine ⟨block.before :: first, second, ?_, List.cons_ne_nil _ _, nonempty, ?_⟩
    · rw [parts, split, List.cons_append]
    · rw [List.flatten_cons, List.length_append]

/-- An opening marker with a closing marker behind it stands across a seam: before the first block
there is no opening marker, and behind the last one no block. -/
theorem exists_seam_of_markerAt {template : List Char} {start stop : Nat}
    (opening : MarkerAt schemaWord (stripSchema template) start stop)
    (closed : HasClosing (stripSchema template) stop) :
    ∃ seam, IsSeam template seam ∧ start < seam ∧ seam < stop := by
  induction template using template_induction generalizing start stop with
  | none template free =>
    rw [stripSchema_of_find?_eq_none free] at opening closed
    have holds := SchemaBlock.isSome_find?_of_markers opening closed
    rw [free] at holds
    contradiction
  | some template block found inductionHypothesis =>
    have isFirst := (SchemaBlock.isFirst_of_find? found).2
    obtain ⟨seamHere, seamsBehind⟩ := isSeam_of_find? found
    rw [stripSchema_of_find? found] at opening closed
    by_cases inside : stop ≤ block.before.length
    · exfalso
      exact not_markerAt_of_cutAtMarker? isWord_schemaWord isFirst.before start stop
        (opening.of_append_right inside)
    · by_cases behind : block.before.length ≤ start
      · obtain ⟨closingStart, closingStop, closing, order⟩ := closed
        have openingBehind := opening.of_append_left behind
        have closingBehind := closing.of_append_left (Nat.le_trans (by omega) order)
        obtain ⟨seam, isSeam, above, below⟩ :=
          inductionHypothesis openingBehind ⟨_, _, closingBehind, by omega⟩
        exact ⟨_, seamsBehind seam isSeam, by omega, by omega⟩
      · exact ⟨_, seamHere, by omega, by omega⟩

/-! ## No schema left behind -/

theorem stripSchema_eq_self_iff (template : List Char) :
    stripSchema template = template ↔ SchemaBlock.find? template = none := by
  constructor
  · intro same
    apply Option.eq_none_iff_forall_ne_some.mpr
    intro block found
    have bound := length_stripSchema_le block.after
    rw [stripSchema_of_find? found] at same
    obtain ⟨rfl, isFirst⟩ := SchemaBlock.isFirst_of_find? found
    have opening := (SchemaBlock.opening_markerAt isFirst).brace isWord_schemaWord
    have sizes := congrArg List.length same
    simp only [SchemaBlock.text, SchemaBlock.span, List.length_append] at sizes opening
    omega
  · exact stripSchema_of_find?_eq_none

/-- The text that is left holds no schema block, so that stripping it again changes nothing, exactly if
no opening marker across a seam has a closing marker behind it. No schema is then read from it. -/
theorem find?_stripSchema_eq_none_iff (template : List Char) :
    stripSchema template = (remainders template).flatten ∧
      (SchemaBlock.find? (stripSchema template) = none ↔
        ∀ start stop, MarkerAt schemaWord (stripSchema template) start stop →
          HasClosing (stripSchema template) stop →
          ¬ ∃ seam, IsSeam template seam ∧ start < seam ∧ seam < stop) ∧
      (SchemaBlock.find? (stripSchema template) = none ↔
        stripSchema (stripSchema template) = stripSchema template) ∧
      (SchemaBlock.find? (stripSchema template) = none →
        Schema.ofTemplate? (stripSchema template) = none) := by
  refine ⟨stripSchema_eq_flatten template, ?_, (stripSchema_eq_self_iff _).symm, ?_⟩
  · constructor
    · intro none start stop opening closed _
      have holds := SchemaBlock.isSome_find?_of_markers opening closed
      rw [none] at holds
      contradiction
    · intro apart
      apply Option.not_isSome_iff_eq_none.mp
      intro holds
      obtain ⟨start, stop, opening, closed⟩ := (SchemaBlock.isSome_find?_iff _).mp holds
      exact apart start stop opening closed (exists_seam_of_markerAt opening closed)
  · intro none
    rw [Schema.ofTemplate?, Schema.read, none]

/-- A block between the two halves of an opening marker is taken out, and the halves make up the
marker of another block. -/
theorem stripSchema_leaves_schema :
    let template := ("\x7b% sche\x7b% schema %\x7d\x7b% endschema %\x7dma %\x7d" ++
      "\x7b\"name\":\"S\"\x7d\x7b% endschema %\x7d").toList
    SchemaBlock.find? (stripSchema template) ≠ none ∧
      stripSchema (stripSchema template) ≠ stripSchema template ∧
      Schema.ofTemplate? (stripSchema template) ≠ none := by
  intro template
  have left : stripSchema template =
      "\x7b% schema %\x7d\x7b\"name\":\"S\"\x7d\x7b% endschema %\x7d".toList := by decide +kernel
  rw [left]
  have read : (Schema.ofTemplate?
      "\x7b% schema %\x7d\x7b\"name\":\"S\"\x7d\x7b% endschema %\x7d".toList).isSome = true := by
    decide +kernel
  refine ⟨by decide +kernel, by decide +kernel, ?_⟩
  exact Option.isSome_iff_ne_none.mp read

end FlatLiquid
