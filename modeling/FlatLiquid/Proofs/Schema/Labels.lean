import FlatLiquid.Proofs.Text.Uppercase
import FlatLiquid.Schema.Labels

/-!
Contract: labels are settled once they are in place.

Owns:
- the first character of a title, and the part of a key that holds the mark of locale keys;
- labels, none of which is a locale key;
- settings, block types and schemas without the texts of their labels, which are all that changes.

A title starts with an upper case, and no upper case holds a small letter. Where no title is made,
the key itself is the label, and its first part would tell something if it began with the mark.
-/

namespace FlatLiquid

open Text (afterPrefix? uppercase split)

/-! ## Titles -/

/-- A title is empty or starts with the upper case of a character. -/
theorem titleCase_cases (part : List Char) :
    titleCase part = [] ∨ ∃ first rest, titleCase part = uppercase first ++ rest := by
  unfold titleCase
  cases words : (split '_' part).filter fun word => !word.isEmpty with
  | nil => exact .inl rfl
  | cons word others =>
    have member : word ∈ (split '_' part).filter fun word => !word.isEmpty := by
      rw [words]
      exact List.mem_cons_self
    have nonempty := (List.mem_filter.mp member).2
    cases word with
    | nil => contradiction
    | cons first rest =>
      right
      cases others with
      | nil => exact ⟨first, _, List.append_assoc (uppercase first) rest _⟩
      | cons second more => exact ⟨first, _, List.append_assoc (uppercase first) rest _⟩

/-- No text that starts with an upper case is a locale key, and neither is an empty one. -/
theorem afterPrefix?_titleCase (part : List Char) :
    afterPrefix? localeMark (titleCase part) = none := by
  rcases titleCase_cases part with empty | ⟨first, rest, starts⟩
  · rw [empty]
    rfl
  · cases upper : uppercase first with
    | nil => exact absurd upper (Text.uppercase_ne_nil first)
    | cons c more =>
      have capital : c.isLower = false := by
        refine Text.not_isLower_of_mem_uppercase (c := first) ?_
        rw [upper]
        exact List.mem_cons_self
      have notMark : ¬ 't' = c := by
        rintro rfl
        exact absurd capital (by decide)
      rw [starts, upper, List.cons_append, localeMark, afterPrefix?, if_neg notMark]

/-! ## Parts of a key -/

theorem split_ne_nil (separator : Char) (text : List Char) : split separator text ≠ [] := by
  cases text with
  | nil => exact List.cons_ne_nil _ _
  | cons c rest =>
    rw [split]
    split
    · exact List.cons_ne_nil _ _
    · split <;> exact List.cons_ne_nil _ _

/-- A character that is no separator stands in the first part. -/
theorem exists_split_cons {separator c : Char} (rest : List Char) (other : c ≠ separator) :
    ∃ part others, split separator (c :: rest) = (c :: part) :: others ∧
      split separator rest = part :: others := by
  obtain ⟨part, others, parts⟩ := List.exists_cons_of_ne_nil (split_ne_nil separator rest)
  refine ⟨part, others, ?_, parts⟩
  rw [split, if_neg other, parts]

/-- No structural word holds a colon. -/
theorem colon_not_mem_structuralWords : ∀ word ∈ structuralWords, ':' ∉ word := by
  decide

/-- A key that is marked again has a part that tells something. -/
theorem tellingPart?_ne_none {key rest : List Char}
    (marked : afterPrefix? localeMark key = some rest) : tellingPart? key ≠ none := by
  obtain rfl := Text.eq_append_of_afterPrefix? marked
  obtain ⟨part, others, withMark, parts⟩ :=
    exists_split_cons (':' :: rest) (show 't' ≠ '.' by decide)
  obtain ⟨inner, _, withColon, _⟩ := exists_split_cons rest (show ':' ≠ '.' by decide)
  obtain rfl := (List.cons.inj (parts.symm.trans withColon)).1
  have member : 't' :: ':' :: inner ∈ (split '.' (localeMark ++ rest)).reverse := by
    rw [List.mem_reverse]
    change _ ∈ split '.' ('t' :: ':' :: rest)
    rw [withMark]
    exact List.mem_cons_self
  have unstructural : 't' :: ':' :: inner ∉ structuralWords := fun structural =>
    colon_not_mem_structuralWords _ structural (by simp)
  have unnumbered : isNumberedOption ('t' :: ':' :: inner) = false := rfl
  intro nothing
  have structural := List.find?_eq_none.mp nothing _ member
  simp [unstructural, unnumbered] at structural

/-! ## Labels -/

/-- A label is never a locale key. -/
theorem afterPrefix?_labelOf (text : List Char) :
    afterPrefix? localeMark (labelOf text) = none := by
  unfold labelOf
  split
  · next plain => exact plain
  · next key _ =>
    split
    · next part _ => exact afterPrefix?_titleCase part
    · next nothing =>
      cases marked : afterPrefix? localeMark key with
      | none => rfl
      | some rest => exact absurd nothing (tellingPart?_ne_none marked)

theorem labelOf_labelOf (text : List Char) : labelOf (labelOf text) = labelOf text := by
  rw [labelOf, afterPrefix?_labelOf]

theorem not_localeMark_prefix_labelOf (text : List Char) : ¬ localeMark <+: labelOf text := by
  rintro ⟨rest, marked⟩
  have none := afterPrefix?_labelOf text
  rw [← marked, Text.afterPrefix?_append] at none
  contradiction

theorem resolveLabel_resolveLabel (text : String) :
    resolveLabel (resolveLabel text) = resolveLabel text := by
  unfold resolveLabel
  rw [String.toList_ofList, labelOf_labelOf]

theorem Choice.resolveLabels_resolveLabels (choice : Choice) :
    choice.resolveLabels.resolveLabels = choice.resolveLabels := by
  unfold Choice.resolveLabels
  rw [resolveLabel_resolveLabel]

theorem Setting.resolveLabels_resolveLabels (setting : Setting) :
    setting.resolveLabels.resolveLabels = setting.resolveLabels := by
  have twice : resolveLabel ∘ resolveLabel = resolveLabel := funext resolveLabel_resolveLabel
  have choices : Choice.resolveLabels ∘ Choice.resolveLabels = Choice.resolveLabels :=
    funext Choice.resolveLabels_resolveLabels
  unfold Setting.resolveLabels
  simp only [resolveLabel_resolveLabel, Option.map_map, List.map_map, twice, choices]

theorem Setting.resolveLabels_comp :
    Setting.resolveLabels ∘ Setting.resolveLabels = Setting.resolveLabels :=
  funext Setting.resolveLabels_resolveLabels

theorem BlockType.resolveLabels_resolveLabels (block : BlockType) :
    block.resolveLabels.resolveLabels = block.resolveLabels := by
  unfold BlockType.resolveLabels
  simp only [resolveLabel_resolveLabel, List.map_map, Setting.resolveLabels_comp]

theorem BlockType.resolveLabels_comp :
    BlockType.resolveLabels ∘ BlockType.resolveLabels = BlockType.resolveLabels :=
  funext BlockType.resolveLabels_resolveLabels

theorem Schema.resolveLabels_resolveLabels (schema : Schema) :
    schema.resolveLabels.resolveLabels = schema.resolveLabels := by
  unfold Schema.resolveLabels
  simp only [resolveLabel_resolveLabel, List.map_map, Setting.resolveLabels_comp,
    BlockType.resolveLabels_comp]

/-- The settings that an editor shows are the same with and without labels in place. -/
theorem Schema.labelledSettings_resolveLabels (schema : Schema) :
    schema.resolveLabels.labelledSettings = schema.labelledSettings := by
  have sameIds : (fun setting : Setting => !setting.id.isEmpty) ∘ Setting.resolveLabels =
      fun setting => !setting.id.isEmpty := rfl
  unfold Schema.labelledSettings Schema.resolveLabels
  rw [List.filter_map, List.map_map, Setting.resolveLabels_comp, sameIds]

theorem Schema.labelledBlocks_resolveLabels (schema : Schema) :
    schema.resolveLabels.labelledBlocks = schema.labelledBlocks := by
  unfold Schema.labelledBlocks Schema.resolveLabels
  rw [List.map_map, BlockType.resolveLabels_comp]

/-! ## What labels leave alone -/

def Choice.withoutLabels (choice : Choice) : Choice :=
  { choice with label := "" }

/-- The setting with nothing in place of the text of a label. Whether there is one still shows. -/
def Setting.withoutLabels (setting : Setting) : Setting :=
  { setting with
    label := ""
    info := setting.info.map fun _ => ""
    placeholder := setting.placeholder.map fun _ => ""
    options := setting.options.map Choice.withoutLabels }

def BlockType.withoutLabels (block : BlockType) : BlockType :=
  { block with
    name := ""
    settings := block.settings.map Setting.withoutLabels }

/-- The schema with nothing in place of the text of a label. -/
def Schema.withoutLabels (schema : Schema) : Schema :=
  { schema with
    name := ""
    settings := schema.settings.map Setting.withoutLabels
    blocks := schema.blocks.map BlockType.withoutLabels }

theorem Setting.withoutLabels_resolveLabels (setting : Setting) :
    setting.resolveLabels.withoutLabels = setting.withoutLabels := by
  unfold Setting.withoutLabels Setting.resolveLabels
  simp only [Option.map_map, List.map_map]
  rfl

theorem BlockType.withoutLabels_resolveLabels (block : BlockType) :
    block.resolveLabels.withoutLabels = block.withoutLabels := by
  have settings : Setting.withoutLabels ∘ Setting.resolveLabels = Setting.withoutLabels :=
    funext Setting.withoutLabels_resolveLabels
  unfold BlockType.withoutLabels BlockType.resolveLabels
  simp only [List.map_map, settings]

theorem Schema.withoutLabels_resolveLabels (schema : Schema) :
    schema.resolveLabels.withoutLabels = schema.withoutLabels := by
  have settings : Setting.withoutLabels ∘ Setting.resolveLabels = Setting.withoutLabels :=
    funext Setting.withoutLabels_resolveLabels
  have blocks : BlockType.withoutLabels ∘ BlockType.resolveLabels = BlockType.withoutLabels :=
    funext BlockType.withoutLabels_resolveLabels
  unfold Schema.withoutLabels Schema.resolveLabels
  simp only [List.map_map, settings, blocks]

/-- A label is never a locale key, so that a label of a label is the label itself. A schema with its
labels in place has them in place once and for all, and shows the same settings and block types as
before. Nothing but the texts of labels is changed. -/
theorem resolveLabels_settled :
    (∀ text : String, ¬ "t:".toList <+: (resolveLabel text).toList ∧
      resolveLabel (resolveLabel text) = resolveLabel text) ∧
    ∀ schema : Schema,
      schema.resolveLabels.resolveLabels = schema.resolveLabels ∧
      schema.resolveLabels.labelledSettings = schema.labelledSettings ∧
      schema.resolveLabels.labelledBlocks = schema.labelledBlocks ∧
      schema.resolveLabels.withoutLabels = schema.withoutLabels := by
  constructor
  · intro text
    refine ⟨?_, resolveLabel_resolveLabel text⟩
    have written : (resolveLabel text).toList = labelOf text.toList := String.toList_ofList
    rw [written]
    exact not_localeMark_prefix_labelOf text.toList
  · intro schema
    exact ⟨schema.resolveLabels_resolveLabels, schema.labelledSettings_resolveLabels,
      schema.labelledBlocks_resolveLabels, schema.withoutLabels_resolveLabels⟩

end FlatLiquid
