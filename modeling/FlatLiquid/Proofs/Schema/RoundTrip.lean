import FlatLiquid.Proofs.Json.Restoring
import FlatLiquid.Proofs.Schema.Decoding
import FlatLiquid.Proofs.Schema.Fitting

/-!
Contract: a schema that is written as JSON is read again as the same schema.

Owns:
- the numbers that occur in a schema;
- schemas that are the same, up to the equality of setting values;
- the restoring of each part of a schema by its codec;
- the round trip of the schema of a template.

The reading half is in FlatLiquid.Proofs.Schema.Fitting: whatever is read fits. Here it is shown that
whatever fits is restored. The halves meet at the depth of brackets, since a schema that is read from
lists of fields or from blocks under ids is written with other brackets than it was read from.
-/

namespace FlatLiquid

open Json (Codec Field Shape Node RestoresFields)

/-! ## Numbers -/

namespace Json

def number? : Json → Option Number
  | .number value => some value
  | _ => none

/-- The numbers inside a value. -/
def numbers (value : Json) : List Number :=
  value.parts.filterMap number?

theorem numbersReadBack_of_numbers {value : Json}
    (readBack : ∀ number ∈ value.numbers, number.ReadsBack) : value.NumbersReadBack := by
  intro number member
  exact readBack number (List.mem_filterMap.mpr ⟨_, member, rfl⟩)

end Json

/-- The number that a value is written as, or those inside it. -/
def SettingValue.numbers : SettingValue → List Json.Number
  | .number x =>
    match wholeNumber? x with
    | some whole => [.whole whole]
    | none => [.real x]
  | .unsupported value => value.numbers
  | _ => []

def SettingValues.numbers (values : SettingValues) : List Json.Number :=
  values.values.flatMap SettingValue.numbers

def limitNumbers (limit : Option Nat) : List Json.Number :=
  limit.toList.map fun (count : Nat) => .whole count

def Setting.numbers (setting : Setting) : List Json.Number :=
  setting.default.toList.flatMap SettingValue.numbers ++
    ([setting.min, setting.max, setting.step].flatMap Option.toList).map .real ++
      limitNumbers setting.limit

def BlockType.numbers (block : BlockType) : List Json.Number :=
  block.settings.flatMap Setting.numbers ++ limitNumbers block.limit

def PresetBlock.numbers (block : PresetBlock) : List Json.Number :=
  SettingValues.numbers block.settings

def Preset.numbers (preset : Preset) : List Json.Number :=
  SettingValues.numbers preset.settings ++ preset.blocks.flatMap PresetBlock.numbers

/-- Every number that occurs in the schema. -/
def Schema.numbers (schema : Schema) : List Json.Number :=
  limitNumbers schema.limit ++ limitNumbers schema.maxBlocks ++
    schema.settings.flatMap Setting.numbers ++ schema.blocks.flatMap BlockType.numbers ++
      schema.presets.flatMap Preset.numbers ++ schema.default.toList.flatMap Preset.numbers

/-! ## Schemas that are the same -/

/-- The values are the same, which leaves the sign of a zero open, and the order of fields. -/
def SettingValue.Same (again value : SettingValue) : Prop :=
  again.same value = true

/-- The values are the same one by one, under the same ids in the same order. -/
def SettingValues.Same (again values : SettingValues) : Prop :=
  List.Forall₂ (Json.SameEntry SettingValue.Same) again.entries values.entries

structure Setting.Same (again setting : Setting) : Prop where
  others : again = { setting with default := again.default }
  default : Option.Rel SettingValue.Same again.default setting.default

structure BlockType.Same (again block : BlockType) : Prop where
  others : again = { block with settings := again.settings }
  settings : List.Forall₂ Setting.Same again.settings block.settings

structure PresetBlock.Same (again block : PresetBlock) : Prop where
  type : again.type = block.type
  settings : SettingValues.Same again.settings block.settings

structure Preset.Same (again preset : Preset) : Prop where
  name : again.name = preset.name
  settings : SettingValues.Same again.settings preset.settings
  blocks : List.Forall₂ PresetBlock.Same again.blocks preset.blocks

/-- The schemas are equal part by part. -/
structure Schema.Same (again schema : Schema) : Prop where
  others : again =
    { schema with
      settings := again.settings
      blocks := again.blocks
      presets := again.presets
      default := again.default }
  settings : List.Forall₂ Setting.Same again.settings schema.settings
  blocks : List.Forall₂ BlockType.Same again.blocks schema.blocks
  presets : List.Forall₂ Preset.Same again.presets schema.presets
  default : Option.Rel Preset.Same again.default schema.default

/-! ## Single values -/

section Single

variable {depth : Nat}

theorem text_restoresOption (within : depth < Json.depthLimit) (value : Option String) :
    Codec.text.RestoresOption depth value value :=
  Codec.restoresOption_self fun text _ => ⟨Codec.text_restores within text, Json.noConfusion⟩

theorem real_restoresOption (within : depth < Json.depthLimit) {value : Option Float}
    (readBack : ∀ x ∈ value, (Json.Number.real x).ReadsBack) :
    Codec.real.RestoresOption depth value value :=
  Codec.restoresOption_self fun x member =>
    ⟨Codec.real_restores within (readBack x member), Json.noConfusion⟩

theorem limit_restoresOption (within : depth < Json.depthLimit) {limit : Option Nat}
    (small : ∀ count ∈ limit, count < Nat.pow 2 32)
    (readBack : ∀ number ∈ limitNumbers limit, number.ReadsBack) :
    limitCodec.RestoresOption depth limit limit := by
  refine Codec.restoresOption_self fun count member => ⟨?_, Json.noConfusion⟩
  have inNumbers : Json.Number.whole count ∈ limitNumbers limit :=
    List.mem_map.mpr ⟨count, Option.mem_toList.mpr member, rfl⟩
  exact Codec.natural_restores within (small count member) (readBack _ inNumbers) "u32"

theorem SettingType.codec_restores (within : depth < Json.depthLimit) {type : SettingType}
    (named : SettingType.ofName type.name = type) : SettingType.codec.Restores depth type type where
  restorable := .string within type.name
  decodes := by
    intro inner node spells linked inside
    have asText := (Codec.text_restores within type.name).decodes inner node spells linked inside
    rw [SettingType.codec]
    simp only [asText]
    exact congrArg Except.ok named

end Single

/-! ## Values -/

namespace SettingValue

variable {value : SettingValue} {x : Float}

theorem isFinite_of_numbers
    (readBack : ∀ number ∈ (SettingValue.number x).numbers, number.ReadsBack) :
    x.isFinite = true := by
  rw [numbers] at readBack
  cases whole : wholeNumber? x with
  | some value => exact Decimal.isFinite_of_wholeNumber? whole
  | none =>
    simp only [whole] at readBack
    exact Json.isFinite_of_readBack (readBack _ List.mem_cons_self)

theorem toJson_number (finite : x.isFinite = true) :
    ∃ written, (number x).toJson = .number written ∧ (number x).numbers = [written] := by
  rw [toJson, numbers]
  cases wholeNumber? x with
  | some whole => exact ⟨.whole whole, rfl, rfl⟩
  | none => exact ⟨.real x, if_pos finite, rfl⟩

theorem numbersReadBack_toJson (readBack : ∀ number ∈ value.numbers, number.ReadsBack) :
    value.toJson.NumbersReadBack := by
  cases value with
  | number x =>
    obtain ⟨written, asJson, isNumber⟩ := toJson_number (isFinite_of_numbers readBack)
    rw [isNumber] at readBack
    rw [asJson]
    exact .of_number (readBack written List.mem_cons_self)
  | unsupported json => exact Json.numbersReadBack_of_numbers readBack
  | _ => exact .of_no_number rfl

/-- Nil alone is written as null, if the numbers in it are read back. -/
theorem eq_nil_of_isAbsent (readBack : ∀ number ∈ value.numbers, number.ReadsBack)
    (absent : value.isAbsent = true) : value = .nil := by
  cases value with
  | nil => rfl
  | number x =>
    rw [isAbsent, isFinite_of_numbers readBack] at absent
    contradiction
  | _ => contradiction

theorem toJson_ne_null (sound : value.IsSound)
    (readBack : ∀ number ∈ value.numbers, number.ReadsBack) (other : value ≠ .nil) :
    value.toJson ≠ .null := by
  cases value with
  | nil => exact absurd rfl other
  | number x =>
    obtain ⟨written, asJson, _⟩ := toJson_number (isFinite_of_numbers readBack)
    rw [asJson]
    exact Json.noConfusion
  | unsupported json =>
    rintro rfl
    exact sound
  | _ => exact Json.noConfusion

theorem codec_restores {depth : Nat} (fits : value.FitsAt depth)
    (readBack : ∀ number ∈ value.numbers, number.ReadsBack) :
    codec.RestoresUpTo Same depth value := by
  have distinct := hasDistinctKeys_toJson fits.1
  have numbers := numbersReadBack_toJson readBack
  have stands := ofJson_same fits.1 (Json.same_self _ distinct numbers.hasNoNaN)
  refine ⟨.ofJson value.toJson, ?_, ⟨numbers, distinct, fits.2⟩, codec_decodes distinct⟩
  split at stands
  · next absent =>
    rw [eq_nil_of_isAbsent readBack absent]
    rfl
  · exact stands.2

end SettingValue

theorem settingValuesCodec_restores {depth : Nat} (within : depth + 1 < Json.depthLimit)
    {values : SettingValues} (fit : values.FitAt depth)
    (readBack : ∀ number ∈ values.numbers, number.ReadsBack) :
    settingValuesCodec.RestoresUpTo SettingValues.Same depth values := by
  refine Codec.RestoresUpTo.map within fun entry member => ?_
  refine SettingValue.codec_restores (fit entry member) fun number inside => ?_
  exact readBack number (List.mem_flatMap.mpr ⟨entry.2, List.mem_map_of_mem member, inside⟩)

/-! ## Settings and block types -/

theorem Choice.codec_restores {depth : Nat} (within : depth + 1 < Json.depthLimit)
    (choice : Choice) : Choice.shape.codec.Restores depth choice choice := by
  apply Shape.restores_of_fields (by decide) within
  apply RestoresFields.needed (Codec.text_restores within _)
  apply RestoresFields.plain (Codec.text_restores within _)
  apply RestoresFields.optional (text_restoresOption within _) rfl
  exact .nil _

theorem Setting.codec_restores {depth : Nat} (within : depth + 3 < Json.depthLimit)
    {setting : Setting} (fits : setting.FitsAt depth)
    (readBack : ∀ number ∈ setting.numbers, number.ReadsBack) :
    Setting.shape.codec.RestoresUpTo Same depth setting := by
  simp only [numbers, List.forall_mem_append, List.forall_mem_flatMap, List.forall_mem_map,
    List.forall_mem_cons, Option.mem_toList] at readBack
  obtain ⟨⟨defaultReadsBack, minReadsBack, maxReadsBack, stepReadsBack, _⟩, limitReadsBack⟩ :=
    readBack
  have defaults : ∀ value ∈ setting.default,
      SettingValue.codec.RestoresUpTo SettingValue.Same (depth + 1) value ∧
        SettingValue.codec.write value ≠ .null := by
    intro value member
    obtain ⟨valueFits, notNil⟩ := fits.default value member
    exact ⟨SettingValue.codec_restores valueFits (defaultReadsBack value member),
      SettingValue.toJson_ne_null valueFits.1 (defaultReadsBack value member) notNil⟩
  obtain ⟨default, sameDefault, restoresDefault⟩ := Codec.exists_restoresOption defaults
  have inside : depth + 1 < Json.depthLimit := by omega
  have texts := fun value => text_restoresOption inside value
  have options : (Codec.list Choice.shape.codec).Restores (depth + 1) setting.options
      setting.options :=
    .list (by omega) (List.forall₂_same.mpr fun choice _ => choice.codec_restores within)
  have accept : (Codec.list Codec.text).Restores (depth + 1) setting.accept setting.accept :=
    .list (by omega) (List.forall₂_same.mpr fun text _ => Codec.text_restores (by omega) text)
  refine ⟨{ setting with default }, ⟨rfl, sameDefault⟩,
    Shape.restores_of_fields (by decide) inside ?_⟩
  apply RestoresFields.needed (SettingType.codec_restores inside fits.type)
  apply RestoresFields.plain (Codec.text_restores inside _)
  apply RestoresFields.plain (Codec.text_restores inside _)
  apply RestoresFields.optional restoresDefault rfl
  apply RestoresFields.optional (texts _) rfl
  apply RestoresFields.optional (texts _) rfl
  apply RestoresFields.items options rfl
  apply RestoresFields.optional (real_restoresOption inside minReadsBack) rfl
  apply RestoresFields.optional (real_restoresOption inside maxReadsBack) rfl
  apply RestoresFields.optional (real_restoresOption inside stepReadsBack) rfl
  apply RestoresFields.optional (texts _) rfl
  apply RestoresFields.optional (texts _) rfl
  apply RestoresFields.items accept rfl
  apply RestoresFields.optional (limit_restoresOption inside fits.limit limitReadsBack) rfl
  exact .nil _

theorem BlockType.codec_restores {depth : Nat} (within : depth + 5 < Json.depthLimit)
    {block : BlockType} (fits : block.FitsAt depth)
    (readBack : ∀ number ∈ block.numbers, number.ReadsBack) :
    BlockType.shape.codec.RestoresUpTo Same depth block := by
  simp only [numbers, List.forall_mem_append, List.forall_mem_flatMap] at readBack
  have inside : depth + 1 < Json.depthLimit := by omega
  have each : ∀ setting ∈ block.settings,
      Setting.shape.codec.RestoresUpTo Setting.Same (depth + 2) setting :=
    fun setting member => Setting.codec_restores (by omega) (fits.settings setting member)
      (readBack.1 setting member)
  obtain ⟨settings, sameSettings, restoresSettings⟩ :=
    Codec.RestoresUpTo.list (show depth + 2 < _ by omega) each
  refine ⟨{ block with settings }, ⟨rfl, sameSettings⟩,
    Shape.restores_of_fields (by decide) inside ?_⟩
  apply RestoresFields.needed (Codec.text_restores inside _)
  apply RestoresFields.plain (Codec.text_restores inside _)
  apply RestoresFields.plain restoresSettings
  apply RestoresFields.optional (limit_restoresOption inside fits.limit readBack.2) rfl
  exact .nil _

/-! ## Presets -/

theorem PresetBlock.codec_restores {depth : Nat} (within : depth + 2 < Json.depthLimit)
    {block : PresetBlock} (fits : block.FitsAt depth)
    (readBack : ∀ number ∈ block.numbers, number.ReadsBack) :
    PresetBlock.shape.codec.RestoresUpTo Same depth block := by
  have inside : depth + 1 < Json.depthLimit := by omega
  obtain ⟨settings, sameSettings, restoresSettings⟩ :=
    settingValuesCodec_restores within fits readBack
  refine ⟨{ block with settings }, ⟨rfl, sameSettings⟩,
    Shape.restores_of_fields (by decide) inside ?_⟩
  apply RestoresFields.needed (Codec.text_restores inside _)
  apply RestoresFields.plain restoresSettings
  exact .nil _

/-- The blocks of a preset are written as a list, which is read as JSON first. -/
theorem presetBlocksCodec_restores {depth : Nat} (within : depth + 3 < Json.depthLimit)
    {blocks : List PresetBlock} (fit : ∀ block ∈ blocks, block.FitsAt (depth + 1))
    (readBack : ∀ number ∈ blocks.flatMap PresetBlock.numbers, number.ReadsBack) :
    presetBlocksCodec.RestoresUpTo (List.Forall₂ PresetBlock.Same) depth blocks := by
  rw [List.forall_mem_flatMap] at readBack
  have each : ∀ block ∈ blocks,
      PresetBlock.shape.codec.RestoresUpTo PresetBlock.Same (depth + 1) block :=
    fun block member => PresetBlock.codec_restores (by omega) (fit block member)
      (readBack block member)
  obtain ⟨again, sameAgain, restores⟩ := Codec.RestoresUpTo.list (by omega) each
  refine ⟨again, sameAgain, restores.restorable, ?_⟩
  intro inner node spells linked inside
  have asJson := spells.read restores.restorable.distinct inside
  have asList := restores.decodes inner node spells linked inside
  obtain ⟨_, _, _, rfl, _⟩ := Json.exists_of_spells_array spells
  simp only [presetBlocksCodec, asJson, asList]
  rfl

theorem Preset.codec_restores {depth : Nat} (within : depth + 4 < Json.depthLimit)
    {preset : Preset} (fits : preset.FitsAt depth)
    (readBack : ∀ number ∈ preset.numbers, number.ReadsBack) :
    Preset.shape.codec.RestoresUpTo Same depth preset := by
  rw [numbers, List.forall_mem_append] at readBack
  have inside : depth + 1 < Json.depthLimit := by omega
  obtain ⟨settings, sameSettings, restoresSettings⟩ :=
    settingValuesCodec_restores (by omega) fits.settings readBack.1
  obtain ⟨blocks, sameBlocks, restoresBlocks⟩ :=
    presetBlocksCodec_restores within fits.blocks readBack.2
  refine ⟨{ preset with settings, blocks }, ⟨rfl, sameSettings, sameBlocks⟩,
    Shape.restores_of_fields (by decide) inside ?_⟩
  apply RestoresFields.plain (Codec.text_restores inside _)
  apply RestoresFields.plain restoresSettings
  apply RestoresFields.plain restoresBlocks
  exact .nil _

/-! ## Schemas -/

theorem Schema.codec_restores {schema : Schema} (fits : schema.Fits)
    (readBack : ∀ number ∈ schema.numbers, number.ReadsBack) :
    Schema.shape.codec.RestoresUpTo Same 0 schema := by
  simp only [numbers, List.forall_mem_append, List.forall_mem_flatMap, Option.mem_toList]
    at readBack
  obtain ⟨⟨⟨⟨⟨limitReadsBack, maxBlocksReadsBack⟩, settingsReadBack⟩, blocksReadBack⟩,
    presetsReadBack⟩, defaultReadsBack⟩ := readBack
  have presetRestores {depth : Nat} (shallow : depth ≤ 2) {preset : Preset}
      (presetFits : preset.FitsAt depth)
      (presetReadsBack : ∀ number ∈ preset.numbers, number.ReadsBack) :
      Preset.shape.codec.RestoresUpTo Preset.Same depth preset :=
    Preset.codec_restores (show depth + 4 < 128 by omega) presetFits presetReadsBack
  have inside : 1 < Json.depthLimit := by decide
  have bracket : 2 < Json.depthLimit := by decide
  obtain ⟨settings, sameSettings, restoresSettings⟩ := Codec.RestoresUpTo.list bracket
    fun setting member => Setting.codec_restores (by decide) (fits.settings setting member)
      (settingsReadBack setting member)
  obtain ⟨blocks, sameBlocks, restoresBlocks⟩ := Codec.RestoresUpTo.list bracket
    fun block member => BlockType.codec_restores (by decide) (fits.blocks block member)
      (blocksReadBack block member)
  obtain ⟨presets, samePresets, restoresPresets⟩ := Codec.RestoresUpTo.list bracket
    fun preset member => presetRestores (by decide) (fits.presets preset member)
      (presetsReadBack preset member)
  obtain ⟨default, sameDefault, restoresDefault⟩ := Codec.exists_restoresOption
    fun preset member => And.intro (presetRestores (by decide) (fits.default preset member)
      (defaultReadsBack preset member)) Json.noConfusion
  refine ⟨{ schema with settings, blocks, presets, default },
    ⟨rfl, sameSettings, sameBlocks, samePresets, sameDefault⟩,
    Shape.restores_of_fields (by decide) inside ?_⟩
  apply RestoresFields.plain (Codec.text_restores inside _)
  apply RestoresFields.optional (text_restoresOption inside _) rfl
  apply RestoresFields.optional (text_restoresOption inside _) rfl
  apply RestoresFields.optional (limit_restoresOption inside fits.limit limitReadsBack) rfl
  apply RestoresFields.optional (limit_restoresOption inside fits.maxBlocks maxBlocksReadsBack) rfl
  apply RestoresFields.plain restoresSettings
  apply RestoresFields.plain restoresBlocks
  apply RestoresFields.plain restoresPresets
  apply RestoresFields.optional restoresDefault rfl
  exact .nil _

/-- The schema of a template, written as JSON without or with line breaks, is read as the same
schema, if every number in it is read from the text that it is printed as. -/
theorem Schema.parse_written {template : List Char} {schema : Schema}
    (decoded : Schema.ofTemplate? template = some schema)
    (readBack : ∀ number ∈ schema.numbers, number.ReadsBack) :
    let written := Schema.shape.codec.write schema
    ∃ again, again.Same schema ∧
      Schema.shape.codec.parse written.compact.toList = .ok again ∧
      Schema.shape.codec.parse written.indented.toList = .ok again := by
  obtain ⟨again, same, restores⟩ :=
    Schema.codec_restores (Schema.fits_of_ofTemplate? decoded) readBack
  refine ⟨again, same, ?_, ?_⟩
  · rw [Json.toList_compact]
    exact restores.parse_print Json.Layout.isBlank_compact
  · rw [Json.toList_indented]
    exact restores.parse_print Json.Layout.isBlank_indented

/-- The setting stands in an array, its type is not known and its default is an object. The block of
the preset stands under an id. -/
theorem Schema.parse_written_of_carousel :
    let text :=
      "\x7b% schema %\x7d\x7b\"name\":\"Carousel\",\"tag\":null,\"limit\":3,\"icon\":\"\"," ++
      "\"settings\":[[\"gallery\",\"g\",\"Gallery\",\x7b\"sizes\":[3]\x7d]]," ++
      "\"presets\":[\x7b\"blocks\":\x7b\"first\":\x7b\"type\":\"slide\"," ++
      "\"settings\":\x7b\"image\":null\x7d\x7d\x7d\x7d]\x7d\x7b% endschema %\x7d"
    ∃ schema again, Schema.ofTemplate? text.toList = some schema ∧ schema.numbers.length = 2 ∧
      (∀ number ∈ schema.numbers, number.ReadsBack) ∧ again.Same schema ∧
      Schema.shape.codec.parse (Schema.shape.codec.write schema).compact.toList = .ok again ∧
      Schema.shape.codec.parse (Schema.shape.codec.write schema).indented.toList = .ok again := by
  intro text
  have readable : (Schema.ofTemplate? text.toList).any (fun schema =>
      schema.numbers.length == 2 && schema.numbers.all (·.same (.whole 3))) = true := by
    decide +kernel
  obtain ⟨schema, decoded, numbers⟩ := (Option.any_eq_true _ _).mp readable
  rw [Bool.and_eq_true, beq_iff_eq, List.all_eq_true] at numbers
  have readBack : ∀ number ∈ schema.numbers, number.ReadsBack := by
    intro number member
    have same := numbers.2 number member
    cases number with
    | whole value =>
      obtain rfl : value = 3 := beq_iff_eq.mp same
      rfl
    | real x => exact absurd same Bool.false_ne_true
  obtain ⟨again, same, compact, indented⟩ := Schema.parse_written decoded readBack
  exact ⟨schema, again, decoded, numbers.1, readBack, same, compact, indented⟩

end FlatLiquid
