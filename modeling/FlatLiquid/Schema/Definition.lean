import FlatLiquid.Schema.SettingType
import FlatLiquid.Schema.SettingValue

/-!
Contract: the schema of a section.

Owns:
- settings with their choices, block types, presets and the schema as a whole;
- block instances, which are the blocks of one rendering;
- the form of each of them in JSON.
-/

namespace FlatLiquid

open Json (Codec Field Shape)

/-- One choice of a setting. -/
structure Choice where
  value : String
  label : String
  group : Option String

/-- A setting that a section or a block declares. Notes in the editor have no id. -/
structure Setting where
  type : SettingType
  id : String
  label : String
  default : Option SettingValue
  placeholder : Option String
  info : Option String
  options : List Choice
  min : Option Float
  max : Option Float
  step : Option Float
  unit : Option String
  content : Option String
  accept : List String
  limit : Option Nat

/-- A kind of block that a section declares. -/
structure BlockType where
  type : String
  name : String
  settings : List Setting
  limit : Option Nat

/-- A block of a preset, with values that override the defaults. -/
structure PresetBlock where
  type : String
  settings : SettingValues

/-- A configuration to start from. -/
structure Preset where
  name : String
  settings : SettingValues
  blocks : List PresetBlock

/-- What a section declares. -/
structure Schema where
  name : String
  tag : Option String
  className : Option String
  limit : Option Nat
  maxBlocks : Option Nat
  settings : List Setting
  blocks : List BlockType
  presets : List Preset
  default : Option Preset

/-- A block of one rendering. -/
structure BlockInstance where
  id : String
  type : String
  settings : SettingValues

/-- The first declaration of a block type. -/
def Schema.blockType? (schema : Schema) (type : String) : Option BlockType :=
  schema.blocks.find? fun block => block.type == type

/-! ## Empty values -/

def Choice.blank : Choice := ⟨"", "", none⟩

def Setting.ofType (type : SettingType) : Setting :=
  { type := type, id := "", label := "", default := none, placeholder := none, info := none,
    options := [], min := none, max := none, step := none, unit := none, content := none,
    accept := [], limit := none }

def BlockType.blank : BlockType := ⟨"", "", [], none⟩

def PresetBlock.blank : PresetBlock := ⟨"", .empty⟩

def Preset.blank : Preset := ⟨"", .empty, []⟩

def Schema.blank : Schema := ⟨"", none, none, none, none, [], [], [], none⟩

def BlockInstance.blank : BlockInstance := ⟨"", "", .empty⟩

/-! ## Shapes -/

/-- Setting types are strings. -/
def SettingType.codec : Codec SettingType where
  read := fun depth node => (Codec.text.read depth node).map SettingType.ofName
  write := fun type => .string type.name

/-- Item and block limits. -/
def limitCodec : Codec Nat := .natural 32 "u32"

def Choice.shape : Shape Choice where
  name := "SelectOption"
  blank := .blank
  fields :=
    [ .needed "value" .text Choice.value fun choice value => { choice with value := value },
      .plain "label" .text Choice.label fun choice label => { choice with label := label },
      .optional "group" .text Choice.group fun choice group => { choice with group := group } ]

def Setting.shape : Shape Setting where
  name := "SchemaSetting"
  blank := .ofType .text
  fields :=
    [ .needed "type" SettingType.codec Setting.type
        fun setting type => { setting with type := type },
      .plain "id" .text Setting.id fun setting id => { setting with id := id },
      .plain "label" .text Setting.label fun setting label => { setting with label := label },
      .optional "default" SettingValue.codec Setting.default
        fun setting default => { setting with default := default },
      .optional "placeholder" .text Setting.placeholder
        fun setting placeholder => { setting with placeholder := placeholder },
      .optional "info" .text Setting.info fun setting info => { setting with info := info },
      .items "options" Choice.shape.codec Setting.options
        fun setting options => { setting with options := options },
      .optional "min" .real Setting.min fun setting min => { setting with min := min },
      .optional "max" .real Setting.max fun setting max => { setting with max := max },
      .optional "step" .real Setting.step fun setting step => { setting with step := step },
      .optional "unit" .text Setting.unit fun setting unit => { setting with unit := unit },
      .optional "content" .text Setting.content
        fun setting content => { setting with content := content },
      .items "accept" .text Setting.accept fun setting accept => { setting with accept := accept },
      .optional "limit" limitCodec Setting.limit
        fun setting limit => { setting with limit := limit } ]

/-- Values under their ids in JSON. -/
def settingValuesCodec : Codec SettingValues := .map SettingValue.codec

def BlockType.shape : Shape BlockType where
  name := "SchemaBlock"
  blank := .blank
  fields :=
    [ .needed "type" .text BlockType.type fun block type => { block with type := type },
      .plain "name" .text BlockType.name fun block name => { block with name := name },
      .plain "settings" (.list Setting.shape.codec) BlockType.settings
        fun block settings => { block with settings := settings },
      .optional "limit" limitCodec BlockType.limit
        fun block limit => { block with limit := limit } ]

def PresetBlock.shape : Shape PresetBlock where
  name := "PresetBlock"
  blank := .blank
  fields :=
    [ .needed "type" .text PresetBlock.type fun block type => { block with type := type },
      .plain "settings" settingValuesCodec PresetBlock.settings
        fun block settings => { block with settings := settings } ]

/-- The blocks of a preset, which may stand in a list or under ids. A text that is no JSON at all
has a fault of its own; whatever else is wrong is one and the same fault. -/
def presetBlocksCodec : Codec (List PresetBlock) where
  read := fun depth node =>
    match node with
    | .null _ => .ok []
    | other => do
      let _ ← other.read depth
      let blocks := match other with
        | .object _ _ _ =>
          ((Codec.map PresetBlock.shape.codec).read depth other).map OrderedMap.values
        | list => (Codec.list PresetBlock.shape.codec).read depth list
      blocks.mapError fun _ => ⟨.noVariant "Blocks", none⟩
  write := (Codec.list PresetBlock.shape.codec).write

def Preset.shape : Shape Preset where
  name := "SchemaPreset"
  blank := .blank
  fields :=
    [ .plain "name" .text Preset.name fun preset name => { preset with name := name },
      .plain "settings" settingValuesCodec Preset.settings
        fun preset settings => { preset with settings := settings },
      .plain "blocks" presetBlocksCodec Preset.blocks
        fun preset blocks => { preset with blocks := blocks } ]

def Schema.shape : Shape Schema where
  name := "SchemaDefinition"
  blank := .blank
  fields :=
    [ .plain "name" .text Schema.name fun schema name => { schema with name := name },
      .optional "tag" .text Schema.tag fun schema tag => { schema with tag := tag },
      .optional "class" .text Schema.className
        fun schema className => { schema with className := className },
      .optional "limit" limitCodec Schema.limit fun schema limit => { schema with limit := limit },
      .optional "max_blocks" limitCodec Schema.maxBlocks
        fun schema maxBlocks => { schema with maxBlocks := maxBlocks },
      .plain "settings" (.list Setting.shape.codec) Schema.settings
        fun schema settings => { schema with settings := settings },
      .plain "blocks" (.list BlockType.shape.codec) Schema.blocks
        fun schema blocks => { schema with blocks := blocks },
      .plain "presets" (.list Preset.shape.codec) Schema.presets
        fun schema presets => { schema with presets := presets },
      .optional "default" Preset.shape.codec Schema.default
        fun schema default => { schema with default := default } ]

def BlockInstance.shape : Shape BlockInstance where
  name := "BlockInstance"
  blank := .blank
  fields :=
    [ .needed "id" .text BlockInstance.id fun block id => { block with id := id },
      .needed "type" .text BlockInstance.type fun block type => { block with type := type },
      .plain "settings" settingValuesCodec BlockInstance.settings
        fun block settings => { block with settings := settings } ]

end FlatLiquid
