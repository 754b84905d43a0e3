import FlatLiquid.Schema.Definition
import FlatLiquid.Text.Blank
import FlatLiquid.Text.Prefix
import FlatLiquid.Text.Uppercase

/-!
Contract: labels in place of locale keys.

Owns:
- the label that is made of a locale key;
- settings, block types and schemas with their labels in place;
- the settings and block types that an editor shows.
-/

namespace FlatLiquid

/-- What a locale key starts with. -/
def localeMark : List Char := ['t', ':']

/-- The parts of a locale key that say where a label belongs and not what it says. -/
def structuralWords : List (List Char) :=
  ["label", "info", "placeholder", "options", "t", "sections", "blocks", "settings",
    "name"].map String.toList

/-- The part of a locale key that numbers the choices of a setting. -/
def isNumberedOption (part : List Char) : Bool :=
  match Text.afterPrefix? "options__".toList part with
  | some digits => !digits.isEmpty && digits.all Char.isDigit
  | none => false

/-- The words between underscores, each with a capital, with spaces between them. -/
def titleCase (part : List Char) : List Char :=
  let words := (Text.split '_' part).filter fun word => !word.isEmpty
  let capital : List Char → List Char
    | [] => []
    | first :: rest => Text.uppercase first ++ rest
  (words.map capital).intersperse [' '] |>.flatten

/-- The part of a locale key that tells most: the last one that is neither empty nor
structural. -/
def tellingPart? (key : List Char) : Option (List Char) :=
  (Text.split '.' key).reverse.find? fun part =>
    !part.isEmpty && !structuralWords.contains part && !isNumberedOption part

/-- The label of a text: a title made of a locale key, or the text itself. -/
def labelOf (text : List Char) : List Char :=
  match Text.afterPrefix? localeMark text with
  | none => text
  | some key =>
    match tellingPart? key with
    | some part => titleCase part
    | none => key

/-- The label of a string. -/
def resolveLabel (text : String) : String :=
  String.ofList (labelOf text.toList)

def Choice.resolveLabels (choice : Choice) : Choice :=
  { choice with label := resolveLabel choice.label }

def Setting.resolveLabels (setting : Setting) : Setting :=
  { setting with
    label := resolveLabel setting.label
    info := setting.info.map resolveLabel
    placeholder := setting.placeholder.map resolveLabel
    options := setting.options.map Choice.resolveLabels }

def BlockType.resolveLabels (block : BlockType) : BlockType :=
  { block with
    name := resolveLabel block.name
    settings := block.settings.map Setting.resolveLabels }

/-- The schema with its labels in place. Presets have none. -/
def Schema.resolveLabels (schema : Schema) : Schema :=
  { schema with
    name := resolveLabel schema.name
    settings := schema.settings.map Setting.resolveLabels
    blocks := schema.blocks.map BlockType.resolveLabels }

/-- The settings with an id, with their labels in place. -/
def Schema.labelledSettings (schema : Schema) : List Setting :=
  (schema.settings.filter fun setting => !setting.id.isEmpty).map Setting.resolveLabels

/-- The block types with their labels in place. -/
def Schema.labelledBlocks (schema : Schema) : List BlockType :=
  schema.blocks.map BlockType.resolveLabels

end FlatLiquid
