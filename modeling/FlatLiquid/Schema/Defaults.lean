import FlatLiquid.Schema.Definition
import FlatLiquid.Text.Blank
import FlatLiquid.Decimal.Reading

/-!
Contract: the values that settings have before anyone changes them.

Owns:
- the value that a type falls back on, and the default of a setting;
- the values that a section or a block starts with;
- the values that differ from the defaults;
- the form that a setting type gives to a value.
-/

namespace FlatLiquid

/-- The value that the type of a setting falls back on. Notes have no value. -/
def Setting.fallback? (setting : Setting) : Option SettingValue :=
  match setting.type with
  | .checkbox => some (.bool false)
  | .number | .range => some (.number (setting.min.getD 0))
  | .color | .colorBackground => some (.string "#000000")
  | .select | .radio => some (.string ((setting.options.head?.map Choice.value).getD ""))
  | .textAlignment => some (.string "left")
  | .fontPicker => some (.string "system-ui")
  | .collectionList | .productList | .metaobjectList => some (.string "[]")
  | .url => some (.string "#")
  | .header | .paragraph => none
  | .text | .textarea | .richtext | .inlineRichtext | .imagePicker | .video | .videoUrl | .html
  | .liquid | .article | .blog | .collection | .page | .product | .linkList | .colorScheme
  | .colorSchemeGroup | .metaobject | .other _ => some (.string "")

/-- The default that the setting declares, or else the one of its type. -/
def Setting.default? (setting : Setting) : Option SettingValue :=
  if setting.type.isDisplayOnly then none
  else setting.default.orElse fun _ => setting.fallback?

/-- The id of a setting with a value. A setting without id has none. -/
def Setting.entry? (setting : Setting) (value? : Option SettingValue) :
    Option (String × SettingValue) :=
  if setting.id.isEmpty then none else value?.map fun value => (setting.id, value)

/-- The values that settings start with, in the order of declaration. -/
def initialValues (settings : List Setting) : SettingValues :=
  .ofList (settings.filterMap fun setting => setting.entry? setting.default?)

/-- The value of a setting, if it is not the default. -/
def Setting.changed? (setting : Setting) (values : SettingValues) : Option SettingValue := do
  let value ← values.get? setting.id
  match setting.default? with
  | some default => if default.same value then none else some value
  | none => some value

/-- The values that differ from the defaults. Ids that the schema does not declare are left out. -/
def Schema.changedValues (schema : Schema) (values : SettingValues) : SettingValues :=
  .ofList (schema.settings.filterMap fun setting => setting.entry? (setting.changed? values))

/-- The truth value that a checkbox stores for a value. -/
def SettingValue.truth : SettingValue → Bool
  | .bool value => value
  | .number x => x != 0 && !x.isNaN
  | .string text => !text.isEmpty && text != "false"
  | .nil => false
  | .unsupported _ => true

/-- The number that a number or a range stores for a value. What names no number is zero. -/
def SettingValue.quantity : SettingValue → Float
  | .number x => if x.isNaN then 0 else x
  | .string text =>
    match Decimal.readFloat? (Text.trim text.toList) with
    | some x => if x.isNaN then 0 else x
    | none => 0
  | _ => 0

/-- The string that all other types store for a value. -/
def SettingValue.wording : SettingValue → String
  | .nil => ""
  | other => other.text

/-- The value in the form that a type stores. -/
def SettingType.conform : SettingType → SettingValue → SettingValue
  | .checkbox, value => .bool value.truth
  | .number, value | .range, value => .number value.quantity
  | _, value => .string value.wording

end FlatLiquid
