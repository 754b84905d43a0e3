import FlatLiquid.Schema.Block
import FlatLiquid.Schema.SettingType
import FlatLiquid.Schema.SettingValue

/-!
Contract: storing values as the defaults of a schema.

Owns:
- the change of a setting's default in the JSON of a schema;
- the template with the changed schema in place of the old one, and the settings that cannot have a
  default.

The schema is changed as JSON and not as a definition, so that fields nobody knows are kept, and all
fields keep their order.
-/

namespace FlatLiquid

/-- What storing values comes to: the template, and the ids of the settings that were passed over
because they name store resources. -/
structure DefaultsUpdate where
  template : List Char
  unsupported : List String

/-- What becomes of one item of the settings list. -/
inductive SettingEdit where
  | keep
  | refuse (id : String)
  | write (fields : List (String × Json))

/-- The type of a setting as JSON. A setting without a type is a text. -/
def settingTypeOf (fields : List (String × Json)) : SettingType :=
  match (fields.lookup "type").bind Json.text? with
  | some name => .ofName name
  | none => .text

/-- The edit of a setting as JSON. A default that is the same already is not written. -/
def editSetting (values : SettingValues) (fields : List (String × Json)) : SettingEdit :=
  match (fields.lookup "id").bind Json.text? with
  | none => .keep
  | some id =>
    match values.get? id with
    | none => .keep
    | some value =>
      if (settingTypeOf fields).isResource then .refuse id
      else
        let stored := fields.lookup "default"
        if stored.any (Json.same · value.toJson) then .keep
        else .write (putEntry fields "default" value.toJson)

/-- The edit of an item of the settings list. What is no object is kept. -/
def editItem (values : SettingValues) : Json → SettingEdit
  | .object fields => editSetting values fields
  | _ => .keep

/-- An item after its edit. -/
def SettingEdit.apply (edit : SettingEdit) (item : Json) : Json :=
  match edit with
  | .write fields => .object fields
  | _ => item

/-- The id that an edit refuses. -/
def SettingEdit.refused? : SettingEdit → Option String
  | .refuse id => some id
  | _ => none

/-- The edit changes the item. -/
def SettingEdit.isWrite : SettingEdit → Bool
  | .write _ => true
  | _ => false

/-- The template with the values stored as defaults. Without a schema that is JSON, without a list
of settings in it, or without a change, the template stays as it is. -/
def storeDefaults (template : List Char) (values : SettingValues) : DefaultsUpdate :=
  match SchemaBlock.find? template with
  | none => ⟨template, []⟩
  | some block =>
    match Json.parse (Text.trim block.interior) with
    | .ok (.object fields) =>
      match fields.lookup "settings" with
      | some (.array items) =>
        let edits := items.map (editItem values)
        let refused := edits.filterMap SettingEdit.refused?
        if edits.any SettingEdit.isWrite then
          let items := items.zipWith (fun item edit => edit.apply item) edits
          let schema := Json.object (putEntry fields "settings" (.array items))
          let interior := '\n' :: schema.indented.toList ++ ['\n']
          ⟨block.before ++ block.opening ++ interior ++ block.closing ++ block.after, refused⟩
        else ⟨template, refused⟩
      | _ => ⟨template, []⟩
    | _ => ⟨template, []⟩

end FlatLiquid
