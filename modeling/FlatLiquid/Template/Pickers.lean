import FlatLiquid.Schema.Definition
import FlatLiquid.Statement.Identifier
import FlatLiquid.Statement.Flattening

/-!
Contract: which settings pick a store resource.

Owns:
- the resources that the settings of a schema pick, by the id of the setting;
- the variable that stands for a setting in a template.
-/

namespace FlatLiquid

/-- The resources that settings pick, under the ids of the settings. -/
abbrev Pickers := OrderedMap Resource

/-- The entry of a setting that has an id and picks a resource. -/
def Setting.picker? (setting : Setting) : Option (String × Resource) :=
  if setting.id.isEmpty then none
  else setting.type.resource?.map fun resource => (setting.id, resource)

/-- The pickers of a schema: those of the section, and after them those of the block types. Of two
settings with one id the last one counts. -/
def Pickers.ofSchema (schema : Schema) : Pickers :=
  .ofList ((schema.settings ++ schema.blocks.flatMap BlockType.settings).filterMap Setting.picker?)

/-- The resource that a setting stands for. A setting that no schema tells about stands for a
resource if its id is the name of one. -/
def Pickers.target? (pickers : Pickers) (id : String) : Option Resource :=
  (pickers.get? id).orElse fun _ => Resource.ofName? id

/-- The variable that stands for a setting: the resource that it picks, or a name in a space of
names. -/
def Pickers.flatName? (pickers : Pickers) (scope key : List Char) : Option (List Char) :=
  match pickers.target? (String.ofList key) with
  | some resource => some resource.name.toList
  | none => (identifier? key).map (scopedName scope)

end FlatLiquid
