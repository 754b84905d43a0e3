import FlatLiquid.Schema.Definition
import FlatLiquid.Statement.Basic
import FlatLiquid.Statement.Identifier

/-!
Contract: the variables that stand for settings, blocks and resources.

Owns:
- the names of the variables: one space of names for the section and one for each block;
- the statements that bind them, and the keys and handles that no variable can stand for.
-/

namespace FlatLiquid

/-- Statements, and the keys and handles that were rejected on the way. -/
structure Bindings where
  statements : List Statement
  rejected : List String

def Bindings.empty : Bindings := ⟨[], []⟩

def Bindings.append (first second : Bindings) : Bindings :=
  ⟨first.statements ++ second.statements, first.rejected ++ second.rejected⟩

instance : Append Bindings := ⟨Bindings.append⟩

def Bindings.texts (bindings : Bindings) : List String :=
  bindings.statements.map Statement.text

/-! ## Names -/

/-- The space of names of the section's settings. -/
def sectionScope : List Char := "settings".toList

/-- The space of names of the block at an index. -/
def blockScope (index : Nat) : List Char :=
  "block_".toList ++ Nat.toDigits 10 index

/-- A name in a space of names. -/
def scopedName (scope name : List Char) : List Char :=
  scope ++ '_' :: name

/-- The variable that holds the number of blocks. -/
def blockCountName : List Char := "blocks_count".toList

/-! ## Settings and blocks -/

/-- The binding of one setting. A key that does not become an identifier is rejected. A value that
no variable holds is left out. -/
def settingBinding (scope : List Char) (entry : String × SettingValue) : Bindings :=
  match identifier? entry.1.toList with
  | none => ⟨[], [entry.1]⟩
  | some name => ⟨(Statement.ofValue? (scopedName scope name) entry.2).toList, []⟩

/-- The bindings of settings in a space of names. -/
def scopedBindings (scope : List Char) (settings : SettingValues) : Bindings :=
  settings.entries.foldr (fun entry rest => settingBinding scope entry ++ rest) .empty

/-- The bindings of the section's settings. -/
def settingBindings (settings : SettingValues) : Bindings :=
  scopedBindings sectionScope settings

/-- The bindings of the block at an index: its id, its type, and its settings. -/
def blockBinding (index : Nat) (block : BlockInstance) : Bindings :=
  let scope := blockScope index
  ⟨[.ofText (scopedName scope "id".toList) block.id.toList,
    .ofText (scopedName scope "type".toList) block.type.toList], []⟩ ++
    scopedBindings scope block.settings

/-- The bindings of blocks from an index on. -/
def blockBindingsFrom (index : Nat) : List BlockInstance → Bindings
  | [] => .empty
  | block :: rest => blockBinding index block ++ blockBindingsFrom (index + 1) rest

/-- The bindings of all blocks, and of their number. -/
def blockBindings (blocks : List BlockInstance) : Bindings :=
  blockBindingsFrom 0 blocks ++ ⟨[.assign blockCountName (.count blocks.length)], []⟩

/-! ## Resources -/

/-- The store resources that a template is to see. -/
structure ResourceContext where
  product : Option String
  collection : Option String

def ResourceContext.empty : ResourceContext := ⟨none, none⟩

/-- The binding of a resource, if a handle is given. What is no handle is rejected. -/
def resourceBinding (resource : Resource) (collection : String) : Option String → Bindings
  | none => .empty
  | some handle =>
    if isHandle handle.toList then
      ⟨[.lookup resource.name.toList collection.toList handle.toList], []⟩
    else ⟨[], [handle]⟩

def resourceBindings (context : ResourceContext) : Bindings :=
  resourceBinding .product "all_products" context.product ++
    resourceBinding .collection "collections" context.collection

end FlatLiquid
