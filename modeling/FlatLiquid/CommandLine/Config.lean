import FlatLiquid.Decimal.Format
import FlatLiquid.Preview.Options
import FlatLiquid.Toml.Basic

/-!
Contract: the configuration file.

Owns:
- the options that the `preview` table of the file sets;
- what is wrong with a file, and its wording.

The table may be written in any form that TOML has for one. It may also be a list of the options in
their order. Tables and keys that nobody knows are passed over.
-/

namespace FlatLiquid.CommandLine

open Toml (Entries Extent Item)

def configFile : String := "sectional.toml"

/-- The table of the configuration file that sets the options of a preview. -/
def previewTable : String := "preview"

inductive ConfigFault where
  /-- The file is no TOML document, in the words of its reader. -/
  | malformed (message : String)
  | wrongType (place : Toml.Place) (item : Item) (expected : String)
  | outOfRange (place : Toml.Place) (value : Int) (expected : String)
  | options (fault : OptionsFault)

/-! ## Wording -/

/-- A decimal number in a fault: always with a fraction. -/
def decimalText (value : Float) : String :=
  { Decimal.NumberFormat.plain with keepsFraction := true }.text value

/-- What an item is called in a fault. -/
def describeItem : Item → String
  | .string _ text => "string " ++ Text.quoted text
  | .whole _ value => "integer `" ++ toString value ++ "`"
  | .decimal _ value => "floating point `" ++ decimalText value ++ "`"
  | .bool _ value => "boolean `" ++ (if value then "true" else "false") ++ "`"
  | .moment _ => "map"
  | .list _ _ => "sequence"
  | .table _ _ _ => "map"
  | .tables _ => "sequence"

def ConfigFault.text : ConfigFault → String
  | .malformed message => message
  | .wrongType place item expected =>
    place.text ++ "invalid type: " ++ describeItem item ++ ", expected " ++ expected ++ "\n"
  | .outOfRange place value expected =>
    place.text ++ "invalid value: integer `" ++ toString value ++ "`, expected " ++ expected ++ "\n"
  | .options fault => fault.text

/-! ## Options -/

def sizeOf (place : Toml.Place) (item : Item) : Except ConfigFault Nat :=
  match item with
  | .whole _ value =>
    if 0 ≤ value then .ok value.toNat else .error (.outOfRange place value "usize")
  | _ => .error (.wrongType place item "usize")

def textOf (place : Toml.Place) (item : Item) : Except ConfigFault String :=
  match item with
  | .string _ text => .ok text
  | _ => .error (.wrongType place item "a string")

def truthOf (place : Toml.Place) (item : Item) : Except ConfigFault Bool :=
  match item with
  | .bool _ value => .ok value
  | _ => .error (.wrongType place item "a boolean")

/-- The options after one of them is set. -/
def setOption (options : PreviewOptions) (name : String) (place : Toml.Place) (item : Item) :
    Except ConfigFault PreviewOptions :=
  match name with
  | "max_blocks" => (sizeOf place item).map fun size => { options with maxBlocks := size }
  | "max_payload_bytes" =>
    (sizeOf place item).map fun size => { options with maxPayloadBytes := size }
  | "container_class" => (textOf place item).map fun text => { options with containerClass := text }
  | "section_id" => (textOf place item).map fun text => { options with sectionId := text }
  | "use_preset_blocks" =>
    (truthOf place item).map fun use => { options with usePresetBlocks := use }
  | _ => .ok options

/-- The options that named items set, in their order. An item that has no extent shows at the one
that comes with its name. -/
def setOptions (document : List Char) (items : List (String × Extent × Item)) :
    Except ConfigFault PreviewOptions :=
  items.foldlM
    (fun options (name, extent, item) =>
      setOption options name ((item.extent?.getD extent).place document) item)
    .default

/-- The options that the entries of a table set. -/
def optionsOfEntries (document : List Char) (entries : Entries) :
    Except ConfigFault PreviewOptions :=
  setOptions document (entries.map fun (key, item) => (key.name, key.extent, item))

/-- The options that the items of a list set, each under the name at its place. -/
def optionsOfItems (document : List Char) (extent : Extent) (items : List Item) :
    Except ConfigFault PreviewOptions :=
  let names := PreviewOptions.shape.fields.map Json.Field.name
  setOptions document ((names.zip items).map fun (name, item) => (name, extent, item))

/-- The options that the item under the name of the table sets. A moment sets none. -/
def optionsOfItem (document : List Char) (extent : Extent) (item : Item) :
    Except ConfigFault PreviewOptions :=
  match item with
  | .table _ _ entries => optionsOfEntries document entries
  | .list extent items => optionsOfItems document extent items
  | .tables elements =>
    optionsOfItems document extent (elements.map fun (extent, entries) =>
      .table .named (some extent) entries)
  | .moment _ => .ok .default
  | _ =>
    .error (.wrongType ((item.extent?.getD extent).place document) item
      ("struct " ++ PreviewOptions.shape.name))

/-- The options that a configuration file sets, read by a reader of TOML documents. Those that it does
not name keep their defaults. -/
def readConfig (readDocument : List Char → Except String Entries) (text : String) :
    Except ConfigFault PreviewOptions := do
  let document := text.toList
  match readDocument document with
  | .error message => throw (.malformed message)
  | .ok entries =>
    let options ← match entries.find? fun entry => entry.1.name == previewTable with
      | none => pure PreviewOptions.default
      | some (key, item) => optionsOfItem document key.extent item
    match options.fault? with
    | some fault => throw (.options fault)
    | none => pure options

end FlatLiquid.CommandLine
