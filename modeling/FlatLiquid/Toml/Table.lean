import FlatLiquid.Toml.Basic

/-!
Contract: how the lines of a TOML document make up its tables.

Owns:
- entries, which put an item under a path of keys;
- stanzas, which are a header and the entries after it;
- the tables that they make up. No key is given twice, and no table is opened twice.
-/

namespace FlatLiquid.Toml

/-- A key, after the keys of the tables that it stands in, and its item. -/
structure Entry where
  path : List Key
  key : Key
  item : Item

/-- A header with the entries after it. The header names one table, or one more table of a list. -/
structure Stanza where
  path : List Key
  key : Key
  repeated : Bool
  extent : Extent
  entries : List Entry

def item? (entries : Entries) (name : String) : Option Item :=
  (entries.find? fun entry => entry.1.name == name).map Prod.snd

/-- Exchanges the item under a name. -/
def exchange (entries : Entries) (name : String) (item : Item) : Entries :=
  entries.map fun entry => if entry.1.name == name then (entry.1, item) else entry

/-- Adds an item under a key in the table at the end of a path. The path ends in a table that keys with
dots made, though headers may have made those on the way; of a list of tables, the last one is on the
way. `fits` says that the path may end here. -/
def addAt? (key : Key) (item : Item) : Bool → List Key → Entries → Option Entries
  | fits, [], entries =>
    if !fits || (item? entries key.name).isSome then none else some (entries ++ [(key, item)])
  | _, step :: path, entries =>
    match item? entries step.name with
    | none =>
      (addAt? key item true path []).map fun inner =>
        entries ++ [(step, .table .dotted none inner)]
    | some (.table .dotted extent inner) =>
      (addAt? key item true path inner).map fun inner =>
        exchange entries step.name (.table .dotted extent inner)
    | some (.table .implied extent inner) =>
      (addAt? key item false path inner).map fun inner =>
        exchange entries step.name (.table .implied extent inner)
    | some (.tables elements) => do
      let (extent, inner) ← elements.getLast?
      let inner ← addAt? key item false path inner
      some (exchange entries step.name (.tables (elements.dropLast ++ [(extent, inner)])))
    | some _ => none

/-- Adds the items of entries, in their order. -/
def addAll? (entries : Entries) (added : List Entry) : Option Entries :=
  added.foldlM (fun entries entry => addAt? entry.key entry.item true entry.path entries) entries

namespace Stanza

/-- Opens the table of a stanza next to these entries, and fills it. A table that was only on the
way to others keeps what is in it and goes to the end. -/
def open? (stanza : Stanza) (entries : Entries) : Option Entries :=
  let name := stanza.key.name
  match stanza.repeated, item? entries name with
  | false, none =>
    (addAll? [] stanza.entries).map fun inner =>
      entries ++ [(stanza.key, .table .named (some stanza.extent) inner)]
  | false, some (.table .implied _ inner) =>
    (addAll? inner stanza.entries).map fun inner =>
      entries.filter (fun entry => entry.1.name != name)
        ++ [(stanza.key, .table .named (some stanza.extent) inner)]
  | true, none =>
    (addAll? [] stanza.entries).map fun inner =>
      entries ++ [(stanza.key, .tables [(stanza.extent, inner)])]
  | true, some (.tables elements) =>
    (addAll? [] stanza.entries).map fun inner =>
      exchange entries name (.tables (elements ++ [(stanza.extent, inner)]))
  | _, _ => none

/-- Opens the table of a stanza at the end of a path. Of a list of tables, the last one is on the
way. -/
def openAt? (stanza : Stanza) : List Key → Entries → Option Entries
  | [], entries => stanza.open? entries
  | step :: path, entries =>
    match item? entries step.name with
    | none =>
      (stanza.openAt? path []).map fun inner => entries ++ [(step, .table .implied none inner)]
    | some (.table .closed _ _) => none
    | some (.table form extent inner) =>
      (stanza.openAt? path inner).map fun inner =>
        exchange entries step.name (.table form extent inner)
    | some (.tables elements) => do
      let (extent, inner) ← elements.getLast?
      let inner ← stanza.openAt? path inner
      some (exchange entries step.name (.tables (elements.dropLast ++ [(extent, inner)])))
    | some _ => none

end Stanza

/-- The entries of a document: those before the first header, and the tables of the stanzas. -/
def assemble? (entries : List Entry) (stanzas : List Stanza) : Option Entries := do
  let root ← addAll? [] entries
  stanzas.foldlM (fun root stanza => stanza.openAt? stanza.path root) root

end FlatLiquid.Toml
