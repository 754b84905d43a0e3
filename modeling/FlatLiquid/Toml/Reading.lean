import FlatLiquid.Toml.Scalar
import FlatLiquid.Toml.Table

/-!
Contract: the grammar of TOML documents.

Owns:
- keys and paths of keys;
- lists and tables between brackets;
- headers, entries and comments, and the reading of a whole document.
-/

namespace FlatLiquid.Toml

/-- The number of brackets in one another, or of keys in one path, that is too great. -/
def nestingLimit : Nat := 80

/-! ## Gaps -/

/-- The text after blanks, line ends and comments. A comment goes up to a line end. -/
def skipGap (comment : Bool) : List Char → List Char
  | [] => []
  | '\r' :: '\n' :: rest => skipGap false rest
  | c :: rest =>
    if c == '\n' then skipGap false rest
    else if comment then if isStringChar false c then skipGap true rest else c :: rest
    else if isBlank c then skipGap false rest
    else if c == '#' then skipGap true rest
    else c :: rest

/-- The text after the end of a line, if nothing but a comment stands before it. -/
def restOfLine? (text : List Char) : Option (List Char) :=
  let lineEnd := match skipBlanks text with
    | '#' :: rest => rest.dropWhile (isStringChar false)
    | rest => rest
  if lineEnd.isEmpty then some [] else afterLineEnd? lineEnd

/-! ## Keys -/

/-- A key: bare, or between quotes. -/
def readKey? (text : List Char) : Option (Key × List Char) :=
  let read? : Option (List Char × List Char) := match text with
    | '"' :: rest => readEscaped? false false rest
    | '\'' :: rest => readVerbatim? false rest
    | _ =>
      let isBare (c : Char) : Bool := c.isAlphanum || c == '_' || c == '-'
      let name := text.takeWhile isBare
      if name.isEmpty then none else some (name, text.dropWhile isBare)
  read?.map fun (name, after) => (⟨String.ofList name, .between text after⟩, after)

/-- Keys with dots between them, fewer than a number: those on the way, the last one, and what follows
it. -/
def readPathWithin? : Nat → List Char → Option (List Key × Key × List Char)
  | 0, _ => none
  | 1, _ => none
  | room + 2, text => do
    let (key, after) ← readKey? text
    match skipBlanks after with
    | '.' :: rest =>
      let (path, last, after) ← readPathWithin? (room + 1) (skipBlanks rest)
      some (key :: path, last, after)
    | _ => some ([], key, after)

def readPath? (text : List Char) : Option (List Key × Key × List Char) :=
  readPathWithin? nestingLimit text

/-! ## Items -/

/-- The number of which there are fewer brackets inside of one more. -/
def innerRoom? (room : Nat) : Option Nat :=
  if 1 < room then some (room - 1) else none

mutual

/-- An item, with fewer brackets in one another than a number, and what follows it. -/
def readItem? : Nat → Nat → List Char → Option (Item × List Char)
  | 0, _, _ => none
  | fuel + 1, room, text =>
    match text with
    | '[' :: rest => do
      let (items, after) ← readItems? fuel (← innerRoom? room) (skipGap false rest)
      some (.list (.between text after) items, after)
    | '\x7b' :: rest => do
      let (fields, after) ← readTable? fuel (← innerRoom? room) (skipBlanks rest)
      let entries ← addAll? [] fields
      some (.table .closed (some (.between text after)) entries, after)
    | _ => readScalar? text

/-- The items of a list up to its closing bracket. A comma may stand behind the last one. -/
def readItems? : Nat → Nat → List Char → Option (List Item × List Char)
  | 0, _, _ => none
  | fuel + 1, room, text =>
    match text with
    | ']' :: rest => some ([], rest)
    | _ => do
      let (item, after) ← readItem? fuel room text
      match skipGap false after with
      | ',' :: rest =>
        let (items, after) ← readItems? fuel room (skipGap false rest)
        some (item :: items, after)
      | ']' :: rest => some ([item], rest)
      | _ => none

/-- The entries of a table between braces, which may be empty, up to its closing brace. -/
def readTable? : Nat → Nat → List Char → Option (List Entry × List Char)
  | 0, _, _ => none
  | fuel + 1, room, text =>
    match text with
    | '\x7d' :: rest => some ([], rest)
    | _ => readFields? fuel room text

/-- One entry or more up to a closing brace, with a comma between two of them. -/
def readFields? : Nat → Nat → List Char → Option (List Entry × List Char)
  | 0, _, _ => none
  | fuel + 1, room, text => do
    let (entry, after) ← readEntry? fuel room text
    match skipBlanks after with
    | ',' :: rest =>
      let (entries, after) ← readFields? fuel room (skipBlanks rest)
      some (entry :: entries, after)
    | '\x7d' :: rest => some ([entry], rest)
    | _ => none

/-- A path of keys and the item after the equals sign. -/
def readEntry? : Nat → Nat → List Char → Option (Entry × List Char)
  | 0, _, _ => none
  | fuel + 1, room, text => do
    let (path, key, after) ← readPath? text
    match skipBlanks after with
    | '=' :: rest =>
      let (item, after) ← readItem? fuel room (skipBlanks rest)
      some (⟨path, key, item⟩, after)
    | _ => none

end

/-! ## Documents -/

/-- A header, without entries yet, and what follows it. -/
def readHeader? (text : List Char) : Option (Stanza × List Char) :=
  match text with
  | '[' :: '[' :: rest => do
    let (path, key, after) ← readPath? (skipBlanks rest)
    match skipBlanks after with
    | ']' :: ']' :: after => some (⟨path, key, true, .between text after, []⟩, after)
    | _ => none
  | '[' :: rest => do
    let (path, key, after) ← readPath? (skipBlanks rest)
    match skipBlanks after with
    | ']' :: after => some (⟨path, key, false, .between text after, []⟩, after)
    | _ => none
  | _ => none

/-- Gives a header its entries. They extend it up to the end of the last one. -/
def Stanza.fill (stanza : Stanza) (entries : List Entry) : Stanza :=
  let last? := entries.getLast?.bind fun entry => entry.item.extent?
  { stanza with
    entries := entries
    extent := { stanza.extent with
      afterEnd := (last?.map Extent.afterEnd).getD stanza.extent.afterEnd } }

/-- The entries before the next header, and the stanzas from there on. -/
def readLines? : Nat → List Char → Option (List Entry × List Stanza)
  | 0, _ => none
  | fuel + 1, text =>
    match skipGap false text with
    | [] => some ([], [])
    | '[' :: rest => do
      let (stanza, after) ← readHeader? ('[' :: rest)
      let (entries, stanzas) ← readLines? fuel (← restOfLine? after)
      some ([], stanza.fill entries :: stanzas)
    | start => do
      let (entry, after) ← readEntry? fuel nestingLimit start
      let (entries, stanzas) ← readLines? fuel (← restOfLine? after)
      some (entry :: entries, stanzas)

/-- The entries of a whole document. A byte order mark may stand before it. At least one character is
taken in every three steps, so three times the number of characters is enough. -/
def readDocument? (text : List Char) : Option Entries := do
  let (entries, stanzas) ← readLines? (3 * text.length + 4) (match text with
    | '\ufeff' :: rest => rest
    | _ => text)
  assemble? entries stanzas

/-- The entries of a whole document, or the beginning of what is said of one that is none. -/
def readDocument (text : List Char) : Except String Entries :=
  match readDocument? text with
  | some entries => .ok entries
  | none => .error "TOML parse error\n"

end FlatLiquid.Toml
