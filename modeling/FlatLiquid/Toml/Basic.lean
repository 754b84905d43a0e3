import FlatLiquid.Json.Cursor

/-!
Contract: TOML documents as trees that remember where their parts stand.

Owns:
- extents, which say where a part of a document starts and ends;
- the place of an extent in its line, and how it is shown;
- items, which are the values and the tables of a document.
-/

namespace FlatLiquid.Toml

/-- Where a part of a document stands: the number of characters from its start to the end of the
document, and the number of characters after it. -/
structure Extent where
  fromStart : Nat
  afterEnd : Nat

/-- The part of a document from a place on, up to the text that follows it. -/
def Extent.between (start rest : List Char) : Extent :=
  ⟨start.length, rest.length⟩

/-- Where a part stands in its line: the number of the line, the line with all but its line feed,
the number of characters before the part, and the number of bytes that the part takes. -/
structure Place where
  number : Nat
  line : List Char
  column : Nat
  width : Nat

/-- The place of an extent in a document. -/
def Extent.place (document : List Char) (extent : Extent) : Place :=
  let start := document.length - extent.fromStart
  let before := document.take start
  let rest := document.drop start
  let lineStart := (before.reverse.takeWhile (· != '\n')).reverse
  { number := before.count '\n' + 1
    line := lineStart ++ rest.takeWhile (· != '\n')
    column := lineStart.length
    width := Json.byteSize (rest.take (extent.fromStart - extent.afterEnd)) }

/-- Shows the line of a place with the part marked. At least one mark is set, and none beyond the
line. -/
def Place.text (place : Place) : String :=
  let number := toString place.number
  let margin := "".pushn ' ' (number.length + 1) ++ "|"
  let width := min place.width (Json.byteSize place.line - place.column)
  s!"TOML parse error at line {number}, column {place.column + 1}\n"
    ++ margin ++ "\n"
    ++ number ++ " | " ++ String.ofList place.line ++ "\n"
    ++ margin ++ "".pushn ' ' (place.column + 1) ++ "".pushn '^' (max 1 width) ++ "\n"

/-- A key and where it stands. -/
structure Key where
  name : String
  extent : Extent

/-- How a table came about. -/
inductive TableForm where
  /-- By a header of its own. -/
  | named
  /-- On the way to the header of another table. -/
  | implied
  /-- By a key with dots. -/
  | dotted
  /-- Between braces. Nothing can be added to it. -/
  | closed

/-- What stands under a key. A table that only the keys to others tell of has no extent. -/
inductive Item where
  | string (extent : Extent) (text : String)
  | whole (extent : Extent) (value : Int)
  | decimal (extent : Extent) (value : Float)
  | bool (extent : Extent) (value : Bool)
  /-- A date, a time of day, or both. -/
  | moment (extent : Extent)
  | list (extent : Extent) (items : List Item)
  | table (form : TableForm) (extent : Option Extent) (entries : List (Key × Item))
  /-- Tables under one repeated header. -/
  | tables (elements : List (Extent × List (Key × Item)))

/-- The entries of a table in the order in which they came. -/
abbrev Entries := List (Key × Item)

/-- Where an item stands. -/
def Item.extent? : Item → Option Extent
  | .string extent _ => some extent
  | .whole extent _ => some extent
  | .decimal extent _ => some extent
  | .bool extent _ => some extent
  | .moment extent => some extent
  | .list extent _ => some extent
  | .table _ extent _ => extent
  | .tables elements => do
    let first ← elements.head?
    let last ← elements.getLast?
    some ⟨first.1.fromStart, last.1.afterEnd⟩

end FlatLiquid.Toml
