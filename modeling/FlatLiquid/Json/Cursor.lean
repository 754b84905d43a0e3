/-!
Contract: places in a JSON text.

Owns:
- cursors, which hold the text still to be read and the number of bytes before it;
- the steps of a cursor: over one character, over blanks, over a closing bracket;
- the line and the column of a byte.
-/

namespace FlatLiquid.Json

/-- A place in a text: what is still to be read, and how many bytes are not. -/
structure Cursor where
  rest : List Char
  offset : Nat

/-- JSON knows four blanks only. -/
def isBlank (c : Char) : Bool :=
  c == ' ' || c == '\t' || c == '\n' || c == '\r'

/-- The number of bytes of a text. -/
def byteSize : List Char → Nat
  | [] => 0
  | c :: rest => c.utf8Size + byteSize rest

namespace Cursor

def ofText (text : List Char) : Cursor :=
  ⟨text, 0⟩

def step (cursor : Cursor) : Cursor :=
  match cursor.rest with
  | [] => cursor
  | c :: rest => ⟨rest, cursor.offset + c.utf8Size⟩

def skipBlanks (cursor : Cursor) : Cursor :=
  ⟨cursor.rest.dropWhile isBlank, cursor.offset + (cursor.rest.takeWhile isBlank).length⟩

/-- The place after the digits, and the digits. -/
def takeDigits (cursor : Cursor) : List Char × Cursor :=
  let digits := cursor.rest.takeWhile Char.isDigit
  (digits, ⟨cursor.rest.dropWhile Char.isDigit, cursor.offset + digits.length⟩)

/-- The number of bytes up to and including the first one still to be read. At the end of the text
there is none to include. -/
def reach (cursor : Cursor) : Nat :=
  if cursor.rest.isEmpty then cursor.offset else cursor.offset + 1

/-- The place after blanks and after this bracket, if it stands there. -/
def stepPast (cursor : Cursor) (bracket : Char) : Cursor :=
  let gap := cursor.skipBlanks
  if gap.rest.head? == some bracket then gap.step else gap

end Cursor

/-- A line, counted from one, and the number of bytes from the start of the line. -/
structure Position where
  line : Nat
  column : Nat
deriving DecidableEq, Repr

/-- The position after this many bytes of a text, going on from a position. Only a line feed ends a
line. -/
def Position.advance (position : Position) : List Char → Nat → Position
  | _, 0 => position
  | [], _ => position
  | c :: rest, bytes =>
    if bytes < c.utf8Size then { position with column := position.column + bytes }
    else
      let next : Position :=
        if c == '\n' then ⟨position.line + 1, 0⟩
        else { position with column := position.column + c.utf8Size }
      next.advance rest (bytes - c.utf8Size)

/-- The position after this many bytes of a text. -/
def Position.ofOffset (text : List Char) (bytes : Nat) : Position :=
  Position.advance ⟨1, 0⟩ text bytes

end FlatLiquid.Json
