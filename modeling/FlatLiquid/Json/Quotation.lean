import FlatLiquid.Json.Fault

/-!
Contract: strings as a JSON text spells them.

Owns:
- the reading of a string, which joins surrogate pairs and refuses lone surrogates;
- the skipping of a string, which checks the escapes but not what they mean.

Both start after the opening quote and end after the closing one.
-/

namespace FlatLiquid.Json

def hexDigit? (c : Char) : Option Nat :=
  if c.isDigit then some (c.toNat - 48)
  else if 'a' ≤ c && c ≤ 'f' then some (c.toNat - 87)
  else if 'A' ≤ c && c ≤ 'F' then some (c.toNat - 55)
  else none

/-- The value of four hexadecimal digits. -/
def hexUnit? (a b c d : Char) : Option Nat := do
  let a ← hexDigit? a
  let b ← hexDigit? b
  let c ← hexDigit? c
  let d ← hexDigit? d
  some (((a * 16 + b) * 16 + c) * 16 + d)

/-- The character that a one-letter escape stands for. -/
def shortEscape? (c : Char) : Option Char :=
  match c with
  | '"' => some '"'
  | '\\' => some '\\'
  | '/' => some '/'
  | 'b' => some '\x08'
  | 'f' => some '\x0c'
  | 'n' => some '\n'
  | 'r' => some '\r'
  | 't' => some '\t'
  | _ => none

/-- The first half of a surrogate pair. -/
def isLeading (unit : Nat) : Bool :=
  0xD800 ≤ unit && unit ≤ 0xDBFF

/-- The second half of a surrogate pair. -/
def isTrailing (unit : Nat) : Bool :=
  0xDC00 ≤ unit && unit ≤ 0xDFFF

/-- The character of a surrogate pair. -/
def joinSurrogates (leading trailing : Nat) : Char :=
  Char.ofNat (0x10000 + (leading - 0xD800) * 0x400 + (trailing - 0xDC00))

/-- What is wrong where four hexadecimal digits are due and do not stand: the next four bytes are an
invalid escape, or the text ends within them. -/
def hexFault (text : List Char) (offset : Nat) : Fault :=
  if byteSize text < 4 then .at .endInString (offset + byteSize text)
  else .at .invalidEscape (offset + 4)

/-- The string up to its closing quote, and the place after it. -/
def readString : List Char → Nat → Except Fault (List Char × Cursor)
  | [], offset => .error (.at .endInString offset)
  | '"' :: rest, offset => .ok ([], ⟨rest, offset + 1⟩)
  | '\\' :: 'u' :: a :: b :: c :: d :: rest, offset =>
    match hexUnit? a b c d with
    | none => .error (hexFault (a :: b :: c :: d :: rest) (offset + 2))
    | some unit =>
      if isTrailing unit then .error (.at .loneSurrogate (offset + 6))
      else if isLeading unit then
        match rest with
        | '\\' :: 'u' :: e :: f :: g :: h :: tail =>
          match hexUnit? e f g h with
          | none => .error (hexFault (e :: f :: g :: h :: tail) (offset + 8))
          | some second =>
            if isTrailing second then
              (readString tail (offset + 12)).map fun (text, after) =>
                (joinSurrogates unit second :: text, after)
            else .error (.at .loneSurrogate (offset + 12))
        | '\\' :: 'u' :: short => .error (hexFault short (offset + 8))
        | ['\\'] => .error (.at .endInString (offset + 7))
        | '\\' :: _ => .error (.at .unfinishedSurrogate (offset + 8))
        | [] => .error (.at .endInString (offset + 6))
        | _ => .error (.at .unfinishedSurrogate (offset + 7))
      else
        (readString rest (offset + 6)).map fun (text, after) => (Char.ofNat unit :: text, after)
  | '\\' :: 'u' :: short, offset => .error (hexFault short (offset + 2))
  | ['\\'], offset => .error (.at .endInString (offset + 1))
  | '\\' :: c :: rest, offset =>
    match shortEscape? c with
    | none => .error (.at .invalidEscape (offset + 2))
    | some escaped =>
      (readString rest (offset + 2)).map fun (text, after) => (escaped :: text, after)
  | c :: rest, offset =>
    if c.toNat < 0x20 then .error (.at .controlCharacter (offset + 1))
    else (readString rest (offset + c.utf8Size)).map fun (text, after) => (c :: text, after)

/-- The place after the closing quote of a string that nobody asks for. A control character in it is
found without being passed over, so the fault shows before it. -/
def skipString : List Char → Nat → Except Fault Cursor
  | [], offset => .error (.at .endInString offset)
  | '"' :: rest, offset => .ok ⟨rest, offset + 1⟩
  | '\\' :: 'u' :: a :: b :: c :: d :: rest, offset =>
    match hexUnit? a b c d with
    | none => .error (hexFault (a :: b :: c :: d :: rest) (offset + 2))
    | some _ => skipString rest (offset + 6)
  | '\\' :: 'u' :: short, offset => .error (hexFault short (offset + 2))
  | ['\\'], offset => .error (.at .endInString (offset + 1))
  | '\\' :: c :: rest, offset =>
    match shortEscape? c with
    | none => .error (.at .invalidEscape (offset + 2))
    | some _ => skipString rest (offset + 2)
  | c :: rest, offset =>
    if c.toNat < 0x20 then .error (.at .controlCharacter offset)
    else skipString rest (offset + c.utf8Size)

end FlatLiquid.Json
