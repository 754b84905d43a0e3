import FlatLiquid.Json.Quotation
import FlatLiquid.Text.Prefix

/-!
Contract: strings as a TOML document spells them.

Owns:
- strings between double quotes, in which a backslash starts an escape;
- strings between single quotes, in which nothing is escaped;
- the long forms of both, between three quotes, which may go over several lines.
-/

namespace FlatLiquid.Toml

/-- Spaces and tabs. -/
def isBlank (c : Char) : Bool :=
  c == ' ' || c == '\t'

/-- The text after spaces and tabs. -/
def skipBlanks (text : List Char) : List Char :=
  text.dropWhile isBlank

/-- The text after a line end: a line feed, which may have a carriage return before it. -/
def afterLineEnd? : List Char → Option (List Char)
  | '\n' :: rest => some rest
  | '\r' :: '\n' :: rest => some rest
  | _ => none

/-- A character may stand in a string as it is. Only a long string has line feeds. In a comment, the
same characters may stand as in a short string. -/
def isStringChar (long : Bool) (c : Char) : Bool :=
  c == '\t' || (long && c == '\n') || (0x20 ≤ c.toNat && c.toNat != 0x7F)

/-- The end of a string, if it ends here: the quotes that still belong to it, and what follows it. A
long string may have up to two quotes right before its end. -/
def stringEnd? (quote : Char) (long : Bool) (text : List Char) : Option (List Char × List Char) :=
  if long then
    (Text.afterPrefix? [quote, quote, quote] text).map fun rest =>
      let own := (rest.takeWhile (· == quote)).take 2
      (own, rest.drop own.length)
  else (Text.afterPrefix? [quote] text).map fun rest => ([], rest)

/-- The text of a string between single quotes, and what follows it. A line end in it is a line
feed. -/
def readVerbatim? (long : Bool) : List Char → Option (List Char × List Char)
  | [] => none
  | c :: rest =>
    match stringEnd? '\'' long (c :: rest) with
    | some ending => some ending
    | none =>
      if c == '\r' && rest.head? == some '\n' then readVerbatim? long rest
      else if isStringChar long c then
        (readVerbatim? long rest).map fun (text, after) => (c :: text, after)
      else none

/-- The character with a code in hexadecimal digits. -/
def codedChar? (digits : List Char) : Option Char := do
  let digits ← digits.mapM Json.hexDigit?
  let code := digits.foldl (fun code digit => code * 16 + digit) 0
  if code.isValidChar then some (Char.ofNat code) else none

/-- The character that a one-letter escape stands for. -/
def shortEscape? (c : Char) : Option Char :=
  match c with
  | 'b' => some '\x08'
  | 't' => some '\t'
  | 'n' => some '\n'
  | 'f' => some '\x0c'
  | 'r' => some '\r'
  | '"' => some '"'
  | '\\' => some '\\'
  | _ => none

/-- The text of a string between double quotes, and what follows it. In a long string, a backslash
at the end of a line takes away all blanks and line ends up to the next other character; `continued`
says that this goes on here. -/
def readEscaped? (long continued : Bool) : List Char → Option (List Char × List Char)
  | [] => none
  | '\\' :: 'u' :: a :: b :: c :: d :: rest => do
    let char ← codedChar? [a, b, c, d]
    let (text, after) ← readEscaped? long false rest
    some (char :: text, after)
  | '\\' :: 'U' :: a :: b :: c :: d :: e :: f :: g :: h :: rest => do
    let char ← codedChar? [a, b, c, d, e, f, g, h]
    let (text, after) ← readEscaped? long false rest
    some (char :: text, after)
  | '\\' :: letter :: rest =>
    match shortEscape? letter with
    | some char => (readEscaped? long false rest).map fun (text, after) => (char :: text, after)
    | none =>
      if long && (afterLineEnd? (skipBlanks (letter :: rest))).isSome then
        readEscaped? long true rest
      else none
  | c :: rest =>
    let endsLine := c == '\n' || (c == '\r' && rest.head? == some '\n')
    if continued && (isBlank c || endsLine) then readEscaped? long true rest
    else
      match stringEnd? '"' long (c :: rest) with
      | some ending => some ending
      | none =>
        if c == '\r' && rest.head? == some '\n' then readEscaped? long false rest
        else if isStringChar long c then
          (readEscaped? long false rest).map fun (text, after) => (c :: text, after)
        else none

/-- A string in one of the four forms, and what follows it. A line end right after three opening
quotes does not belong to the string. -/
def readString? (text : List Char) : Option (List Char × List Char) :=
  match text with
  | '"' :: '"' :: '"' :: rest => readEscaped? true false ((afterLineEnd? rest).getD rest)
  | '\'' :: '\'' :: '\'' :: rest => readVerbatim? true ((afterLineEnd? rest).getD rest)
  | '"' :: rest => readEscaped? false false rest
  | '\'' :: rest => readVerbatim? false rest
  | _ => none

end FlatLiquid.Toml
