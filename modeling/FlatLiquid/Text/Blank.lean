/-!
Contract: blank characters and the cuts of a text that depend on them.

Owns:
- the class of blank characters;
- trimming, the first word of a text and the lines of a text;
- the parts of a text between separators.

Does not own: word characters, which are in FlatLiquid.Text.Word.
-/

namespace FlatLiquid.Text

/-- Spaces, tabs, line ends and the separators of other scripts are blank. The zero-width space and
the byte order mark are not. -/
def isBlank (c : Char) : Bool :=
  let code := c.toNat
  (0x09 ≤ code && code ≤ 0x0D) || code == 0x20 || code == 0x85 || code == 0xA0 ||
    code == 0x1680 || (0x2000 ≤ code && code ≤ 0x200A) || code == 0x2028 || code == 0x2029 ||
    code == 0x202F || code == 0x205F || code == 0x3000

/-- The text from its first character that is not blank. -/
def skipBlanks (text : List Char) : List Char :=
  text.dropWhile isBlank

/-- The text without the blanks at its two ends. -/
def trim (text : List Char) : List Char :=
  (skipBlanks (skipBlanks text).reverse).reverse

/-- The string without the blanks at its two ends. -/
def trimmed (text : String) : String :=
  String.ofList (trim text.toList)

/-- The first run of characters that are not blank, unless the whole text is blank. -/
def firstWord? (text : List Char) : Option (List Char) :=
  match (skipBlanks text).takeWhile (fun c => !isBlank c) with
  | [] => none
  | word => some word

/-- The lines of a text without their ends. A line feed ends a line, together with a carriage return
right before it; nothing follows the last line end. -/
def lines : List Char → List (List Char)
  | [] => []
  | '\r' :: '\n' :: rest => [] :: lines rest
  | '\n' :: rest => [] :: lines rest
  | c :: rest =>
    match lines rest with
    | [] => [[c]]
    | line :: others => (c :: line) :: others

/-- The parts of a text between separators. There is one part more than there are separators. -/
def split (separator : Char) : List Char → List (List Char)
  | [] => [[]]
  | c :: rest =>
    if c = separator then [] :: split separator rest
    else
      match split separator rest with
      | [] => [[c]]
      | part :: others => (c :: part) :: others

end FlatLiquid.Text
