import FlatLiquid.Schema.SettingValue

/-!
Contract: statements that bind a variable of a template.

Owns:
- statements and the literals in them, with their text;
- the way a value is written: which quotes, and when as a captured text;
- the spaces that take the meaning from the delimiters in a captured text.

A literal has no escapes. A text is put between quotes that it does not hold; where there are none,
or where the text holds a delimiter, it is captured instead.
-/

namespace FlatLiquid

/-- Two characters that open or close a tag. -/
def isDelimiter (first second : Char) : Bool :=
  (first == '\x7b' && (second == '\x7b' || second == '%')) ||
    ((first == '%' || first == '\x7d') && second == '\x7d')

/-- Two neighbours in a text are a delimiter. -/
def hasDelimiter : List Char → Bool
  | first :: second :: rest => isDelimiter first second || hasDelimiter (second :: rest)
  | _ => false

/-- The text with a space inside each delimiter. -/
def splitDelimiters : List Char → List Char
  | first :: second :: rest =>
    if isDelimiter first second then first :: ' ' :: splitDelimiters (second :: rest)
    else first :: splitDelimiters (second :: rest)
  | short => short

/-- The two kinds of quotes. -/
inductive Quote where
  | single
  | double
deriving DecidableEq, Repr

def Quote.char : Quote → Char
  | .single => '\''
  | .double => '"'

/-- How a text is written. -/
inductive TextStyle where
  | quoted (quote : Quote)
  | captured
deriving DecidableEq, Repr

/-- The style of a text: single quotes unless it holds them, double quotes unless it holds them too,
and captured if it holds both or a delimiter. -/
def TextStyle.ofText (text : List Char) : TextStyle :=
  if hasDelimiter text then .captured
  else
    match text.contains '\'', text.contains '"' with
    | true, true => .captured
    | true, false => .quoted .double
    | false, _ => .quoted .single

/-- The right-hand side of an assignment. -/
inductive Literal where
  | nil
  | bool (value : Bool)
  | number (value : Float)
  | count (value : Nat)
  | quoted (quote : Quote) (text : List Char)

/-- A statement that binds a variable: to a literal, to a captured text, or to the resource of a
handle in a collection of them. -/
inductive Statement where
  | assign (name : List Char) (value : Literal)
  | capture (name : List Char) (body : List Char)
  | lookup (name : List Char) (collection : List Char) (handle : List Char)

/-- The variable that a statement binds. -/
def Statement.name : Statement → List Char
  | .assign name _ => name
  | .capture name _ => name
  | .lookup name _ _ => name

/-! ## Text -/

def Literal.render : Literal → List Char
  | .nil => "nil".toList
  | .bool value => (if value then "true" else "false").toList
  | .number value => (numberText value).toList
  | .count value => Nat.toDigits 10 value
  | .quoted quote text => quote.char :: text ++ [quote.char]

/-- A tag around its markup. -/
def tagText (markup : List Char) : List Char :=
  '\x7b' :: '%' :: ' ' :: markup ++ [' ', '%', '\x7d']

/-- An assignment of a right-hand side. -/
def assignText (name right : List Char) : List Char :=
  tagText ("assign ".toList ++ name ++ " = ".toList ++ right)

/-- The text of a statement. A captured text is written with its delimiters split. -/
def Statement.render : Statement → List Char
  | .assign name value => assignText name value.render
  | .capture name body =>
    tagText ("capture ".toList ++ name) ++ splitDelimiters body ++ tagText "endcapture".toList
  | .lookup name collection handle =>
    assignText name (collection ++ "['".toList ++ handle ++ "']".toList)

def Statement.text (statement : Statement) : String :=
  String.ofList statement.render

/-! ## Values -/

/-- The statement that binds a variable to a text. An empty text is nil. -/
def Statement.ofText (name text : List Char) : Statement :=
  if text.isEmpty then .assign name .nil
  else
    match TextStyle.ofText text with
    | .quoted quote => .assign name (.quoted quote text)
    | .captured => .capture name text

/-- The statement that binds a variable to a value. A number that is not finite is nil. No variable
holds an array or an object. -/
def Statement.ofValue? (name : List Char) : SettingValue → Option Statement
  | .nil => some (.assign name .nil)
  | .bool value => some (.assign name (.bool value))
  | .number value =>
    some (.assign name (if value.isFinite then .number value else .nil))
  | .string text => some (.ofText name text.toList)
  | .unsupported _ => none

end FlatLiquid
