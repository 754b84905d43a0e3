import FlatLiquid.Json.Numeral
import FlatLiquid.Json.Quotation

/-!
Contract: JSON text as a tree that remembers its places.

Owns:
- nodes, which keep the spelling and the place of everything in a text, up to the point where the
  text stops being JSON;
- the scanner, which makes a node of a text and never fails.

Does not own: what a node means, which is in FlatLiquid.Json.Reading and FlatLiquid.Json.Codec. A
node may still hold numbers that are too great and strings with lone surrogates, since whoever skips
a value does not mind them.
-/

namespace FlatLiquid.Json

/-- The point where a text stops being JSON, as it is reported to one who reads the value there and
to one who skips it. -/
structure Break where
  reading : Fault
  skipping : Fault

/-- A break that is reported in one way. -/
def Break.same (fault : Fault) : Break :=
  ⟨fault, fault⟩

/-- A break at the next character. -/
def Break.at (cause : Cause) (cursor : Cursor) : Break :=
  .same (.at cause cursor.reach)

/-- How an array or an object ends. -/
inductive Ending where
  | closed (after : Cursor)
  | broken (stop : Break)

/-- The key of a field: its text, unless it has lone surrogates, and the place after it. -/
structure Key where
  text : Except Fault (List Char)
  after : Cursor

/-- A value in a text. -/
inductive Node where
  | null (after : Cursor)
  | bool (value : Bool) (after : Cursor)
  | number (numeral : Numeral) (after : Cursor)
  | string (text : Except Fault (List Char)) (after : Cursor)
  | array (start : Cursor) (items : List Node) (ending : Ending)
  | object (start : Cursor) (fields : List (Key × Node)) (ending : Ending)
  | broken (stop : Break)

/-- The place after a value, or the break in it. -/
def Node.finish : Node → Except Break Cursor
  | .null after => .ok after
  | .bool _ after => .ok after
  | .number _ after => .ok after
  | .string _ after => .ok after
  | .array _ _ (.closed after) => .ok after
  | .array _ _ (.broken stop) => .error stop
  | .object _ _ (.closed after) => .ok after
  | .object _ _ (.broken stop) => .error stop
  | .broken stop => .error stop

/-! ## Single values -/

/-- The place after a word that is due from here on. -/
def scanWord : List Char → Cursor → Except Break Cursor
  | [], cursor => .ok cursor
  | letter :: letters, cursor =>
    match cursor.rest with
    | [] => .error (.at .endInValue cursor)
    | c :: _ =>
      if c == letter then scanWord letters cursor.step else .error (.at .wordMismatch cursor)

/-- A digit that is due and missing. One who skips the number does not tell the end of the text from
another character. -/
def digitMissing (cursor : Cursor) : Break :=
  if cursor.rest.isEmpty then
    ⟨.at .endInValue cursor.reach, .at .invalidNumber cursor.reach⟩
  else .at .invalidNumber cursor

/-- The digits before the point: a single zero, or digits that do not start with one. -/
def scanWhole (cursor : Cursor) : Except Break (List Char × Cursor) :=
  match cursor.rest with
  | '0' :: next :: _ =>
    if next.isDigit then .error (.at .invalidNumber cursor.step) else .ok (['0'], cursor.step)
  | _ =>
    let (digits, after) := cursor.takeDigits
    if digits.isEmpty then .error (digitMissing cursor) else .ok (digits, after)

/-- The digits after a point, if there is one. -/
def scanFraction (cursor : Cursor) : Except Break (List Char × Cursor) :=
  match cursor.rest with
  | '.' :: _ =>
    let (digits, after) := cursor.step.takeDigits
    if digits.isEmpty then .error (digitMissing cursor.step) else .ok (digits, after)
  | _ => .ok ([], cursor)

/-- The place after an exponent's sign, and whether it is a minus. -/
def scanSign (cursor : Cursor) : Bool × Cursor :=
  match cursor.rest with
  | '+' :: _ => (false, cursor.step)
  | '-' :: _ => (true, cursor.step)
  | _ => (false, cursor)

/-- The sign and the digits after an exponent mark, if there is one. -/
def scanExponent (cursor : Cursor) : Except Break (Option (Bool × List Char) × Cursor) :=
  match cursor.rest with
  | mark :: _ =>
    if mark == 'e' || mark == 'E' then
      let (negative, start) := scanSign cursor.step
      let (digits, after) := start.takeDigits
      if digits.isEmpty then .error (digitMissing start) else .ok (some (negative, digits), after)
    else .ok (none, cursor)
  | [] => .ok (none, cursor)

def scanNumber (cursor : Cursor) : Except Break (Numeral × Cursor) := do
  let negative := cursor.rest.head? == some '-'
  let (whole, afterWhole) ← scanWhole (if negative then cursor.step else cursor)
  let (fraction, afterFraction) ← scanFraction afterWhole
  let (exponent, after) ← scanExponent afterFraction
  pure (⟨negative, whole, fraction, exponent⟩, after)

/-- A string from its opening quote on: its text, unless it has lone surrogates, and the place after
its closing quote. -/
def scanString (cursor : Cursor) : Except Break (Except Fault (List Char) × Cursor) :=
  let start := cursor.step
  let text := (readString start.rest start.offset).map Prod.fst
  match skipString start.rest start.offset with
  | .ok after => .ok (text, after)
  | .error fault =>
    match text with
    | .ok _ => .error (.same fault)
    | .error first => .error ⟨first, fault⟩

/-! ## Arrays and objects -/

/-- What stands between two items, or after the last one. -/
inductive Separator where
  | comma (next : Cursor)
  | ending (ending : Ending)

/-- The separator of an array after an item. -/
def scanItemSeparator (after : Cursor) : Separator :=
  let gap := after.skipBlanks
  match gap.rest with
  | [] => .ending (.broken (.at .endInList gap))
  | ']' :: _ => .ending (.closed gap.step)
  | ',' :: _ =>
    let next := gap.step.skipBlanks
    match next.rest with
    | [] => .ending (.broken (.at .endInValue next))
    | ']' :: _ =>
      .ending (.broken ⟨.at .trailingComma next.reach, .at .valueMissing next.reach⟩)
    | _ => .comma next
  | _ => .ending (.broken (.at .itemSeparatorMissing gap))

/-- The separator of an object after a field. -/
def scanFieldSeparator (after : Cursor) : Separator :=
  let gap := after.skipBlanks
  match gap.rest with
  | [] => .ending (.broken (.at .endInObject gap))
  | '\x7d' :: _ => .ending (.closed gap.step)
  | ',' :: _ =>
    let next := gap.step.skipBlanks
    match next.rest with
    | [] => .ending (.broken ⟨.at .endInValue next.reach, .at .endInObject next.reach⟩)
    | '\x7d' :: _ =>
      .ending (.broken ⟨.at .trailingComma next.reach, .at .keyNotString next.reach⟩)
    | '"' :: _ => .comma next
    | _ => .ending (.broken (.at .keyNotString next))
  | _ => .ending (.broken (.at .fieldSeparatorMissing gap))

/-- The place after the colon of a field. -/
def scanColon (after : Cursor) : Except Break Cursor :=
  let gap := after.skipBlanks
  match gap.rest with
  | [] => .error (.at .endInObject gap)
  | ':' :: _ => .ok gap.step
  | _ => .error (.at .colonMissing gap)

mutual

/-- The value that starts after blanks. -/
def scanValue : Nat → Cursor → Node
  | 0, cursor => .broken (.at .endInValue cursor)
  | fuel + 1, cursor =>
    let start := cursor.skipBlanks
    match start.rest with
    | [] => .broken (.at .endInValue start)
    | 'n' :: _ =>
      match scanWord ['n', 'u', 'l', 'l'] start with
      | .ok after => .null after
      | .error stop => .broken stop
    | 't' :: _ =>
      match scanWord ['t', 'r', 'u', 'e'] start with
      | .ok after => .bool true after
      | .error stop => .broken stop
    | 'f' :: _ =>
      match scanWord ['f', 'a', 'l', 's', 'e'] start with
      | .ok after => .bool false after
      | .error stop => .broken stop
    | '"' :: _ =>
      match scanString start with
      | .ok (text, after) => .string text after
      | .error stop => .broken stop
    | '[' :: _ =>
      let first := start.step.skipBlanks
      match first.rest with
      | [] => .array start [] (.broken (.at .endInList first))
      | ']' :: _ => .array start [] (.closed first.step)
      | _ =>
        let (items, ending) := scanItems fuel first
        .array start items ending
    | '\x7b' :: _ =>
      let first := start.step.skipBlanks
      match first.rest with
      | [] => .object start [] (.broken (.at .endInObject first))
      | '\x7d' :: _ => .object start [] (.closed first.step)
      | '"' :: _ =>
        let (fields, ending) := scanFields fuel first
        .object start fields ending
      | _ => .object start [] (.broken (.at .keyNotString first))
    | c :: _ =>
      if c == '-' || c.isDigit then
        match scanNumber start with
        | .ok (numeral, after) => .number numeral after
        | .error stop => .broken stop
      else .broken (.at .valueMissing start)

/-- The items of an array from one of them on. -/
def scanItems : Nat → Cursor → List Node × Ending
  | 0, cursor => ([], .broken (.at .endInValue cursor))
  | fuel + 1, cursor =>
    let item := scanValue fuel cursor
    match item.finish with
    | .error stop => ([item], .broken stop)
    | .ok after =>
      match scanItemSeparator after with
      | .ending ending => ([item], ending)
      | .comma next =>
        let (items, ending) := scanItems fuel next
        (item :: items, ending)

/-- The fields of an object from the opening quote of a key on. -/
def scanFields : Nat → Cursor → List (Key × Node) × Ending
  | 0, cursor => ([], .broken (.at .endInValue cursor))
  | fuel + 1, cursor =>
    match scanString cursor with
    | .error stop => ([], .broken stop)
    | .ok (text, afterKey) =>
      let key : Key := ⟨text, afterKey⟩
      match scanColon afterKey with
      | .error stop => ([(key, .broken stop)], .broken stop)
      | .ok start =>
        let value := scanValue fuel start
        match value.finish with
        | .error stop => ([(key, value)], .broken stop)
        | .ok after =>
          match scanFieldSeparator after with
          | .ending ending => ([(key, value)], ending)
          | .comma next =>
            let (fields, ending) := scanFields fuel next
            ((key, value) :: fields, ending)

end

/-- The value at the front of a text. A bracket and the items inside it take one step each, so twice
the number of characters is enough for the whole text. -/
def Node.ofText (text : List Char) : Node :=
  scanValue (2 * text.length + 2) (.ofText text)

end FlatLiquid.Json
