import FlatLiquid.Json.Printer

/-!
Contract: the compact and the indented form of a value are one form with different blanks.

Owns:
- layouts, which say what blanks stand before items and closing brackets and after colons;
- the form of a value in a layout;
- the compact and the indented form as forms in a layout.
-/

namespace FlatLiquid.Json

/-- The blanks of a printed value. `line` stands before an item and before a closing bracket, at a
depth of indentation, and `gap` stands between a colon and a value. -/
structure Layout where
  line : Nat → List Char
  gap : List Char

namespace Layout

mutual

/-- A value in a layout. Empty arrays and objects have no blanks. -/
def print (layout : Layout) (depth : Nat) : Json → List Char
  | .array [] => "[]".toList
  | .array items => '[' :: layout.printItems depth items ++ layout.line depth ++ [']']
  | .object [] => ['\x7b', '\x7d']
  | .object fields => '\x7b' :: layout.printFields depth fields ++ layout.line depth ++ ['\x7d']
  | .null => "null".toList
  | .bool value => (if value then "true" else "false").toList
  | .number value => printNumber value
  | .string text => printString text

/-- Items with commas between them. -/
def printItems (layout : Layout) (depth : Nat) : List Json → List Char
  | [] => []
  | [item] => layout.line (depth + 1) ++ layout.print (depth + 1) item
  | item :: rest =>
    layout.line (depth + 1) ++ layout.print (depth + 1) item ++
      ',' :: layout.printItems depth rest

/-- Fields with commas between them. -/
def printFields (layout : Layout) (depth : Nat) : List (String × Json) → List Char
  | [] => []
  | [(key, value)] =>
    layout.line (depth + 1) ++ printString key ++
      ':' :: (layout.gap ++ layout.print (depth + 1) value)
  | (key, value) :: rest =>
    layout.line (depth + 1) ++ printString key ++
      ':' :: (layout.gap ++ layout.print (depth + 1) value) ++
        ',' :: layout.printFields depth rest

end

/-- No blanks at all. -/
def compact : Layout where
  line := fun _ => []
  gap := []

/-- Items on lines of their own, and a space after each colon. -/
def indented : Layout where
  line := newLine
  gap := [' ']

/-! ## Unfolding -/

variable (layout : Layout) (depth : Nat)

theorem print_array (first : Json) (rest : List Json) :
    layout.print depth (.array (first :: rest)) =
      '[' :: layout.printItems depth (first :: rest) ++ layout.line depth ++ [']'] := rfl

theorem print_object (first : String × Json) (rest : List (String × Json)) :
    layout.print depth (.object (first :: rest)) =
      '\x7b' :: layout.printFields depth (first :: rest) ++ layout.line depth ++ ['\x7d'] := rfl

/-- Items after the first one stand behind a comma. -/
theorem printItems_cons (first second : Json) (rest : List Json) :
    layout.printItems depth (first :: second :: rest) =
      layout.line (depth + 1) ++ layout.print (depth + 1) first ++
        ',' :: layout.printItems depth (second :: rest) := rfl

theorem printFields_cons (key : String) (value : Json) (second : String × Json)
    (rest : List (String × Json)) :
    layout.printFields depth ((key, value) :: second :: rest) =
      layout.line (depth + 1) ++ printString key ++
        ':' :: (layout.gap ++ layout.print (depth + 1) value) ++
          ',' :: layout.printFields depth (second :: rest) := rfl

end Layout

/-! ## The two forms -/

mutual

theorem printCompact_eq (depth : Nat) : (value : Json) →
    value.printCompact = Layout.compact.print depth value
  | .null => rfl
  | .bool _ => rfl
  | .number _ => rfl
  | .string _ => rfl
  | .array [] => rfl
  | .array (first :: rest) => by
    rw [printCompact, printItems_eq depth (first :: rest), Layout.print_array]
    simp [Layout.compact]
  | .object [] => rfl
  | .object (first :: rest) => by
    rw [printCompact, printFields_eq depth (first :: rest), Layout.print_object]
    simp [Layout.compact]

theorem printItems_eq (depth : Nat) : (items : List Json) →
    printItems items = Layout.compact.printItems depth items
  | [] => rfl
  | [item] => printCompact_eq (depth + 1) item
  | first :: second :: rest => by
    change printCompact first ++ ',' :: printItems (second :: rest) = _
    rw [printCompact_eq (depth + 1) first, printItems_eq depth (second :: rest)]
    rfl

theorem printFields_eq (depth : Nat) : (fields : List (String × Json)) →
    printFields fields = Layout.compact.printFields depth fields
  | [] => rfl
  | [(key, value)] => by
    rw [printFields, printCompact_eq (depth + 1) value, Layout.printFields]
    rfl
  | (key, value) :: second :: rest => by
    change printString key ++ ':' :: printCompact value ++ ',' :: printFields (second :: rest) = _
    rw [printCompact_eq (depth + 1) value, printFields_eq depth (second :: rest)]
    rfl

end

mutual

theorem printIndented_eq (depth : Nat) : (value : Json) →
    printIndented depth value = Layout.indented.print depth value
  | .null => rfl
  | .bool _ => rfl
  | .number _ => rfl
  | .string _ => rfl
  | .array [] => rfl
  | .array (first :: rest) => by
    rw [printIndented, printItemLines_eq depth (first :: rest)]
    · rfl
    · exact List.cons_ne_nil _ _
  | .object [] => rfl
  | .object (first :: rest) => by
    rw [printIndented, printFieldLines_eq depth (first :: rest)]
    · rfl
    · exact List.cons_ne_nil _ _

theorem printItemLines_eq (depth : Nat) : (items : List Json) →
    printItemLines depth items = Layout.indented.printItems depth items
  | [] => rfl
  | [item] => by
    rw [printItemLines, printIndented_eq (depth + 1) item]
    rfl
  | first :: second :: rest => by
    change newLine (depth + 1) ++ printIndented (depth + 1) first ++
      ',' :: printItemLines depth (second :: rest) = _
    rw [printIndented_eq (depth + 1) first, printItemLines_eq depth (second :: rest)]
    rfl

theorem printFieldLines_eq (depth : Nat) : (fields : List (String × Json)) →
    printFieldLines depth fields = Layout.indented.printFields depth fields
  | [] => rfl
  | [(key, value)] => by
    rw [printFieldLines, printIndented_eq (depth + 1) value]
    rfl
  | (key, value) :: second :: rest => by
    change newLine (depth + 1) ++ printString key ++ ':' :: ' ' :: printIndented (depth + 1) value ++
      ',' :: printFieldLines depth (second :: rest) = _
    rw [printIndented_eq (depth + 1) value, printFieldLines_eq depth (second :: rest)]
    rfl

end

end FlatLiquid.Json
