/-!
Contract: names that may be written into a template.

Owns:
- the identifier that is made of a key;
- the tests for store handles and for section ids.

All three classes of characters are ASCII only, so that no name can hold a quote or a delimiter.
-/

namespace FlatLiquid

def identifierLimit : Nat := 64

def handleLimit : Nat := 255

def sectionIdLimit : Nat := 64

/-- Letters, digits and the underscore. -/
def isIdentifierChar (c : Char) : Bool :=
  c.isAlphanum || c == '_'

/-- A letter or an underscore. -/
def isIdentifierStart (c : Char) : Bool :=
  c.isAlpha || c == '_'

/-- The identifier that a key becomes. Characters that may not stand in an identifier become
underscores. A key that is too long, or that does not start like an identifier, becomes none. -/
def identifier? (key : List Char) : Option (List Char) :=
  match key with
  | [] => none
  | first :: _ =>
    if isIdentifierStart first && key.length ≤ identifierLimit then
      some (key.map fun c => if isIdentifierChar c then c else '_')
    else none

/-- A store handle: letters, digits and dashes. -/
def isHandle (text : List Char) : Bool :=
  !text.isEmpty && text.length ≤ handleLimit && text.all fun c => c.isAlphanum || c == '-'

/-- A section id: letters, digits, underscores and dashes. -/
def isSectionId (text : List Char) : Bool :=
  !text.isEmpty && text.length ≤ sectionIdLimit &&
    text.all fun c => isIdentifierChar c || c == '-'

/-- Every character of an identifier may stand in one. -/
theorem isIdentifierChar_of_mem {key name : List Char} {c : Char}
    (made : identifier? key = some name) (member : c ∈ name) : isIdentifierChar c = true := by
  cases key with
  | nil => simp [identifier?] at made
  | cons first rest =>
    simp only [identifier?] at made
    split at made
    · obtain rfl := Option.some.inj made
      obtain ⟨source, _, rfl⟩ := List.mem_map.mp member
      split
      · assumption
      · decide
    · simp at made

end FlatLiquid
