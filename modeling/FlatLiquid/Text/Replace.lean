/-!
Contract: replacing what a rule recognizes, from left to right.

Owns:
- replacement rules, which look at one place of a text;
- the pass that applies a rule wherever it fits and never looks at its own output again;
- the pass that only collects what a rule recognizes.
-/

namespace FlatLiquid.Text

/-- A rule looks at the character before a place and at the text from there. It answers what it
makes of the text that it recognizes, and the text after it. -/
abbrev Rule (α : Type) := Option Char → List Char → Option (α × List Char)

/-- Applies a rule at every place in turn, after `skip` characters that an earlier fit covers. -/
def replaceFrom (rule : Rule (List Char)) : Option Char → Nat → List Char → List Char
  | _, _, [] => []
  | _, skip + 1, c :: rest => replaceFrom rule (some c) skip rest
  | before, 0, c :: rest =>
    match rule before (c :: rest) with
    | some (replacement, after) =>
      replacement ++ replaceFrom rule (some c) (rest.length - after.length) rest
    | none => c :: replaceFrom rule (some c) 0 rest

/-- Replaces everything that the rule recognizes. Fits do not overlap, the leftmost comes first, and
what a replacement inserts is not looked at. -/
def replaceAll (rule : Rule (List Char)) (text : List Char) : List Char :=
  replaceFrom rule none 0 text

/-- Collects from every place in turn, after `skip` characters that an earlier fit covers. -/
def findFrom {α : Type} (rule : Rule α) : Option Char → Nat → List Char → List α
  | _, _, [] => []
  | _, skip + 1, c :: rest => findFrom rule (some c) skip rest
  | before, 0, c :: rest =>
    match rule before (c :: rest) with
    | some (value, after) => value :: findFrom rule (some c) (rest.length - after.length) rest
    | none => findFrom rule (some c) 0 rest

/-- Everything that the rule recognizes, from left to right and without overlaps. -/
def findAll {α : Type} (rule : Rule α) (text : List Char) : List α :=
  findFrom rule none 0 text

end FlatLiquid.Text
