import FlatLiquid.Proofs.Template.Nesting

/-!
Contract: the search for the end of a loop is exact on well-nested tags.

Owns:
- what the search tells about the tags after the opening one: the place of the closing tag, the place
  of the loop's own else tag, and whether something in the loop iterates;
- the answer of the search for every well-nested list of tags, to any depth.

Well-nested tags are those of FlatLiquid.Proofs.Template.Nesting. Names that start with `end` and
close no block are plain there, so that the answer holds for more lists than those without them.
-/

namespace FlatLiquid

/-- The answer of a search among the tags after the opening tag of a loop. -/
structure LoopMatch where
  closing : Nat
  otherwise : Option Nat
  iterates : Bool
deriving DecidableEq, Repr

/-- The parts of a loop by their places. -/
def LoopParts.places (parts : LoopParts) : LoopMatch where
  closing := parts.inner.length
  otherwise := parts.alternative.map fun _ => parts.body.length
  iterates := parts.iterates

/-- Searches for the end of a loop among the tags after its opening tag. -/
def matchLoop? (tags : List Tag) : Option LoopMatch :=
  (LoopParts.find? [] (tags.map .tag)).map LoopParts.places

/-- A tag of the loop that starts an iteration: by its name, or on a line of its own markup. -/
def Tag.StartsIteration (tag : Tag) : Prop :=
  tag.name ∈ iterationTags ∨
    tag.name = "liquid".toList ∧
      ∃ line ∈ Text.lines tag.markup, ∃ word ∈ Text.firstWord? line, word ∈ iterationTags

theorem linesIterate_iff (markup : List Char) :
    linesIterate markup = true ↔
      ∃ line ∈ Text.lines markup, ∃ word ∈ Text.firstWord? line, word ∈ iterationTags := by
  rw [linesIterate, List.any_eq_true]
  apply exists_congr
  intro line
  apply and_congr_right
  intro _
  cases Text.firstWord? line <;> simp

theorem Tag.iterates_iff (tag : Tag) : tag.iterates = true ↔ tag.StartsIteration := by
  rw [Tag.iterates, Bool.or_eq_true, Bool.and_eq_true, beq_iff_eq, linesIterate_iff,
    List.contains_iff_mem]
  rfl

theorem LoopParts.iterates_iff (parts : LoopParts) :
    parts.iterates = true ↔ ∃ tag, .tag tag ∈ parts.inner ∧ tag.StartsIteration := by
  rw [iterates, List.any_eq_true]
  constructor
  · rintro ⟨piece, member, holds⟩
    cases piece with
    | char c => contradiction
    | tag tag => exact ⟨tag, member, tag.iterates_iff.mp holds⟩
  · rintro ⟨tag, member, starts⟩
    exact ⟨.tag tag, member, tag.iterates_iff.mpr starts⟩

/-- The tags of a body: what is repeated, and after an else tag of the loop the alternative. -/
def bodyTags (first : List Tag) (second : Option (Tag × List Tag)) : List Tag :=
  first ++ (second.map fun part => part.1 :: part.2).getD []

/-- After the opening tag of a loop stand well-nested tags, its closing tag, and any others. The
search answers the place of that closing tag, the place of the else tag at the level of the loop
exactly if there is one, and that the loop iterates exactly if one of the tags between, at whatever
depth, starts an iteration. -/
theorem matchLoop?_of_balanced {first : List Tag} {second : Option (Tag × List Tag)} {closing : Tag}
    (repeated : Balanced false (first.map .tag))
    (alternative : ∀ part ∈ second,
      part.1.name = "else".toList ∧ Balanced false (part.2.map .tag))
    (closes : closing.name = "endfor".toList) (after : List Tag) :
    let body := bodyTags first second
    ∃ iterates, matchLoop? (body ++ closing :: after) =
        some ⟨body.length, second.map fun _ => first.length, iterates⟩ ∧
      (body ++ closing :: after)[body.length]? = some closing ∧
      (∀ part ∈ second, (body ++ closing :: after)[first.length]? = some part.1) ∧
      (iterates = true ↔ ∃ tag ∈ body, tag.StartsIteration) := by
  intro body
  let parts : LoopParts := ⟨first.map .tag, second.map fun part => (part.1, part.2.map .tag),
    closing, after.map .tag⟩
  have inner : parts.inner = body.map .tag := by
    cases second <;>
      simp [LoopParts.inner, LoopParts.alternativePieces, parts, body, bodyTags]
  have nested : ∀ part ∈ parts.alternative, part.1.name = "else".toList ∧ Balanced false part.2 := by
    intro part isPart
    obtain ⟨written, isWritten, rfl⟩ := Option.map_eq_some_iff.mp isPart
    exact alternative written isWritten
  have found : LoopParts.find? [] ((body ++ closing :: after).map .tag) = some parts := by
    rw [List.map_append, List.map_cons, ← inner]
    exact LoopParts.find?_of_balanced parts repeated nested closes
  refine ⟨body.any Tag.iterates, ?_, ?_, ?_, ?_⟩
  · have iterates : parts.iterates = body.any Tag.iterates := by
      rw [LoopParts.iterates, inner, List.any_map]
      rfl
    rw [matchLoop?, found, Option.map_some, LoopParts.places, inner, iterates, List.length_map,
      List.length_map, Option.map_map]
    rfl
  · simp
  · intro part isPart
    obtain rfl := Option.mem_def.mp isPart
    simp [body, bodyTags]
  · rw [List.any_eq_true]
    exact exists_congr fun tag => and_congr_right fun _ => tag.iterates_iff

/-- The else tag of the condition is passed over, and the one of the loop is not. The iteration stands
on a line of a tag inside the condition. -/
theorem matchLoop?_of_condition :
    let tag (name markup : String) : Tag := ⟨name.toList, markup.toList, []⟩
    let first := [tag "if" " a ", tag "liquid" " echo a\n for b in c", tag "else" "", tag "endif" ""]
    let second := [tag "case" " a ", tag "else" "", tag "endcase" ""]
    matchLoop? (first ++ tag "else" "" :: second ++ [tag "endfor" "", tag "endfor" ""]) =
      some ⟨8, some 4, true⟩ := by
  intro tag first second
  have inCondition : Balanced true
      [.tag (tag "liquid" " echo a\n for b in c"), .tag (tag "else" "")] :=
    .plain (by decide) (.otherwise rfl .nil)
  have inCase : Balanced true [.tag (tag "else" "")] := .otherwise rfl .nil
  have repeated : Balanced false (first.map .tag) := .block (by decide) rfl inCondition .nil
  have alternative : ∀ part ∈ some (tag "else" "", second),
      part.1.name = "else".toList ∧ Balanced false (part.2.map .tag) := by
    rintro part ⟨⟩
    exact ⟨rfl, .block (by decide) rfl inCase .nil⟩
  have closes : (tag "endfor" "").name = "endfor".toList := rfl
  obtain ⟨iterates, found, -, -, exactly⟩ :=
    matchLoop?_of_balanced repeated alternative closes [tag "endfor" ""]
  have holds : iterates = true :=
    exactly.mpr ⟨tag "liquid" " echo a\n for b in c", by decide,
      .inr ⟨rfl, " for b in c".toList, by decide, "for".toList, by decide, by decide⟩⟩
  rw [holds] at found
  exact found

end FlatLiquid
