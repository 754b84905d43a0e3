import FlatLiquid.Statement.Basic
import FlatLiquid.Template.Tag
import FlatLiquid.Proofs.Text.Classes

/-!
Contract: a template falls into the pieces that it is put together from.

Owns:
- the tag that a written tag is read as, with markup or with a name and nothing else;
- the pieces of a text that goes on after a tag, and of one that goes on after plain characters.
-/

namespace FlatLiquid

open Text (isWordChar)

theorem closeTag?_append {markup : List Char} (free : '%' ∉ markup) (rest : List Char) :
    closeTag? (markup ++ ' ' :: '%' :: '\x7d' :: rest) = some (markup ++ [' '], rest) := by
  induction markup with
  | nil => rfl
  | cons c tail inductionHypothesis =>
    rw [List.mem_cons, not_or] at free
    have later := inductionHypothesis free.2
    have step : closeTag? (c :: (tail ++ ' ' :: '%' :: '\x7d' :: rest)) =
        (closeTag? (tail ++ ' ' :: '%' :: '\x7d' :: rest)).map fun found =>
          (c :: found.1, found.2) := by
      -- a dash ends the markup only before a percent sign, and neither `tail` nor the space is one
      rw [closeTag?.eq_3]
      · intro more _ same
        cases tail with
        | nil => simp at same
        | cons d tail => exact free.2 (by simp [(List.cons.inj same).1])
      · intro more same
        exact absurd same.symm free.1
    rw [List.cons_append, step, later]
    rfl

/-- A tag that is written with a name and more markup is read as such, if its markup is closed where it
is written to be. -/
theorem tag?_tagText_of_closed {name markup rest : List Char} (named : name ≠ [])
    (word : name.all isWordChar = true) (ends : ∀ c ∈ markup.head?, isWordChar c = false)
    (closed : closeTag? (markup ++ ' ' :: '%' :: '\x7d' :: rest) = some (markup ++ [' '], rest)) :
    tag? (tagText (name ++ markup) ++ rest) =
      some (⟨name, markup ++ [' '], tagText (name ++ markup)⟩, rest) := by
  have shape : tagText (name ++ markup) ++ rest =
      '\x7b' :: '%' :: ' ' :: (name ++ (markup ++ ' ' :: '%' :: '\x7d' :: rest)) := by
    simp [tagText]
  have inside : ∀ c ∈ name, isWordChar c = true := List.all_eq_true.mp word
  have opened : openTag? (tagText (name ++ markup) ++ rest) =
      some (name ++ (markup ++ ' ' :: '%' :: '\x7d' :: rest)) := by
    rw [shape, openTag?, Text.skipBlanks_word named inside]
    simp
  have following : Text.endsWord (markup ++ ' ' :: '%' :: '\x7d' :: rest) = true := by
    cases markup with
    | nil => rfl
    | cons c tail => simpa [Text.endsWord] using ends c rfl
  have nameRead := Text.wordOf_append inside following
  have afterName := Text.afterWord_append inside following
  rw [tag?, opened]
  simp [nameRead, afterName, named, closed]

/-- A tag whose markup holds no percent sign is read as it is written. -/
theorem tag?_tagText (name markup : List Char) (named : name ≠ []) (word : name.all isWordChar = true)
    (ends : ∀ c ∈ markup.head?, isWordChar c = false) (free : '%' ∉ markup) (rest : List Char) :
    tag? (tagText (name ++ markup) ++ rest) =
      some (⟨name, markup ++ [' '], tagText (name ++ markup)⟩, rest) :=
  tag?_tagText_of_closed named word ends (closeTag?_append free rest)

/-! ## Pieces -/

theorem piecesFrom_skip (covered rest : List Char) :
    piecesFrom covered.length (covered ++ rest) = piecesFrom 0 rest := by
  induction covered with
  | nil => rfl
  | cons c tail inductionHypothesis =>
    rw [List.length_cons, List.cons_append, piecesFrom, inductionHypothesis]

/-- A text that starts with a tag has the tag as its first piece. -/
theorem piecesFrom_tag {tag : Tag} {rest : List Char} (nonempty : tag.source ≠ [])
    (read : tag? (tag.source ++ rest) = some (tag, rest)) :
    piecesFrom 0 (tag.source ++ rest) = .tag tag :: piecesFrom 0 rest := by
  obtain ⟨c, covered, source⟩ := List.exists_cons_of_ne_nil nonempty
  have size : tag.source.length - 1 = covered.length := by simp [source]
  have tail : tag.source ++ rest = c :: (covered ++ rest) := by rw [source, List.cons_append]
  rw [tail] at read ⊢
  rw [piecesFrom, read]
  simp only
  rw [size, piecesFrom_skip]

/-- A tag of a name and nothing else. -/
def bareTag (name : List Char) : Tag :=
  ⟨name, [' '], tagText name⟩

theorem tag?_bareTag {name : List Char} (named : name ≠ [])
    (word : name.all isWordChar = true) (rest : List Char) :
    tag? ((bareTag name).source ++ rest) = some (bareTag name, rest) := by
  have read := tag?_tagText name [] named word (by simp) (by simp) rest
  rw [List.append_nil] at read
  exact read

theorem piecesFrom_bareTag {name rest : List Char}
    (read : tag? (tagText name ++ rest) = some (bareTag name, rest)) :
    piecesFrom 0 (tagText name ++ rest) = .tag (bareTag name) :: piecesFrom 0 rest := by
  have nonempty : (bareTag name).source ≠ [] := List.cons_ne_nil _ _
  exact piecesFrom_tag nonempty read

/-- No tag starts without an opening brace and a percent sign. -/
theorem tag?_eq_none_of_unopened {c : Char} {text : List Char}
    (unopened : c ≠ '\x7b' ∨ text.head? ≠ some '%') : tag? (c :: text) = none := by
  have nothing : openTag? (c :: text) = none := by
    unfold openTag?
    split
    · next same =>
      obtain ⟨rfl, rfl⟩ := List.cons.inj same
      simp at unopened
    · next same =>
      obtain ⟨rfl, rfl⟩ := List.cons.inj same
      simp at unopened
    · rfl
  rw [tag?, nothing]
  rfl

/-- No tag starts with a character other than an opening brace. -/
theorem tag?_of_ne {c : Char} (other : c ≠ '\x7b') (rest : List Char) : tag? (c :: rest) = none :=
  tag?_eq_none_of_unopened (.inl other)

/-- Characters without an opening brace are pieces of their own. -/
theorem piecesFrom_plain {plain : List Char} (free : '\x7b' ∉ plain) (rest : List Char) :
    piecesFrom 0 (plain ++ rest) = plain.map .char ++ piecesFrom 0 rest := by
  induction plain with
  | nil => rfl
  | cons c tail inductionHypothesis =>
    rw [List.mem_cons, not_or] at free
    rw [List.cons_append, piecesFrom, tag?_of_ne (Ne.symm free.1)]
    simp only
    rw [inductionHypothesis free.2, List.map_cons, List.cons_append]

/-- An opening brace that no percent sign follows is a piece of its own. -/
theorem piecesFrom_brace {rest : List Char} (other : rest.head? ≠ some '%') :
    piecesFrom 0 ('\x7b' :: rest) = .char '\x7b' :: piecesFrom 0 rest := by
  rw [piecesFrom, tag?_eq_none_of_unopened (.inr other)]

/-- Pieces of plain characters are written as these. -/
theorem sourceOf_map_char (text : List Char) : sourceOf (text.map .char) = text := by
  induction text with
  | nil => rfl
  | cons c rest inductionHypothesis =>
    rw [sourceOf, List.map_cons, List.flatMap_cons]
    exact congrArg (c :: ·) inductionHypothesis

/-- Plain characters outside verbatim regions stay what they are. -/
theorem hideVerbatim_map_char (text : List Char) (rest : List Piece) :
    hideVerbatim none (text.map .char ++ rest) = text.map .char ++ hideVerbatim none rest := by
  induction text with
  | nil => rfl
  | cons c tail inductionHypothesis =>
    rw [List.map_cons, List.cons_append, hideVerbatim, inductionHypothesis]
    rfl

end FlatLiquid
