import FlatLiquid.Proofs.Template.Pieces

/-!
Contract: the tags of a joined text are those of its parts.

Owns:
- what the tag at the front of a text covers, and that it stays when the text goes on;
- texts in which every tag is complete, after which a scan starts afresh;
- the verbatim region that is open after some pieces;
- the pieces of a template, which as they are written are the template.
-/

namespace FlatLiquid

open Text (isWordChar isBlank skipBlanks)

/-! ## The tag at the front of a text -/

theorem suffix_of_openTag? {text rest : List Char} (opened : openTag? text = some rest) :
    ∃ front, text = front ++ rest ∧ front ≠ [] := by
  have dropped (tail : List Char) : ∃ blanks, tail = blanks ++ skipBlanks tail :=
    ⟨tail.takeWhile isBlank, List.takeWhile_append_dropWhile.symm⟩
  unfold openTag? at opened
  split at opened
  · next tail =>
    obtain rfl := Option.some.inj opened
    obtain ⟨blanks, split⟩ := dropped tail
    refine ⟨'\x7b' :: '%' :: '-' :: blanks, ?_, List.cons_ne_nil _ _⟩
    rw [List.cons_append, List.cons_append, List.cons_append, ← split]
  · next tail _ =>
    obtain rfl := Option.some.inj opened
    obtain ⟨blanks, split⟩ := dropped tail
    refine ⟨'\x7b' :: '%' :: blanks, ?_, List.cons_ne_nil _ _⟩
    rw [List.cons_append, List.cons_append, ← split]
  · contradiction

theorem skipBlanks_append_of_ne_nil {text : List Char} (kept : skipBlanks text ≠ [])
    (more : List Char) : skipBlanks (text ++ more) = skipBlanks text ++ more := by
  have notEmpty : (text.dropWhile isBlank).isEmpty = false := List.isEmpty_eq_false_iff.mpr kept
  rw [skipBlanks, List.dropWhile_append, notEmpty]
  rfl

theorem openTag?_append {text rest : List Char} (opened : openTag? text = some rest)
    (kept : rest ≠ []) (more : List Char) : openTag? (text ++ more) = some (rest ++ more) := by
  unfold openTag? at opened
  split at opened
  · next tail =>
    obtain rfl := Option.some.inj opened
    rw [← skipBlanks_append_of_ne_nil kept]
    rfl
  · next tail undashed =>
    obtain rfl := Option.some.inj opened
    obtain ⟨first, others, shape⟩ : ∃ first others, tail = first :: others := by
      cases tail with
      | nil => exact absurd rfl kept
      | cons first others => exact ⟨first, others, rfl⟩
    subst shape
    rw [← skipBlanks_append_of_ne_nil kept, List.cons_append, List.cons_append, List.cons_append,
      openTag?]
    intro _ dash
    exact undashed others (by rw [(List.cons.inj dash).1])
  · contradiction

theorem suffix_of_closeTag? {text markup after : List Char}
    (closed : closeTag? text = some (markup, after)) : ∃ front, text = front ++ after := by
  fun_induction closeTag? text generalizing markup with
  | case1 rest =>
    obtain ⟨-, rfl⟩ := Prod.mk.inj (Option.some.inj closed)
    exact ⟨['-', '%', '\x7d'], rfl⟩
  | case2 rest =>
    obtain ⟨-, rfl⟩ := Prod.mk.inj (Option.some.inj closed)
    exact ⟨['%', '\x7d'], rfl⟩
  | case3 c rest _ _ inductionHypothesis =>
    obtain ⟨⟨inner, tail⟩, found, same⟩ := Option.map_eq_some_iff.mp closed
    obtain ⟨-, rfl⟩ := Prod.mk.inj same
    obtain ⟨front, split⟩ := inductionHypothesis found
    exact ⟨c :: front, by rw [List.cons_append, ← split]⟩
  | case4 => contradiction

theorem exists_two_of_closeTag? {text : List Char} {found : List Char × List Char}
    (closed : closeTag? text = some found) :
    ∃ first second others, text = first :: second :: others := by
  match text with
  | [] => contradiction
  | [_] => simp [closeTag?] at closed
  | first :: second :: others => exact ⟨first, second, others, rfl⟩

/-- The first end of a tag stays the first one when the text goes on. -/
theorem closeTag?_append_right {text markup after : List Char}
    (closed : closeTag? text = some (markup, after)) (more : List Char) :
    closeTag? (text ++ more) = some (markup, after ++ more) := by
  fun_induction closeTag? text generalizing markup with
  | case1 rest =>
    obtain ⟨rfl, rfl⟩ := Prod.mk.inj (Option.some.inj closed)
    rfl
  | case2 rest =>
    obtain ⟨rfl, rfl⟩ := Prod.mk.inj (Option.some.inj closed)
    rfl
  | case3 c rest notDashed notPlain inductionHypothesis =>
    obtain ⟨⟨inner, tail⟩, found, same⟩ := Option.map_eq_some_iff.mp closed
    obtain ⟨rfl, rfl⟩ := Prod.mk.inj same
    -- the text after `c` holds an end, so it has two characters to decide the case of `c`
    obtain ⟨first, second, others, rfl⟩ := exists_two_of_closeTag? found
    have step : closeTag? (c :: (first :: second :: others ++ more)) =
        (closeTag? (first :: second :: others ++ more)).map fun found => (c :: found.1, found.2) := by
      rw [List.cons_append, List.cons_append, closeTag?.eq_3]
      · intro _ dash same
        refine notDashed others dash ?_
        rw [(List.cons.inj same).1, (List.cons.inj (List.cons.inj same).2).1]
      · intro _ percent same
        refine notPlain (second :: others) percent ?_
        rw [(List.cons.inj same).1]
    rw [List.cons_append, step, inductionHypothesis found]
    rfl
  | case4 => contradiction

/-- What a tag is read from: the text after its beginning, its name and the end of its markup. -/
theorem exists_parts_of_tag? {text after : List Char} {tag : Tag}
    (read : tag? text = some (tag, after)) :
    ∃ rest, openTag? text = some rest ∧ tag.name = Text.wordOf rest ∧ tag.name ≠ [] ∧
      closeTag? (Text.afterWord rest) = some (tag.markup, after) ∧
      tag.source = text.take (text.length - after.length) := by
  unfold tag? at read
  obtain ⟨rest, opened, read⟩ := Option.bind_eq_some_iff.mp read
  simp only at read
  split at read
  · contradiction
  · next named =>
    obtain ⟨⟨markup, tail⟩, closed, same⟩ := Option.bind_eq_some_iff.mp read
    obtain ⟨rfl, rfl⟩ := Prod.mk.inj (Option.some.inj same)
    exact ⟨rest, opened, rfl, fun empty => named (List.isEmpty_iff.mpr empty), closed, rfl⟩

/-- A text that starts with a tag is the tag and the text after it. -/
theorem eq_append_of_tag? {text after : List Char} {tag : Tag}
    (read : tag? text = some (tag, after)) : text = tag.source ++ after ∧ tag.source ≠ [] := by
  obtain ⟨rest, opened, -, -, closed, source⟩ := exists_parts_of_tag? read
  obtain ⟨front, split, nonempty⟩ := suffix_of_openTag? opened
  obtain ⟨middle, inner⟩ := suffix_of_closeTag? closed
  have whole : text = (front ++ (Text.wordOf rest ++ middle)) ++ after := by
    rw [split, List.append_assoc, List.append_assoc, ← inner, Text.wordOf_append_afterWord]
  have covered : tag.source = front ++ (Text.wordOf rest ++ middle) := by
    rw [source, whole, List.length_append, Nat.add_sub_cancel, List.take_left]
  refine ⟨by rw [covered, ← whole], ?_⟩
  rw [covered]
  exact List.append_ne_nil_of_left_ne_nil nonempty _

/-- A tag at the front of a text is the same tag when the text goes on. -/
theorem tag?_append {text after : List Char} {tag : Tag} (read : tag? text = some (tag, after))
    (more : List Char) : tag? (text ++ more) = some (tag, after ++ more) := by
  obtain ⟨rest, opened, name, named, closed, source⟩ := exists_parts_of_tag? read
  have kept : rest ≠ [] := by
    rintro rfl
    exact named name
  -- an end of the tag follows its name, so the name does not run on into `more`
  have endsInside : Text.afterWord rest ≠ [] := by
    intro empty
    rw [empty] at closed
    contradiction
  have notEmpty : (rest.dropWhile isWordChar).isEmpty = false :=
    List.isEmpty_eq_false_iff.mpr endsInside
  have sameRest : Text.afterWord (rest ++ more) = Text.afterWord rest ++ more := by
    rw [Text.afterWord, List.dropWhile_append, notEmpty]
    rfl
  have sameName : Text.wordOf (rest ++ more) = tag.name := by
    have joined := Text.wordOf_append_afterWord (rest ++ more)
    rw [sameRest, ← List.append_assoc] at joined
    have cut := List.append_cancel_right joined
    have parts := Text.wordOf_append_afterWord rest
    rw [name]
    exact List.append_cancel_right (cut.trans parts.symm)
  have isNamed : tag.name.isEmpty = false := List.isEmpty_eq_false_iff.mpr named
  have sameSource : (text ++ more).take ((text ++ more).length - (after ++ more).length) =
      tag.source := by
    rw [source, List.length_append, List.length_append, Nat.add_sub_add_right,
      List.take_append_of_le_length (Nat.sub_le _ _)]
  rw [tag?, openTag?_append opened kept]
  simp only [Option.bind_eq_bind, Option.bind_some, sameName, isNamed, sameRest,
    closeTag?_append_right closed, sameSource]
  rfl

/-! ## Pieces as they are written -/

theorem sourceOf_cons (piece : Piece) (rest : List Piece) :
    sourceOf (piece :: rest) = piece.source ++ sourceOf rest :=
  List.flatMap_cons

theorem sourceOf_append (first second : List Piece) :
    sourceOf (first ++ second) = sourceOf first ++ sourceOf second :=
  List.flatMap_append

theorem sourceOf_piecesFrom (skip : Nat) (text : List Char) :
    sourceOf (piecesFrom skip text) = text.drop skip := by
  induction text generalizing skip with
  | nil =>
    rw [piecesFrom, List.drop_nil]
    rfl
  | cons c rest inductionHypothesis =>
    cases skip with
    | succ skip => rw [piecesFrom, inductionHypothesis, List.drop_succ_cons]
    | zero =>
      rw [piecesFrom, List.drop_zero]
      split
      · next tag after read =>
        obtain ⟨split, nonempty⟩ := eq_append_of_tag? read
        obtain ⟨first, covered, source⟩ := List.exists_cons_of_ne_nil nonempty
        rw [source, List.cons_append] at split
        obtain ⟨-, tail⟩ := List.cons.inj split
        have covers : tag.source.length - 1 = covered.length := by simp [source]
        have left : rest.drop covered.length = after := by rw [tail, List.drop_left]
        rw [sourceOf_cons, inductionHypothesis, covers, left, Piece.source, source, split,
          List.cons_append]
      · rw [sourceOf_cons, inductionHypothesis, List.drop_zero]
        rfl

theorem sourceOf_hideVerbatim (ending : Option (List Char)) (written : List Piece) :
    sourceOf (hideVerbatim ending written) = sourceOf written := by
  induction written generalizing ending with
  | nil => rfl
  | cons piece rest inductionHypothesis =>
    cases piece with
    | char c => rw [hideVerbatim, sourceOf_cons, sourceOf_cons, inductionHypothesis]
    | tag tag =>
      have hidden (next : Option (List Char)) :
          sourceOf (tag.source.map .char ++ hideVerbatim next rest) =
            sourceOf (.tag tag :: rest) := by
        rw [sourceOf_append, sourceOf_map_char, inductionHypothesis, sourceOf_cons]
        rfl
      unfold hideVerbatim
      split
      · exact hidden _
      · split
        · exact hidden _
        · rw [sourceOf_cons, sourceOf_cons, inductionHypothesis]

/-- The pieces of a template, as they are written, are the template. -/
theorem sourceOf_pieces (template : List Char) : sourceOf (pieces template) = template := by
  rw [pieces, sourceOf_hideVerbatim, sourceOf_piecesFrom, List.drop_zero]

/-! ## Pieces of a joined text -/

/-- Every opening of a tag in a text starts a tag that ends inside the text. -/
def TagsComplete (text : List Char) : Prop :=
  ∀ rest, '\x7b' :: '%' :: rest <:+ text → (tag? ('\x7b' :: '%' :: rest)).isSome = true

theorem tagsComplete_cons_iff (c : Char) (rest : List Char) :
    TagsComplete (c :: rest) ↔
      (c = '\x7b' ∧ rest.head? = some '%' → (tag? (c :: rest)).isSome = true) ∧
        TagsComplete rest := by
  constructor
  · intro complete
    refine ⟨?_, fun tail isSuffix => complete tail (isSuffix.trans (List.suffix_cons c rest))⟩
    rintro ⟨rfl, percent⟩
    obtain ⟨tail, rfl⟩ := List.head?_eq_some_iff.mp percent
    exact complete tail (List.suffix_refl _)
  · rintro ⟨here, later⟩ tail isSuffix
    rcases List.suffix_cons_iff.mp isSuffix with same | inRest
    · obtain ⟨rfl, rfl⟩ := List.cons.inj same
      exact here ⟨rfl, rfl⟩
    · exact later tail inRest

instance decidableTagsComplete : (text : List Char) → Decidable (TagsComplete text)
  | [] => .isTrue fun rest isSuffix => by simp at isSuffix
  | c :: rest =>
    have := decidableTagsComplete rest
    decidable_of_iff _ (tagsComplete_cons_iff c rest).symm

/-- A text whose tags are complete can go on with anything that does not turn its last character
into an opening. -/
theorem piecesFrom_append {text more : List Char} (complete : TagsComplete text)
    (seam : more.head? ≠ some '%') {skip : Nat} (within : skip ≤ text.length) :
    piecesFrom skip (text ++ more) = piecesFrom skip text ++ piecesFrom 0 more := by
  induction text generalizing skip with
  | nil =>
    obtain rfl := Nat.le_zero.mp within
    rfl
  | cons c rest inductionHypothesis =>
    obtain ⟨here, completeLater⟩ := (tagsComplete_cons_iff c rest).mp complete
    have later {skip : Nat} (within : skip ≤ rest.length) :=
      inductionHypothesis completeLater within
    cases skip with
    | succ skip => exact later (Nat.le_of_succ_le_succ within)
    | zero =>
      cases read : tag? (c :: rest) with
      | some found =>
        obtain ⟨tag, after⟩ := found
        obtain ⟨split, -⟩ := eq_append_of_tag? read
        have covers : tag.source.length - 1 ≤ rest.length := by
          have size := congrArg List.length split
          rw [List.length_cons, List.length_append] at size
          omega
        have readOn := tag?_append read more
        rw [List.cons_append] at readOn
        rw [List.cons_append, piecesFrom, readOn, piecesFrom, read]
        simp only
        rw [later covers, List.cons_append]
      | none =>
        have unopened : c ≠ '\x7b' ∨ rest.head? ≠ some '%' := by
          refine Decidable.not_and_iff_not_or_not.mp fun opened => ?_
          rw [read] at here
          exact absurd (here opened) Bool.false_ne_true
        have stillUnopened : c ≠ '\x7b' ∨ (rest ++ more).head? ≠ some '%' := by
          refine unopened.imp_right fun other => ?_
          cases rest with
          | nil => exact seam
          | cons first tail => exact other
        rw [List.cons_append, piecesFrom, tag?_eq_none_of_unopened stillUnopened, piecesFrom, read]
        simp only
        rw [later (Nat.zero_le _), List.cons_append]

/-- The tag that is to end the verbatim region that is open after some pieces, if one is. -/
def openRegion (ending : Option (List Char)) : List Piece → Option (List Char)
  | [] => ending
  | .char _ :: rest => openRegion ending rest
  | .tag tag :: rest =>
    match ending with
    | some name => openRegion (if tag.name = name then none else some name) rest
    | none => openRegion (verbatimEnd? tag.name) rest

theorem hideVerbatim_append (ending : Option (List Char)) (first second : List Piece) :
    hideVerbatim ending (first ++ second) =
      hideVerbatim ending first ++ hideVerbatim (openRegion ending first) second := by
  induction first generalizing ending with
  | nil => rfl
  | cons piece rest inductionHypothesis =>
    rw [List.cons_append]
    cases piece with
    | char c => rw [hideVerbatim, hideVerbatim, openRegion, inductionHypothesis, List.cons_append]
    | tag tag =>
      cases ending with
      | some name =>
        rw [hideVerbatim, hideVerbatim, openRegion, inductionHypothesis, List.append_assoc]
      | none =>
        rw [hideVerbatim, hideVerbatim, openRegion]
        cases verbatimEnd? tag.name with
        | some name => simp only [inductionHypothesis, List.append_assoc]
        | none => simp only [inductionHypothesis, List.cons_append]

/-- A text with complete tags and no open region has pieces of its own, whatever follows it. -/
theorem pieces_append {text more : List Char} (complete : TagsComplete text)
    (closed : openRegion none (piecesFrom 0 text) = none) (seam : more.head? ≠ some '%') :
    pieces (text ++ more) = pieces text ++ pieces more := by
  rw [pieces, piecesFrom_append complete seam (Nat.zero_le _), hideVerbatim_append, closed]
  rfl

/-- A tag at the front of a text that starts no verbatim region is the first piece. -/
theorem pieces_tag {tag : Tag} {rest : List Char} (nonempty : tag.source ≠ [])
    (read : tag? (tag.source ++ rest) = some (tag, rest))
    (reported : verbatimEnd? tag.name = none) :
    pieces (tag.source ++ rest) = .tag tag :: pieces rest := by
  rw [pieces, piecesFrom_tag nonempty read, hideVerbatim]
  simp only [reported]
  rfl

/-! ## Texts without tags -/

/-- No tag is opened in the text. -/
def HoldsNoOpening (text : List Char) : Prop :=
  ¬ ['\x7b', '%'] <:+: text

theorem HoldsNoOpening.tagsComplete {text : List Char} (free : HoldsNoOpening text) :
    TagsComplete text :=
  fun rest isSuffix =>
    absurd ((List.prefix_append ['\x7b', '%'] rest).isInfix.trans isSuffix.isInfix) free

theorem HoldsNoOpening.piecesFrom_eq {text : List Char} (free : HoldsNoOpening text) :
    piecesFrom 0 text = text.map .char := by
  induction text with
  | nil => rfl
  | cons c rest inductionHypothesis =>
    have later : HoldsNoOpening rest := fun opening =>
      free (opening.trans (List.suffix_cons c rest).isInfix)
    have unopened : c ≠ '\x7b' ∨ rest.head? ≠ some '%' := by
      by_cases brace : c = '\x7b'
      · right
        intro percent
        obtain ⟨tail, rfl⟩ := List.head?_eq_some_iff.mp percent
        rw [brace] at free
        exact free (List.prefix_append ['\x7b', '%'] tail).isInfix
      · exact .inl brace
    rw [piecesFrom, tag?_eq_none_of_unopened unopened]
    simp only
    rw [inductionHypothesis later, List.map_cons]

theorem openRegion_map_char (ending : Option (List Char)) (text : List Char) :
    openRegion ending (text.map .char) = ending := by
  induction text with
  | nil => rfl
  | cons c rest inductionHypothesis => exact inductionHypothesis

/-- A text without tags is made of plain characters, whatever follows it. -/
theorem HoldsNoOpening.pieces_append {text more : List Char} (free : HoldsNoOpening text)
    (seam : more.head? ≠ some '%') : pieces (text ++ more) = text.map .char ++ pieces more := by
  have closed : openRegion none (piecesFrom 0 text) = none := by
    rw [free.piecesFrom_eq, openRegion_map_char]
  have own : hideVerbatim none (text.map .char) = text.map .char := by
    have alone := hideVerbatim_map_char text []
    rw [List.append_nil, hideVerbatim, List.append_nil] at alone
    exact alone
  rw [FlatLiquid.pieces_append free.tagsComplete closed seam, pieces, free.piecesFrom_eq, own]

end FlatLiquid
