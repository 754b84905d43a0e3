import FlatLiquid.Proofs.Template.Inserted
import FlatLiquid.Proofs.Template.Renaming

/-!
Contract: texts that leave nothing open, and that the copy of such a text is one.

Owns:
- texts after which a scan starts afresh, with no tag and no verbatim region open;
- the parts of a template before, at and after a tag that the scan reports;
- the passes over a body, none of which touches a delimiter or a kept name of a tag;
- the tags of a copy: those with kept names are those of the body, and none of the others is a loop if
  none of the body is.
-/

namespace FlatLiquid

open Text (Pass endsWord isBlank isWordChar wordOf)

/-! ## Settled texts -/

/-- The text leaves no tag open and no verbatim region. -/
structure IsSettled (text : List Char) : Prop where
  closed : openName? text = none
  outside : openRegion none (piecesFrom 0 text) = none

/-- A settled text has pieces of its own in front of what can start a tag. -/
theorem IsSettled.pieces_append {text more : List Char} (settled : IsSettled text)
    (seam : ∀ c ∈ more.head?, c = '\x7b') : pieces (text ++ more) = pieces text ++ pieces more := by
  rw [pieces, piecesFrom_append_of_closed settled.closed seam, hideVerbatim_append, settled.outside]
  rfl

/-- Characters hold no tag, so those in front of others stand in front of the first tag. -/
theorem exists_append_of_chars {text : List Char} {hidden before after : List Piece} {tag : Tag}
    (split : text.map .char ++ hidden = before ++ .tag tag :: after) :
    ∃ more, before = text.map .char ++ more ∧ hidden = more ++ .tag tag :: after := by
  rcases List.append_eq_append_iff.mp split with ⟨more, front, rest⟩ | ⟨more, front, rest⟩
  · exact ⟨more, front, rest⟩
  · cases more with
    | nil => exact ⟨[], by simpa using front.symm, by simpa using rest.symm⟩
    | cons piece others =>
      obtain ⟨rfl, -⟩ := List.cons.inj rest
      have member : .tag tag ∈ text.map Piece.char := by rw [front]; simp
      obtain ⟨c, -, same⟩ := List.mem_map.mp member
      exact Piece.noConfusion same

/-- A tag that a scan reports stands outside every region of the pieces as they are written. -/
theorem exists_split_of_hideVerbatim {ending : Option (List Char)} {written before after : List Piece}
    {tag : Tag} (split : hideVerbatim ending written = before ++ .tag tag :: after) :
    ∃ front back, written = front ++ .tag tag :: back ∧ hideVerbatim ending front = before ∧
      openRegion ending front = none ∧ hideVerbatim none back = after ∧
      verbatimEnd? tag.name = none := by
  induction written generalizing ending before with
  | nil =>
    rw [hideVerbatim] at split
    simp at split
  | cons piece rest inductionHypothesis =>
    cases piece with
    | char c =>
      rw [hideVerbatim] at split
      obtain ⟨more, rfl, later⟩ :=
        exists_append_of_chars (show [c].map .char ++ hideVerbatim ending rest = _ from split)
      obtain ⟨front, back, rfl, rfl, region, behind, reported⟩ := inductionHypothesis later
      exact ⟨.char c :: front, back, rfl, rfl, region, behind, reported⟩
    | tag first =>
      cases ending with
      | some name =>
        rw [hideVerbatim] at split
        obtain ⟨more, rfl, later⟩ := exists_append_of_chars split
        obtain ⟨front, back, rfl, rfl, region, behind, reported⟩ := inductionHypothesis later
        exact ⟨.tag first :: front, back, rfl, rfl, region, behind, reported⟩
      | none =>
        cases started : verbatimEnd? first.name with
        | some name =>
          rw [hideVerbatim, started] at split
          obtain ⟨more, rfl, later⟩ := exists_append_of_chars split
          obtain ⟨front, back, rfl, rfl, region, behind, reported⟩ := inductionHypothesis later
          refine ⟨.tag first :: front, back, rfl, ?_, ?_, behind, reported⟩
          · rw [hideVerbatim, started]
          · rw [openRegion, started, region]
        | none =>
          rw [hideVerbatim, started] at split
          cases before with
          | nil =>
            obtain ⟨same, behind⟩ := List.cons.inj split
            obtain rfl := Piece.tag.inj same
            exact ⟨[], rest, rfl, rfl, rfl, behind, started⟩
          | cons piece others =>
            obtain ⟨rfl, later⟩ := List.cons.inj split
            obtain ⟨front, back, rfl, rfl, region, behind, reported⟩ := inductionHypothesis later
            refine ⟨.tag first :: front, back, rfl, ?_, ?_, behind, reported⟩
            · rw [hideVerbatim, started]
            · rw [openRegion, started, region]

/-- What is known about the parts of a template around a tag. -/
structure IsSplitAt (before : List Piece) (tag : Tag) (after : List Piece) : Prop where
  settled : IsSettled (sourceOf before)
  before_eq : pieces (sourceOf before) = before
  after_eq : pieces (sourceOf after) = after
  read : ∀ more, tag? (tag.source ++ more) = some (tag, more)
  reported : verbatimEnd? tag.name = none

/-- Around a tag that a scan reports, each part of a template is read on its own. -/
theorem isSplitAt_of_pieces {text : List Char} {before after : List Piece} {tag : Tag}
    (split : pieces text = before ++ .tag tag :: after) : IsSplitAt before tag after := by
  obtain ⟨front, back, written, rfl, region, rfl, reported⟩ := exists_split_of_hideVerbatim split
  obtain ⟨-, closed, own, read, behind⟩ := split_of_piecesFrom written
  rw [← sourceOf_hideVerbatim none front] at closed own
  rw [← sourceOf_hideVerbatim none back] at behind
  refine ⟨⟨closed, by rw [own, region]⟩, by rw [pieces, own], by rw [pieces, behind],
    tag?_source read, reported⟩

namespace IsSplitAt

variable {before after : List Piece} {tag : Tag} (around : IsSplitAt before tag after)

include around

/-- The tag and what stands before it are read alike, whatever follows. -/
theorem pieces_append (more : List Char) :
    pieces (sourceOf before ++ (tag.source ++ more)) = before ++ .tag tag :: pieces more := by
  have nonempty := source_ne_nil_of_tag? (around.read more)
  rw [around.settled.pieces_append (head?_of_tag? (around.read more)), around.before_eq,
    pieces_tag nonempty (around.read more) around.reported]

end IsSplitAt

/-! ## The passes over a body -/

theorem not_mem_of_isWordChar {text : List Char} (inside : ∀ c ∈ text, isWordChar c = true) {c : Char}
    (delimiter : c ∈ delimiterChars) : c ∉ text := by
  have none : delimiterChars.any isWordChar = false := by decide
  have outside := Text.eq_false_of_any_eq_false none c delimiter
  intro member
  have isWord := inside c member
  rw [outside] at isWord
  contradiction

/-- An object with a name of its own, and a member of it. -/
theorem startsApart_of_object {kept : List (List Char)} {object rest : List Char}
    (named : object ≠ []) (word : ∀ c ∈ object, isWordChar c = true) (own : object ∉ kept)
    (undelimited : ∀ c ∈ delimiterChars, c ∉ rest) :
    StartsApart kept (object ++ '.' :: rest) where
  starts := by
    obtain ⟨first, more, rfl⟩ := List.exists_cons_of_ne_nil named
    simp [endsWord, word first List.mem_cons_self]
  undelimited := by
    intro c delimiter
    rw [List.mem_append, List.mem_cons, not_or, not_or]
    refine ⟨not_mem_of_isWordChar word delimiter, ?_, undelimited c delimiter⟩
    rintro rfl
    exact absurd delimiter (by decide)
  named := by
    intro more
    rw [List.append_assoc, Text.wordOf_append word rfl]
    exact own

/-- An inserted text that no word of templates begins with. -/
theorem IsForeign.startsApart {text : List Char} (foreign : IsForeign text) {rest : List Char}
    {names : List (List Char)} (known : names ⊆ templateWords)
    (undelimited : ∀ c ∈ delimiterChars, c ∉ rest) : StartsApart names (text ++ rest) where
  starts := by
    have inside := foreign.inside
    obtain ⟨first, more, rfl⟩ := List.exists_cons_of_ne_nil foreign.nonempty
    simp [endsWord, inside first List.mem_cons_self]
  undelimited := by
    intro c delimiter
    rw [List.mem_append, not_or]
    exact ⟨not_mem_of_isWordChar foreign.inside delimiter, undelimited c delimiter⟩
  named := by
    intro more isName
    apply foreign.apart _ (known isName)
    rw [List.append_assoc, wordOf, List.takeWhile_append_of_pos foreign.inside]
    exact List.prefix_append _ _

theorem undelimited_of_writesKey {key written : List Char} (grammar : IsKey key)
    (writes : WritesKey key written) : ∀ c ∈ delimiterChars, c ∉ written := by
  intro c delimiter
  have noKeyChar : isKeyChar c = false := Text.eq_false_of_any_eq_false (by decide) c delimiter
  have noBlank : isBlank c = false := Text.eq_false_of_any_eq_false (by decide) c delimiter
  have notInKey : c ∉ key := by
    intro member
    have isKeyChar := List.all_eq_true.mp grammar.inside c member
    rw [noKeyChar] at isKeyChar
    contradiction
  have notInBlanks {blanks : List Char} (blank : ∀ c ∈ blanks, isBlank c = true) : c ∉ blanks := by
    intro member
    have isBlank := blank c member
    rw [noBlank] at isBlank
    contradiction
  have notSign {sign : Char} (plain : sign ∉ delimiterChars) : c ≠ sign := by
    rintro rfl
    exact plain delimiter
  cases writes with
  | dotted =>
    rw [List.mem_cons, not_or]
    exact ⟨notSign (by decide), notInKey⟩
  | @bracketed quote _ _ isQuote blankFront blankBack =>
    have notQuote : c ≠ quote := by
      rcases isQuote with rfl | rfl
      · exact notSign (by decide)
      · exact notSign (by decide)
    simp only [List.mem_cons, List.mem_append, List.not_mem_nil, or_false, not_or]
    exact ⟨notSign (by decide), notInBlanks blankFront, notQuote, notInKey, notQuote,
      notInBlanks blankBack, notSign (by decide)⟩

/-- Names of tags that the passes over a body keep: the tags of verbatim regions, and others that no
inserted text and no object of the passes is taken for. -/
structure AreKept (kept : List (List Char)) (variableName : List Char) : Prop where
  regions : regionNames ⊆ kept
  known : iterationTags ++ kept ⊆ templateWords
  loop : loopObject ∉ kept
  own : variableName ∉ kept

theorem areKept_regionNames {variableName : List Char} (own : variableName ∉ regionNames) :
    AreKept regionNames variableName :=
  ⟨List.Subset.refl _, by decide, by decide, own⟩

section Copy

variable {kept : List (List Char)} {variableName : List Char} {pickers : Pickers} {index : Nat}

/-- No pass takes or gives a delimiter, or a kept name of a tag. -/
theorem isRenaming_of_copyPasses (areKept : AreKept kept variableName) (named : variableName ≠ [])
    (word : ∀ c ∈ variableName, isWordChar c = true) {pass : Pass}
    (member : pass ∈ copyPasses variableName pickers index) {original replacement : List Char}
    (isAllowed : pass.allowed original replacement) : IsRenaming kept original replacement := by
  have nothing : ∀ c ∈ delimiterChars, c ∉ ([] : List Char) := fun c _ => List.not_mem_nil
  have foreignOnly {text : List Char} (foreign : IsForeign text) :
      StartsApart (iterationTags ++ kept) text := by
    have apart := foreign.startsApart areKept.known nothing
    rw [List.append_nil] at apart
    exact apart
  have members {object : List Char} (named : object ≠ []) (word : ∀ c ∈ object, isWordChar c = true)
      (own : object ∉ kept) {name : List Char} (nameWord : ∀ c ∈ name, isWordChar c = true) :
      StartsApart kept (object ++ '.' :: name) :=
    startsApart_of_object named word own fun c delimiter => not_mem_of_isWordChar nameWord delimiter
  simp only [copyPasses, List.mem_cons, List.not_mem_nil, or_false] at member
  rcases member with rfl | rfl | rfl | rfl
  · obtain ⟨key, ⟨grammar, written, rfl, writes⟩, stands⟩ := isAllowed
    refine ⟨startsApart_of_object named word areKept.own ?_,
      foreignOnly (isForeign_flatName? stands)⟩
    intro c delimiter
    have inSettings : c ∉ "settings".toList :=
      not_mem_of_isWordChar (List.all_eq_true.mp (by decide)) delimiter
    exact fun inRest => (List.mem_append.mp inRest).elim inSettings
      (undelimited_of_writesKey grammar writes c delimiter)
  · obtain ⟨name, rfl, nameWord, isValue⟩ := isAllowed
    exact ⟨members named word areKept.own nameWord,
      foreignOnly (isForeign_fieldVariable? nameWord isValue)⟩
  · obtain ⟨name, rfl, nameWord, isValue⟩ := isAllowed
    exact ⟨members (by decide) isWordChar_loopObject areKept.loop nameWord,
      foreignOnly (isForeign_loopProperty? isValue).2⟩
  · obtain ⟨name, rfl, nameWord, isValue⟩ := isAllowed
    refine ⟨members (by decide) isWordChar_loopObject areKept.loop nameWord, ?_⟩
    have count : IsForeign blockCountName := ⟨by decide, List.all_eq_true.mp (by decide), by decide⟩
    unfold lastTest? at isValue
    split at isValue
    · obtain rfl := Option.some.inj isValue
      rw [List.append_assoc]
      apply count.startsApart areKept.known
      intro c delimiter inTest
      have inSign : ∀ c ∈ delimiterChars, c ∉ " == ".toList := by simp [delimiterChars]
      exact (List.mem_append.mp inTest).elim (inSign c delimiter)
        (not_mem_of_isWordChar (fun c digit => isWordChar_of_mem_toDigits digit) delimiter)
    · cases isValue

/-- What a pass makes of a settled text is settled and has the same tags but for their names. -/
theorem IsSettled.pass {text : List Char} (settled : IsSettled text) {pass : Pass}
    (regions : regionNames ⊆ kept)
    (renames : ∀ original replacement, pass.allowed original replacement →
      IsRenaming kept original replacement) :
    IsSettled (pass.trace text).output ∧
      SameTags kept (pieces text) (pieces (pass.trace text).output) := by
  have placed := (pass.placed_trace text).mono renames
  have original := pass.original_trace text
  obtain ⟨closed, same⟩ := sameTags_of_placed placed (by rw [original, settled.closed])
  have known : ∀ name ∈ (none : Option (List Char)), name ∈ regionNames := by simp
  obtain ⟨region, hidden⟩ := same.hidden regions known
  rw [original] at region hidden
  exact ⟨⟨closed, region.trans settled.outside⟩, hidden⟩

/-- The copy of a settled body is settled. It holds no loop if the body holds none, and the same tags
with kept names. -/
theorem IsSettled.copyFor {body : List Char} (settled : IsSettled body)
    (areKept : AreKept kept variableName) (named : variableName ≠ [])
    (word : ∀ c ∈ variableName, isWordChar c = true) :
    let copy := copyFor variableName pickers index body
    IsSettled copy ∧ (IsLoopless (pieces body) → IsLoopless (pieces copy)) ∧
      ∀ names, names ⊆ kept → namesAmong names (pieces copy) = namesAmong names (pieces body) := by
  have renames : ∀ pass ∈ copyPasses variableName pickers index, ∀ original replacement,
      pass.allowed original replacement → IsRenaming kept original replacement :=
    fun pass member original replacement isAllowed =>
      isRenaming_of_copyPasses areKept named word member isAllowed
  intro copy
  simp only [copy, copyFor_eq_foldl]
  generalize copyPasses variableName pickers index = passes at renames
  induction passes generalizing body with
  | nil => exact ⟨settled, id, fun _ _ => rfl⟩
  | cons pass passes inductionHypothesis =>
    obtain ⟨settledNext, same⟩ := settled.pass areKept.regions (renames pass List.mem_cons_self)
    obtain ⟨settledCopy, looplessCopy, keptCopy⟩ := inductionHypothesis settledNext
      fun other member => renames other (List.mem_cons_of_mem pass member)
    refine ⟨settledCopy, fun loopless => looplessCopy (same.isLoopless loopless), ?_⟩
    intro names known
    exact (keptCopy names known).trans (same.namesAmong_eq known)

end Copy

end FlatLiquid
