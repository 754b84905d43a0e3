import FlatLiquid.Proofs.Template.LoopShape
import FlatLiquid.Proofs.Template.OpenTags

/-!
Contract: a verbatim region of a template, and what the unroller makes of it.

Owns:
- the text of a region, from its opening tag to its closing tag;
- the tag that ends in the place of the closing tag;
- the frame of the unroller: which regions it passes over as if they were not there.

A tag that the content of a region leaves open reads on to the end of the closing tag, which is then
no tag of its own. Unless that tag happens to have the name of the closing one, the region stays open
and takes the rest of the template with it.
-/

namespace FlatLiquid

/-- A verbatim region: a text between the tag that starts the region and the tag that ends it. -/
def verbatimText (name text ending : List Char) : List Char :=
  tagText name ++ (text ++ tagText ending)

/-! ## The tags around a region -/

theorem names_of_verbatimEnd? {name ending : List Char} (region : verbatimEnd? name = some ending) :
    (name = "raw".toList ∧ ending = "endraw".toList) ∨
      (name = "comment".toList ∧ ending = "endcomment".toList) := by
  unfold verbatimEnd? at region
  split at region
  · next isRaw => exact .inl ⟨isRaw, (Option.some.inj region).symm⟩
  · split at region
    · next isComment => exact .inr ⟨isComment, (Option.some.inj region).symm⟩
    · contradiction

/-- Both tags of a region are read as such, whatever follows them. -/
theorem tag?_of_verbatimEnd? {name ending : List Char} (region : verbatimEnd? name = some ending)
    (rest : List Char) :
    tag? (tagText name ++ rest) = some (bareTag name, rest) ∧
      tag? (tagText ending ++ rest) = some (bareTag ending, rest) := by
  rcases names_of_verbatimEnd? region with ⟨rfl, rfl⟩ | ⟨rfl, rfl⟩
  · exact ⟨tag?_bareTag (by decide) (by decide) rest, tag?_bareTag (by decide) (by decide) rest⟩
  · exact ⟨tag?_bareTag (by decide) (by decide) rest, tag?_bareTag (by decide) (by decide) rest⟩

/-! ## A tag that ends behind the text -/

/-- A text without an end of a tag adds none to what follows it, unless its percent sign meets a
brace. -/
theorem afterEnd?_append_of_unended {text more : List Char} (unended : afterEnd? text = none)
    (seam : more.head? ≠ some '\x7d') : afterEnd? (text ++ more) = afterEnd? more := by
  induction text with
  | nil => rfl
  | cons c rest inductionHypothesis =>
    have other : ¬ (c = '%' ∧ rest.head? = some '\x7d') := by
      rintro ⟨rfl, brace⟩
      obtain ⟨tail, rfl⟩ := List.head?_eq_some_iff.mp brace
      contradiction
    rw [afterEnd?_cons other] at unended
    rw [List.cons_append, afterEnd?_cons ?_, inductionHypothesis unended]
    rintro ⟨percent, brace⟩
    cases rest with
    | nil => exact seam brace
    | cons first tail => exact other ⟨percent, brace⟩

/-- A tag that a text leaves open takes everything up to the next end. -/
theorem piecesFrom_append_of_open {text more after name : List Char}
    (left : openName? text = some name) (ends : afterEnd? more = some after)
    (seam : ∀ c ∈ more.head?, c = '\x7b') :
    ∃ front tag, piecesFrom 0 (text ++ more) = front ++ .tag tag :: piecesFrom 0 after ∧
      tag.name = name ∧ ∀ inner, .tag inner ∈ front → .tag inner ∈ piecesFrom 0 text := by
  have noBrace : more.head? ≠ some '\x7d' := fun brace => absurd (seam _ brace) (by decide)
  induction text using pieces_induction with
  | nil => contradiction
  | tag first rest read inductionHypothesis =>
    have nonempty := source_ne_nil_of_tag? read
    have readOn := tag?_append read more
    rw [List.append_assoc] at readOn
    rw [openName?_tag read] at left
    obtain ⟨front, tag, split, named, inside⟩ := inductionHypothesis left
    rw [List.append_assoc, piecesFrom_tag nonempty readOn, piecesFrom_tag nonempty read, split]
    refine ⟨.tag first :: front, tag, rfl, named, fun inner member => ?_⟩
    exact (List.mem_cons.mp member).elim (· ▸ List.mem_cons_self)
      fun later => List.mem_cons_of_mem _ (inside inner later)
  | left rest named unended _ =>
    rw [openName?_left named unended] at left
    have namedOn : tagName (rest ++ more) = name := by
      rw [tagName_append_of_seam seam]
      exact Option.some.inj left
    have endsOn : afterEnd? (rest ++ more) = some after := by
      rw [afterEnd?_append_of_unended unended noBrace, ends]
    obtain ⟨tag, read, sameName⟩ := exists_tag (tagName_append_ne_nil named more) endsOn
    obtain ⟨split, nonempty⟩ := eq_append_of_tag? read
    refine ⟨[], tag, ?_, sameName.trans namedOn, fun inner member => absurd member List.not_mem_nil⟩
    rw [List.cons_append, List.cons_append]
    rw [split] at read ⊢
    exact piecesFrom_tag nonempty read
  | char c rest unstarted inductionHypothesis =>
    have unstartedOn : ¬ StartsTag (c :: (rest ++ more)) :=
      fun starts => unstarted ((startsTag_append_iff seam).mp starts)
    rw [openName?_of_not_startsTag unstarted] at left
    obtain ⟨front, tag, split, named, inside⟩ := inductionHypothesis left
    rw [List.cons_append, piecesFrom_char (tag?_of_not_startsTag unstartedOn),
      piecesFrom_char (tag?_of_not_startsTag unstarted), split]
    refine ⟨.char c :: front, tag, rfl, named, fun inner member => ?_⟩
    exact (List.mem_cons.mp member).elim Piece.noConfusion
      fun later => List.mem_cons_of_mem _ (inside inner later)

/-! ## The pieces of a region -/

/-- Without its closing tag a region hides everything, and stays open. -/
theorem hideVerbatim_of_unended {ending : List Char} {written : List Piece}
    (inside : ∀ tag, .tag tag ∈ written → tag.name ≠ ending) :
    hideVerbatim (some ending) written = (sourceOf written).map .char ∧
      openRegion (some ending) written = some ending := by
  induction written with
  | nil => exact ⟨rfl, rfl⟩
  | cons piece rest inductionHypothesis =>
    obtain ⟨hidden, stays⟩ := inductionHypothesis fun tag member =>
      inside tag (List.mem_cons_of_mem piece member)
    rw [sourceOf_cons, List.map_append]
    cases piece with
    | char c =>
      rw [hideVerbatim, openRegion, hidden, stays]
      exact ⟨rfl, rfl⟩
    | tag tag =>
      have other : tag.name ≠ ending := inside tag List.mem_cons_self
      rw [hideVerbatim, openRegion]
      simp only [if_neg other]
      rw [hidden, stays]
      exact ⟨rfl, rfl⟩

/-- In the place of the closing tag ends a tag of its name, or of the name that the text leaves
open. -/
theorem piecesFrom_region {name ending : List Char} (region : verbatimEnd? name = some ending)
    (text after : List Char) :
    ∃ front tag, piecesFrom 0 (text ++ (tagText ending ++ after)) =
        front ++ .tag tag :: piecesFrom 0 after ∧
      tag.name = (openName? text).getD ending ∧
      ∀ inner, .tag inner ∈ front → .tag inner ∈ piecesFrom 0 text := by
  have read := (tag?_of_verbatimEnd? region after).2
  have seam := head?_of_tag? read
  cases left : openName? text with
  | some unfinished => exact piecesFrom_append_of_open left (afterEnd?_of_tag? read) seam
  | none =>
    refine ⟨piecesFrom 0 text, bareTag ending, ?_, rfl, fun inner member => member⟩
    rw [piecesFrom_append_of_closed left seam, piecesFrom_bareTag read]

/-- Where a region ends, the pieces after it are read as if it were not there. Where it does not, all
that follows is hidden. -/
theorem pieces_verbatimText {name ending text : List Char}
    (region : verbatimEnd? name = some ending)
    (inside : ∀ tag, .tag tag ∈ piecesFrom 0 text → tag.name ≠ ending) (after : List Char) :
    pieces (verbatimText name text ending ++ after) =
      (verbatimText name text ending).map .char ++
        hideVerbatim (if (openName? text).getD ending = ending then none else some ending)
          (piecesFrom 0 after) := by
  obtain ⟨front, tag, split, named, fromText⟩ := piecesFrom_region region text after
  have hidden := hideVerbatim_of_unended fun inner member => inside inner (fromText inner member)
  have read := (tag?_of_verbatimEnd? region (text ++ (tagText ending ++ after))).1
  have opening := piecesFrom_bareTag read
  have shape : verbatimText name text ending ++ after =
      tagText name ++ (text ++ (tagText ending ++ after)) := by
    rw [verbatimText, List.append_assoc, List.append_assoc]
  -- what is hidden is the whole region, because nothing is lost and the rest is `after`
  have covered : tagText name ++ (sourceOf front ++ tag.source) = verbatimText name text ending := by
    have written := congrArg sourceOf split
    rw [sourceOf_piecesFrom, List.drop_zero, sourceOf_append, sourceOf_cons, sourceOf_piecesFrom,
      List.drop_zero] at written
    have joined : tagText name ++ (sourceOf front ++ tag.source) ++ after =
        verbatimText name text ending ++ after := by
      rw [shape, written]
      simp [Piece.source]
    exact List.append_cancel_right joined
  have starts (rest : List Piece) : hideVerbatim none (.tag (bareTag name) :: rest) =
      (tagText name).map .char ++ hideVerbatim (some ending) rest := by
    have started : verbatimEnd? (bareTag name).name = some ending := region
    rw [hideVerbatim, started]
    rfl
  rw [shape, pieces, opening, starts, split, hideVerbatim_append, hidden.1, hidden.2, hideVerbatim,
    named, ← covered]
  simp only [List.map_append, List.append_assoc]

/-! ## The frame of the unroller -/

theorem unroll_verbatimText {before name text ending : List Char} (free : HoldsNoOpening before)
    (region : verbatimEnd? name = some ending)
    (inside : ∀ tag, .tag tag ∈ piecesFrom 0 text → tag.name ≠ ending) (count : Nat)
    (pickers : Pickers) (after : List Char) :
    unroll count pickers (before ++ (verbatimText name text ending ++ after)) =
      (unrollPieces count pickers
        (hideVerbatim (if (openName? text).getD ending = ending then none else some ending)
          (piecesFrom 0 after))).push (before ++ verbatimText name text ending) := by
  have seam : (verbatimText name text ending ++ after).head? ≠ some '%' :=
    fun same => absurd (Option.some.inj same) (show '\x7b' ≠ '%' by decide)
  rw [unroll, free.pieces_append seam, pieces_verbatimText region inside, unrollPieces_map_char,
    unrollPieces_map_char]
  simp [Unrolled.push]

theorem isLoopBody_nil : IsLoopBody [] [] none where
  complete := by decide
  closed := rfl
  single := fun tag member => absurd member List.not_mem_nil
  divides := ⟨[], none, .whole .nil, rfl, rfl⟩

/-- A loop is unrolled where it stands alone, and stays as it is behind a region that is open. -/
theorem unrolled_of_loop {name ending : List Char} (region : verbatimEnd? name = some ending) :
    (unroll 1 .empty (loopText ['b'] [])).unrolled = 1 ∧
      (unrollPieces 1 .empty (hideVerbatim (some ending)
        (piecesFrom 0 (loopText ['b'] [])))).unrolled = 0 := by
  constructor
  · have nothing : HoldsNoOpening [] := by
      unfold HoldsNoOpening
      decide
    have alone := unroll_loopText (List.cons_ne_nil 'b' []) (by decide) nothing isLoopBody_nil 1
      .empty []
    rw [List.nil_append, List.append_nil, unroll_of_holdsNoOpening nothing] at alone
    rw [alone]
  · have tags : piecesFrom 0 (loopText ['b'] []) = [.tag (loopTag ['b']), .tag loopEndTag] := rfl
    have inside : ∀ tag, .tag tag ∈ piecesFrom 0 (loopText ['b'] []) → tag.name ≠ ending := by
      intro tag member
      rw [tags, List.mem_cons, List.mem_singleton] at member
      rcases names_of_verbatimEnd? region with ⟨-, rfl⟩ | ⟨-, rfl⟩ <;>
      · rcases member with isTag | isTag <;>
        · obtain rfl := Piece.tag.inj isTag
          decide
    rw [(hideVerbatim_of_unended inside).1, ← List.append_nil (List.map _ _), unrollPieces_map_char,
      unrollPieces]
    rfl

/-- The unroller passes over a verbatim region as if it were not there exactly if the content of the
region leaves no tag open but one of the closing tag's name. Before the region stands no opening of a
tag, and in the region no tag that closes it. -/
theorem unroll_verbatimText_iff {before name text ending : List Char} (free : HoldsNoOpening before)
    (region : verbatimEnd? name = some ending)
    (inside : ∀ tag, .tag tag ∈ piecesFrom 0 text → tag.name ≠ ending) :
    (∀ count pickers after,
      unroll count pickers (before ++ (verbatimText name text ending ++ after)) =
        (unroll count pickers after).push (before ++ verbatimText name text ending)) ↔
      ∀ left ∈ openName? text, left = ending := by
  have closes : (∀ left ∈ openName? text, left = ending) ↔ (openName? text).getD ending = ending := by
    cases openName? text <;> simp
  rw [closes]
  constructor
  · intro frame
    by_contra stays
    have kept := frame 1 .empty (loopText ['b'] [])
    rw [unroll_verbatimText free region inside, if_neg stays] at kept
    obtain ⟨alone, behind⟩ := unrolled_of_loop region
    have counts := congrArg Unrolled.unrolled kept
    simp only [Unrolled.push, alone, behind] at counts
    contradiction
  · intro ends count pickers after
    rw [unroll_verbatimText free region inside, if_pos ends]
    rfl

/-- An opening without a name and a whole loop in a comment change nothing for what follows. -/
theorem unroll_verbatimText_of_comment :
    let text := "\x7b%\"\x7b% for b in section.blocks %\x7d".toList
    HoldsNoOpening "<p>".toList ∧ verbatimEnd? "comment".toList = some "endcomment".toList ∧
      (∀ tag, .tag tag ∈ piecesFrom 0 text → tag.name ≠ "endcomment".toList) ∧
      ∀ count pickers after,
        unroll count pickers ("<p>".toList ++
            (verbatimText "comment".toList text "endcomment".toList ++ after)) =
          (unroll count pickers after).push
            ("<p>".toList ++ verbatimText "comment".toList text "endcomment".toList) := by
  intro text
  have free : HoldsNoOpening "<p>".toList := by
    unfold HoldsNoOpening
    decide
  have region : verbatimEnd? "comment".toList = some "endcomment".toList := by decide
  have tags : piecesFrom 0 text = "\x7b%\"".toList.map .char ++ [.tag (loopTag ['b'])] := rfl
  have inside : ∀ tag, .tag tag ∈ piecesFrom 0 text → tag.name ≠ "endcomment".toList := by
    intro tag member
    rw [tags] at member
    obtain rfl : tag = loopTag ['b'] := by simpa using member
    decide
  have closed : openName? text = none := by decide +kernel
  exact ⟨free, region, inside,
    (unroll_verbatimText_iff free region inside).mpr (by simp [closed])⟩

/-- An unfinished tag in a raw region takes the closing tag with it: the loop behind the region is not
unrolled, although it is where it stands alone. -/
theorem unroll_verbatimText_of_unfinished :
    let region := verbatimText "raw".toList "\x7b% a".toList "endraw".toList
    let loop := loopText ['b'] []
    (∀ tag, .tag tag ∉ piecesFrom 0 "\x7b% a".toList) ∧
      unroll 1 .empty (region ++ loop) = ⟨region ++ loop, 0, 0⟩ ∧
      (unroll 1 .empty loop).unrolled = 1 := by
  intro region loop
  have hidden : pieces (region ++ loop) = (region ++ loop).map .char ++ [] := rfl
  have kept : unroll 1 .empty (region ++ loop) = ⟨region ++ loop, 0, 0⟩ := by
    rw [unroll, hidden, unrollPieces_map_char, unrollPieces, Unrolled.push, List.append_nil]
  have alone := unrolled_of_loop (show verbatimEnd? "raw".toList = some "endraw".toList from rfl)
  refine ⟨fun tag member => ?_, kept, alone.1⟩
  have tags : piecesFrom 0 "\x7b% a".toList = "\x7b% a".toList.map .char := rfl
  rw [tags] at member
  simp at member

end FlatLiquid
