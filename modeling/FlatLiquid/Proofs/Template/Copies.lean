import FlatLiquid.Proofs.Statement.Scopes
import FlatLiquid.Proofs.Template.LoopTags
import FlatLiquid.Proofs.Template.Seams

/-!
Contract: a loop that outputs a setting of each block becomes one output for each block.

Owns:
- the parts of a loop whose body holds no tag;
- the four passes over a body, of which only the first one finds anything to replace;
- the unrolled loop.

The body is an output tag. Its braces are pieces of their own, and what stands between them holds
none, so that the closing tag is the only tag after the opening one.
-/

namespace FlatLiquid

open Text (afterPrefix? isWordChar replaceAll)

/-! ## The loop and its copies -/

/-- An output tag around an expression. -/
def outputText (expression : List Char) : List Char :=
  '\x7b' :: '\x7b' :: ' ' :: expression ++ [' ', '\x7d', '\x7d']

/-- A loop over the blocks that outputs a setting of each. -/
def settingLoop (variableName : List Char) (form : KeyForm) (key : List Char) : List Char :=
  tagText ("for ".toList ++ variableName ++ " in section.blocks".toList) ++
    outputText (accessorText variableName form key) ++ tagText "endfor".toList

/-- The copy of such a loop for one block. -/
def settingCopy (name : List Char) (index : Nat) : List Char :=
  guarded (" > ".toList ++ Nat.toDigits 10 index)
    (outputText (scopedName (blockScope index) name))

/-! ## The parts of a loop without tags in its body -/

theorem find?_map_char {closing : Tag} (closes : closing.name = "endfor".toList) (text : List Char)
    (after : List Piece) :
    LoopParts.find? [] (text.map .char ++ .tag closing :: after) =
      some ⟨text.map .char, none, closing, after⟩ := by
  induction text with
  | nil =>
    have step : loopStep [] closing = .closes := by
      rw [loopStep, closes]
      rfl
    rw [List.map_nil, List.nil_append, LoopParts.find?, step]
  | cons c tail inductionHypothesis =>
    rw [List.map_cons, List.cons_append, LoopParts.find?, inductionHypothesis]
    rfl

theorem iterates_map_char (text : List Char) (closing : Tag) (after : List Piece) :
    LoopParts.iterates ⟨text.map .char, none, closing, after⟩ = false := by
  simp [LoopParts.iterates, LoopParts.inner, LoopParts.alternativePieces]

/-! ## The passes over a body -/

theorem afterPrefix?_of_not_mem {beginning text : List Char} {c : Char} (needed : c ∈ beginning)
    (missing : c ∉ text) : afterPrefix? beginning text = none := by
  induction beginning generalizing text with
  | nil => exact absurd needed List.not_mem_nil
  | cons expected more inductionHypothesis =>
    cases text with
    | nil => rfl
    | cons d tail =>
      rw [List.mem_cons, not_or] at missing
      rw [afterPrefix?]
      split
      · next same =>
        have later : c ∈ more := by
          rcases List.mem_cons.mp needed with rfl | later
          · exact absurd same missing.1
          · exact later
        exact inductionHypothesis later missing.2
      · rfl

/-- A text without dots and percent signs holds nothing that the passes after the first one look
for. -/
theorem copyFor_of_variableRule {variableName body text : List Char} {pickers : Pickers} {index : Nat}
    (replaced : replaceAll (variableRule variableName (blockScope index) pickers) body = text)
    (noDot : '.' ∉ text) (noPercent : '%' ∉ text) :
    copyFor variableName pickers index body = text := by
  have noFields : replaceAll (blockFieldRule variableName (blockScope index)) text = text := by
    refine Text.replaceFrom_of_unfit_suffix none fun before suffix isSuffix => ?_
    have missing : '.' ∉ suffix := fun member => noDot (isSuffix.subset member)
    have dotted : '.' ∈ variableName ++ ['.'] := List.mem_append_right _ List.mem_cons_self
    rw [blockFieldRule, afterPrefix?_of_not_mem dotted missing]
    split <;> rfl
  have noProperties : replaceAll (loopPropertyRule index) text = text := by
    refine Text.replaceFrom_of_unfit_suffix none fun before suffix isSuffix => ?_
    have missing : '.' ∉ suffix := fun member => noDot (isSuffix.subset member)
    have dotted : '.' ∈ "forloop.".toList := by decide
    rw [loopPropertyRule, afterPrefix?_of_not_mem dotted missing]
    split <;> rfl
  have noConditions : replaceAll (conditionRule index) text = text := by
    refine Text.replaceFrom_of_unfit_suffix none fun before suffix isSuffix => ?_
    have missing : '%' ∉ suffix := fun member => noPercent (isSuffix.subset member)
    have unopened : openTag? suffix = none := by
      unfold openTag?
      split
      · simp at missing
      · simp at missing
      · rfl
    rw [conditionRule, unopened]
    rfl
  rw [copyFor]
  simp only [replaced, noFields, noProperties, noConditions]

theorem not_mem_scopedName_blockScope {c : Char} (other : isIdentifierChar c = false) (index : Nat)
    {key name : List Char} (made : identifier? key = some name) :
    c ∉ scopedName (blockScope index) name := by
  intro member
  have identifier : isIdentifierChar c = true := by
    rw [scopedName_blockScope] at member
    rcases List.mem_append.mp member with letters | member
    · have inLetters : ['b', 'l', 'o', 'c', 'k', '_'].all isIdentifierChar = true := by decide
      exact List.all_eq_true.mp inLetters c letters
    · rcases List.mem_append.mp member with digits | member
      · have digit := Nat.isDigit_of_mem_toDigits (by decide) (by decide) digits
        simp [isIdentifierChar, Char.isAlphanum, digit]
      · rcases List.mem_cons.mp member with rfl | inName
        · decide
        · exact isIdentifierChar_of_mem made inName
  rw [other] at identifier
  contradiction

/-- The copy of an output of a setting is an output of the variable that stands for it. -/
theorem copyFor_outputText {variableName key name : List Char} {pickers : Pickers} (form : KeyForm)
    (index : Nat) (named : variableName ≠ []) (word : variableName.all isWordChar = true)
    (grammar : IsKey key) (free : pickers.target? (String.ofList key) = none)
    (made : identifier? key = some name) :
    copyFor variableName pickers index (outputText (accessorText variableName form key)) =
      outputText (scopedName (blockScope index) name) := by
  obtain ⟨first, object, rfl⟩ := List.exists_cons_of_ne_nil named
  have inside : ∀ c ∈ first :: object, isWordChar c = true := List.all_eq_true.mp word
  have isWord : isWordChar first = true := inside first List.mem_cons_self
  have closing : [' ', '\x7d', '\x7d'].all (fun c => !isWordChar c) = true := by decide
  have endsBefore : form.endsBefore [' ', '\x7d', '\x7d'] := fun _ => by decide
  have opening : IsOutputOpening ['\x7b', '\x7b', ' '] := ⟨[' '], rfl, by decide⟩
  have separate : ∀ c ∈ [' ', '\x7d', '\x7d'].head?, isWordChar c = false := by
    rintro c ⟨⟩
    decide
  have fit := replaceAll_variableRule_outputTag (blockScope index) form [] word opening
    grammar endsBefore separate free made
  have kept : replaceAll (variableRule (first :: object) (blockScope index) pickers)
      [' ', '\x7d', '\x7d'] = [' ', '\x7d', '\x7d'] := by
    have unfit : ∀ c ∈ [' ', '\x7d', '\x7d'], ∀ before tail,
        variableRule (first :: object) (blockScope index) pickers before (c :: tail) = none := by
      intro c member before tail
      refine variableRule_of_ne ?_ before tail
      rintro rfl
      have other := List.all_eq_true.mp closing _ member
      simp [isWord] at other
    simpa [replaceAll, Text.replaceFrom] using Text.replaceFrom_of_unfit none [] unfit
  have replaced : replaceAll (variableRule (first :: object) (blockScope index) pickers)
      (outputText (accessorText (first :: object) form key)) =
        outputText (scopedName (blockScope index) name) := by
    have shape (expression : List Char) : outputText expression =
        [] ++ ['\x7b', '\x7b', ' '] ++ expression ++ [' ', '\x7d', '\x7d'] := rfl
    rw [shape, fit, kept]
    rfl
  refine copyFor_of_variableRule replaced ?_ ?_
  · intro member
    have inName : '.' ∈ scopedName (blockScope index) name := by simpa [outputText] using member
    exact not_mem_scopedName_blockScope (by decide) index made inName
  · intro member
    have inName : '%' ∈ scopedName (blockScope index) name := by simpa [outputText] using member
    exact not_mem_scopedName_blockScope (by decide) index made inName

/-! ## The unrolled loop -/

theorem brace_not_mem_accessorText {variableName key : List Char} (form : KeyForm)
    (word : variableName.all isWordChar = true) (grammar : IsKey key) :
    '\x7b' ∉ accessorText variableName form key := by
  have inVariable : '\x7b' ∉ variableName := fun member =>
    absurd (List.all_eq_true.mp word _ member) (by decide)
  have inKey : '\x7b' ∉ key := fun member =>
    absurd (List.all_eq_true.mp grammar.inside _ member) (by decide)
  have between : '\x7b' ∉ ".settings".toList := by decide
  have written : '\x7b' ∉ form.text key := by
    cases form with
    | dotted => simp [KeyForm.text, inKey]
    | bracketed quote =>
      have other : '\x7b' ≠ quote.char := by cases quote <;> decide
      simp [KeyForm.text, inKey, other]
  simp only [accessorText, List.mem_append, not_or]
  exact ⟨⟨inVariable, between⟩, written⟩

/-- An output tag in a template is made of plain characters. -/
theorem piecesFrom_outputText {expression : List Char} (free : '\x7b' ∉ expression)
    (rest : List Char) :
    piecesFrom 0 (outputText expression ++ rest) =
      (outputText expression).map .char ++ piecesFrom 0 rest := by
  have inner : '\x7b' ∉ ' ' :: expression ++ [' ', '\x7d', '\x7d'] := by
    simp [free]
  have shape : outputText expression ++ rest =
      '\x7b' :: '\x7b' :: (' ' :: expression ++ [' ', '\x7d', '\x7d'] ++ rest) := rfl
  rw [shape, piecesFrom_brace (by simp), piecesFrom_brace (by simp), piecesFrom_plain inner]
  rfl

theorem pieces_settingLoop {variableName key : List Char} (form : KeyForm)
    (word : variableName.all isWordChar = true) (grammar : IsKey key) :
    pieces (settingLoop variableName form key) =
      .tag (loopTag variableName) ::
        ((outputText (accessorText variableName form key)).map .char ++ [.tag loopEndTag]) := by
  have expressionPlain := brace_not_mem_accessorText form word grammar
  have shape : settingLoop variableName form key = (loopTag variableName).source ++
      (outputText (accessorText variableName form key) ++ (loopEndTag.source ++ [])) := by
    rw [settingLoop, List.append_assoc, List.append_nil]
    rfl
  have fallsApart : piecesFrom 0 (settingLoop variableName form key) =
      .tag (loopTag variableName) ::
        ((outputText (accessorText variableName form key)).map .char ++ [.tag loopEndTag]) := by
    rw [shape, piecesFrom_tag (List.cons_ne_nil _ _) (tag?_loopTag word _),
      piecesFrom_outputText expressionPlain,
      piecesFrom_tag (List.cons_ne_nil _ _) (tag?_loopEndTag [])]
    rfl
  have verbatimOpening : verbatimEnd? (loopTag variableName).name = none := by rfl
  have verbatimClosing : verbatimEnd? loopEndTag.name = none := by decide
  rw [pieces, fallsApart, hideVerbatim]
  simp only [verbatimOpening]
  rw [hideVerbatim_map_char, hideVerbatim]
  simp only [verbatimClosing]
  rfl

/-- Unrolling such a loop puts one copy for each index in its place, and counts one loop. -/
theorem unroll_settingLoop {variableName key name : List Char} {pickers : Pickers} (form : KeyForm)
    (count : Nat) (named : variableName ≠ []) (word : variableName.all isWordChar = true)
    (grammar : IsKey key) (free : pickers.target? (String.ofList key) = none)
    (made : identifier? key = some name) :
    unroll count pickers (settingLoop variableName form key) =
      ⟨List.intercalate ['\n'] ((List.range count).map (settingCopy name)), 1, 0⟩ := by
  have loop : (loopTag variableName).blockLoopVariable? = some variableName :=
    blockLoopVariable?_markup named word
  have found := find?_map_char (show loopEndTag.name = "endfor".toList from rfl)
    (outputText (accessorText variableName form key)) []
  have copies : LoopParts.copies ⟨(outputText (accessorText variableName form key)).map .char,
      none, loopEndTag, []⟩ variableName pickers count =
        List.intercalate ['\n'] ((List.range count).map (settingCopy name)) := by
    have each : guardedCopy variableName pickers
        (outputText (accessorText variableName form key)) = settingCopy name := by
      funext index
      rw [guardedCopy, copyFor_outputText form index named word grammar free made, settingCopy]
    rw [LoopParts.copies, sourceOf_map_char, each]
    exact congrArg _ (List.append_nil _)
  have nothing : unrollPieces count pickers [] = ⟨[], 0, 0⟩ := by rw [unrollPieces]
  rw [unroll, pieces_settingLoop form word grammar, unrollPieces_loop count pickers loop found
    (iterates_map_char _ loopEndTag []), copies, nothing]
  simp [Unrolled.push]

end FlatLiquid
