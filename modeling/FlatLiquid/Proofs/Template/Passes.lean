import FlatLiquid.Template.Unrolling
import FlatLiquid.Proofs.Template.Joining
import FlatLiquid.Proofs.Template.Seams
import FlatLiquid.Proofs.Text.Rows

/-!
Contract: the four passes over the body of a loop, part by part.

Owns:
- the grammar of what each pass replaces: accessors of settings, members of the loop's variable,
  members of the loop object, and its last member in the tags with a condition;
- each pass with the row of what it keeps and what it replaces;
- the copy of a body as the text after the four passes.
-/

namespace FlatLiquid

open Text (Rule Row Part Pass Placed Traces afterPrefix? endsWord isBlank isWordChar skipBlanks
  startsWord wordOf afterWord)

/-! ## Members of an object -/

/-- A member of an object, and what takes its place. -/
def IsMember (object : List Char) (value? : List Char → Option (List Char))
    (original replacement : List Char) : Prop :=
  ∃ name, original = object ++ '.' :: name ∧ (∀ c ∈ name, isWordChar c = true) ∧
    value? name = some replacement

/-- Recognizes a member of an object that starts a word, if it has a value. -/
def memberTrace (object : List Char) (value? : List Char → Option (List Char)) : Rule Row :=
  fun before text =>
    if startsWord before then do
      let rest ← afterPrefix? (object ++ ['.']) text
      let value ← value? (wordOf rest)
      some ([.replaced (object ++ '.' :: wordOf rest) value], afterWord rest)
    else none

/-- What a fit at a member tells. The name of the member is a whole word. -/
theorem exists_name_of_memberTrace {object text after : List Char}
    {value? : List Char → Option (List Char)} {before : Option Char} {row : Row}
    (fits : memberTrace object value? before text = some (row, after)) :
    startsWord before = true ∧ ∃ name value, value? name = some value ∧
      (∀ c ∈ name, isWordChar c = true) ∧ endsWord after = true ∧
      text = object ++ '.' :: (name ++ after) ∧ row = [.replaced (object ++ '.' :: name) value] := by
  unfold memberTrace at fits
  split at fits
  · next starts =>
    obtain ⟨rest, found, fits⟩ := Option.bind_eq_some_iff.mp fits
    obtain ⟨value, isValue, fits⟩ := Option.bind_eq_some_iff.mp fits
    obtain ⟨rfl, rfl⟩ := Prod.mk.inj (Option.some.inj fits)
    refine ⟨starts, wordOf rest, value, isValue, Text.isWordChar_of_mem_wordOf,
      Text.endsWord_afterWord rest, ?_, rfl⟩
    rw [Text.wordOf_append_afterWord, Text.eq_append_of_afterPrefix? found, List.append_assoc]
    rfl
  · contradiction

/-- The pass over the members of an object. -/
def memberPass (object : List Char) (value? : List Char → Option (List Char)) : Pass where
  traced := memberTrace object value?
  allowed := IsMember object value?
  covers := by
    intro before text row after fits
    obtain ⟨-, name, value, -, -, -, rfl, rfl⟩ := exists_name_of_memberTrace fits
    simp [Part.original]
  placed := by
    intro before text row after fits
    obtain ⟨starts, name, value, isValue, word, -, -, rfl⟩ := exists_name_of_memberTrace fits
    exact .replaced starts ⟨name, rfl, word, isValue⟩ .nil

/-- The variables of a block that stand for its type and its id. -/
def fieldVariable? (scope name : List Char) : Option (List Char) :=
  if name = "type".toList ∨ name = "id".toList then some (scopedName scope name) else none

/-- The object that tells about the turns of a loop. -/
def loopObject : List Char := "forloop".toList

theorem isWordChar_loopObject : ∀ c ∈ loopObject, isWordChar c = true :=
  List.all_eq_true.mp (by decide)

/-- The test that stands for the property of being last. -/
def lastTest? (index : Nat) (name : List Char) : Option (List Char) :=
  if name = "last".toList then
    some (blockCountName ++ " == ".toList ++ Nat.toDigits 10 (index + 1))
  else none

theorem traces_blockFieldRule (variableName scope : List Char) :
    Traces (memberTrace variableName (fieldVariable? scope)) (blockFieldRule variableName scope) := by
  intro before text
  rw [blockFieldRule, memberTrace]
  split
  · cases afterPrefix? (variableName ++ ['.']) text with
    | none => rfl
    | some rest =>
      simp only [Option.bind_eq_bind, Option.bind_some, fieldVariable?]
      split <;> simp [Part.output]
  · rfl

theorem traces_loopPropertyRule (index : Nat) :
    Traces (memberTrace loopObject (loopProperty? index)) (loopPropertyRule index) := by
  intro before text
  have beginning : loopObject ++ ['.'] = "forloop.".toList := rfl
  rw [loopPropertyRule, memberTrace, beginning]
  split
  · cases afterPrefix? "forloop.".toList text with
    | none => rfl
    | some rest =>
      simp only [Option.bind_eq_bind, Option.bind_some]
      cases loopProperty? index (wordOf rest) with
      | none => rfl
      | some value => simp [Part.output]
  · rfl

theorem afterPrefix?_append_eq_bind (first second text : List Char) :
    afterPrefix? (first ++ second) text =
      (afterPrefix? first text).bind (afterPrefix? second) := by
  induction first generalizing text with
  | nil => rfl
  | cons expected more inductionHypothesis =>
    cases text with
    | nil => rfl
    | cons c rest =>
      rw [List.cons_append, afterPrefix?, afterPrefix?]
      split
      · exact inductionHypothesis rest
      · rfl

/-- A whole word is recognized where it is the word that a text starts with. -/
theorem afterWholeWord?_eq {word : List Char} (inside : ∀ c ∈ word, isWordChar c = true)
    (text : List Char) :
    afterWholeWord? word text = if wordOf text = word then some (afterWord text) else none := by
  rw [afterWholeWord?]
  split
  · next same =>
    have beginning : afterPrefix? word text = some (afterWord text) := by
      have found := Text.afterPrefix?_append (wordOf text) (afterWord text)
      rw [Text.wordOf_append_afterWord, same] at found
      exact found
    rw [beginning]
    simp [Text.endsWord_afterWord]
  · next other =>
    cases found : afterPrefix? word text with
    | none => rfl
    | some rest =>
      have split := Text.eq_append_of_afterPrefix? found
      have runsOn : endsWord rest = false := by
        rw [← Bool.not_eq_true]
        intro ends
        rw [split, Text.wordOf_append inside ends] at other
        exact other rfl
      simp [runsOn]

theorem traces_lastRule (index : Nat) :
    Traces (memberTrace loopObject (lastTest? index)) (lastRule index) := by
  intro before text
  have parts : "forloop.last".toList = (loopObject ++ ['.']) ++ "last".toList := rfl
  have inside : ∀ c ∈ "last".toList, isWordChar c = true := List.all_eq_true.mp (by decide)
  have whole : afterWholeWord? "forloop.last".toList text =
      (afterPrefix? (loopObject ++ ['.']) text).bind (afterWholeWord? "last".toList) := by
    rw [afterWholeWord?, parts, afterPrefix?_append_eq_bind]
    exact Option.bind_assoc _ _ _
  rw [lastRule, memberTrace, whole]
  split
  · cases afterPrefix? (loopObject ++ ['.']) text with
    | none => rfl
    | some rest =>
      simp only [Option.bind_eq_bind, Option.bind_some, afterWholeWord?_eq inside, lastTest?]
      split <;> simp [Part.output]
  · rfl

/-! ## Accessors of settings -/

/-- How a key is written after `.settings`: behind a dot, or in quotes and brackets with blanks around
the quotes. -/
inductive WritesKey (key : List Char) : List Char → Prop
  | dotted : WritesKey key ('.' :: key)
  | bracketed {quote : Char} {front back : List Char} (isQuote : quote = '\'' ∨ quote = '"')
      (blankFront : ∀ c ∈ front, isBlank c = true) (blankBack : ∀ c ∈ back, isBlank c = true) :
      WritesKey key ('[' :: (front ++ quote :: (key ++ quote :: (back ++ [']']))))

/-- An accessor of the setting of an object under a key. -/
def IsAccessor (object key original : List Char) : Prop :=
  IsKey key ∧ ∃ written, original = object ++ (".settings".toList ++ written) ∧ WritesKey key written

theorem isKey_of_key? {text key rest : List Char} (found : key? text = some (key, rest)) :
    IsKey key ∧ text = key ++ rest := by
  have within : ((text.takeWhile isKeyChar).reverse.dropWhile (· == '-')).reverse <+:
      text.takeWhile isKeyChar := by
    rw [← List.reverse_suffix, List.reverse_reverse]
    exact List.dropWhile_suffix _
  have undashed : ((text.takeWhile isKeyChar).reverse.dropWhile (· == '-')).reverse.getLast? ≠
      some '-' := by
    rw [List.getLast?_reverse]
    intro dash
    have stops := List.head?_dropWhile_not (· == '-') (text.takeWhile isKeyChar).reverse
    rw [dash] at stops
    simp at stops
  unfold key? at found
  simp only at found
  split at found
  · next first rest shape =>
    split at found
    · next start =>
      obtain ⟨rfl, rfl⟩ := Prod.mk.inj (Option.some.inj found)
      have isPrefix := within.trans (List.takeWhile_prefix isKeyChar)
      refine ⟨⟨⟨first, rest, shape, start⟩, ?_, undashed⟩, ?_⟩
      · apply List.all_eq_true.mpr
        intro c member
        exact List.all_eq_true.mp List.all_takeWhile c (within.subset member)
      · exact (List.prefix_iff_eq_append.mp isPrefix).symm
    · contradiction
  · contradiction

theorem exists_written_of_bracketedKey? {text key after : List Char}
    (found : bracketedKey? text = some (key, after)) :
    IsKey key ∧ ∃ written, text = written ++ after ∧ WritesKey key ('[' :: written) := by
  have blanks (text : List Char) : ∃ blanks, text = blanks ++ skipBlanks text ∧
      ∀ c ∈ blanks, isBlank c = true :=
    ⟨text.takeWhile isBlank, List.takeWhile_append_dropWhile.symm,
      List.all_eq_true.mp List.all_takeWhile⟩
  obtain ⟨front, split, blankFront⟩ := blanks text
  unfold bracketedKey? at found
  split at found
  · next quote rest shape =>
    split at found
    · next isQuote =>
      obtain ⟨⟨name, afterKey⟩, read, found⟩ := Option.bind_eq_some_iff.mp found
      obtain ⟨afterQuote, closed, found⟩ := Option.bind_eq_some_iff.mp found
      obtain ⟨rest, bracket, found⟩ := Option.bind_eq_some_iff.mp found
      obtain ⟨rfl, rfl⟩ := Prod.mk.inj (Option.some.inj found)
      obtain ⟨grammar, rfl⟩ := isKey_of_key? read
      obtain ⟨back, splitBack, blankBack⟩ := blanks afterQuote
      have ending := Text.eq_append_of_afterPrefix? bracket
      have quoted := Text.eq_append_of_afterPrefix? closed
      simp only [Bool.or_eq_true, beq_iff_eq] at isQuote
      refine ⟨grammar, front ++ quote :: (name ++ quote :: (back ++ [']'])), ?_,
        .bracketed isQuote blankFront blankBack⟩
      rw [split, shape, quoted, splitBack, ending]
      simp
    · contradiction
  · contradiction

/-- What a recognized accessor covers. -/
theorem exists_original_of_accessorRule {object key text after : List Char} {before : Option Char}
    (recognizes : accessorRule object before text = some (key, after)) :
    startsWord before = true ∧ ∃ original, text = original ++ after ∧ IsAccessor object key original := by
  unfold accessorRule at recognizes
  split at recognizes
  · next starts =>
    obtain ⟨rest, found, read⟩ := Option.bind_eq_some_iff.mp recognizes
    have split := Text.eq_append_of_afterPrefix? found
    refine ⟨starts, ?_⟩
    split at read
    · next written =>
      obtain ⟨grammar, rfl⟩ := isKey_of_key? read
      refine ⟨object ++ (".settings".toList ++ '.' :: key), ?_, grammar, _, rfl, .dotted⟩
      rw [split]
      simp
    · next written =>
      obtain ⟨grammar, bracket, rfl, writes⟩ := exists_written_of_bracketedKey? read
      refine ⟨object ++ (".settings".toList ++ '[' :: bracket), ?_, grammar, _, rfl, writes⟩
      rw [split]
      simp
    · contradiction
  · contradiction

/-- An accessor of a setting, and the variable that takes its place. -/
def IsSetting (object scope : List Char) (pickers : Pickers) (original replacement : List Char) :
    Prop :=
  ∃ key, IsAccessor object key original ∧ pickers.flatName? scope key = some replacement

/-- Recognizes an accessor of a setting. One without a variable is kept. -/
def settingTrace (object scope : List Char) (pickers : Pickers) : Rule Row := fun before text =>
  (accessorRule object before text).map fun (key, after) =>
    (match pickers.flatName? scope key with
      | some variableName => [.replaced (recognized text after) variableName]
      | none => Row.plain (recognized text after), after)

theorem exists_key_of_settingTrace {object scope text after : List Char} {pickers : Pickers}
    {before : Option Char} {row : Row}
    (fits : settingTrace object scope pickers before text = some (row, after)) :
    startsWord before = true ∧ ∃ key original, text = original ++ after ∧
      IsAccessor object key original ∧
      row = match pickers.flatName? scope key with
        | some variableName => [.replaced original variableName]
        | none => Row.plain original := by
  obtain ⟨⟨key, rest⟩, recognizes, same⟩ := Option.map_eq_some_iff.mp fits
  obtain ⟨rfl, rfl⟩ := Prod.mk.inj same
  obtain ⟨starts, original, rfl, accessor⟩ := exists_original_of_accessorRule recognizes
  refine ⟨starts, key, original, rfl, accessor, ?_⟩
  rw [recognized_append]

theorem IsAccessor.ne_nil {object key original : List Char}
    (accessor : IsAccessor object key original) : original ≠ [] := by
  obtain ⟨-, written, rfl, -⟩ := accessor
  simp

/-- The pass over the accessors of settings. -/
def settingPass (object scope : List Char) (pickers : Pickers) : Pass where
  traced := settingTrace object scope pickers
  allowed := IsSetting object scope pickers
  covers := by
    intro before text row after fits
    obtain ⟨-, key, original, rfl, accessor, rfl⟩ := exists_key_of_settingTrace fits
    cases pickers.flatName? scope key with
    | none => simp [accessor.ne_nil]
    | some variableName => simp [Part.original, accessor.ne_nil]
  placed := by
    intro before text row after fits
    obtain ⟨starts, key, original, rfl, accessor, rfl⟩ := exists_key_of_settingTrace fits
    cases stands : pickers.flatName? scope key with
    | none => exact Text.placed_plain before original
    | some variableName => exact .replaced starts ⟨key, accessor, stands⟩ .nil

theorem traces_variableRule (object scope : List Char) (pickers : Pickers) :
    Traces (settingTrace object scope pickers) (variableRule object scope pickers) := by
  intro before text
  rw [variableRule, settingTrace, Option.map_map]
  congr 1
  funext fit
  simp only [Function.comp]
  cases pickers.flatName? scope fit.1 with
  | none => simp
  | some variableName => simp [Part.output]

/-! ## Tags with a condition -/

/-- The pass over the tests in the markup of a tag with a condition. -/
def lastPass (index : Nat) : Pass :=
  memberPass loopObject (lastTest? index)

/-- Recognizes a tag with a condition. Only its markup can change. -/
def conditionTrace (index : Nat) : Rule Row := fun _ text => do
  let rest ← openTag? text
  let name := wordOf rest
  if conditionTags.contains name then
    let body := afterWord rest
    let (markup, after) ← closeTag? body
    let opening := recognized text body
    let closing := recognized (body.drop markup.length) after
    some (Row.plain opening ++ ((lastPass index).trace markup ++ Row.plain closing), after)
  else none

theorem traces_conditionRule (index : Nat) : Traces (conditionTrace index) (conditionRule index) := by
  intro before text
  rw [conditionRule, conditionTrace]
  cases openTag? text with
  | none => rfl
  | some rest =>
    simp only [Option.bind_eq_bind, Option.bind_some]
    split
    · cases closeTag? (afterWord rest) with
      | none => rfl
      | some found =>
        have replaced := (traces_lastRule index).output_traceAll found.1
        simp [lastPass, Pass.trace, memberPass, replaced]
    · rfl

/-- An end of a tag with the dash that belongs to it. -/
def IsEnd (closing : List Char) : Prop :=
  closing = ['%', '\x7d'] ∨ closing = ['-', '%', '\x7d']

theorem exists_closing_of_closeTag? {text markup after : List Char}
    (closed : closeTag? text = some (markup, after)) :
    ∃ closing, text = markup ++ (closing ++ after) ∧ IsEnd closing := by
  fun_induction closeTag? text generalizing markup with
  | case1 rest =>
    obtain ⟨rfl, rfl⟩ := Prod.mk.inj (Option.some.inj closed)
    exact ⟨['-', '%', '\x7d'], rfl, .inr rfl⟩
  | case2 rest =>
    obtain ⟨rfl, rfl⟩ := Prod.mk.inj (Option.some.inj closed)
    exact ⟨['%', '\x7d'], rfl, .inl rfl⟩
  | case3 c rest _ _ inductionHypothesis =>
    obtain ⟨⟨inner, tail⟩, found, same⟩ := Option.map_eq_some_iff.mp closed
    obtain ⟨rfl, rfl⟩ := Prod.mk.inj same
    obtain ⟨closing, split, isEnd⟩ := inductionHypothesis found
    exact ⟨closing, by rw [List.cons_append, ← split], isEnd⟩
  | case4 => contradiction

/-- The opening of a tag holds no character of a word. -/
theorem exists_opening_of_openTag? {text rest : List Char} (opened : openTag? text = some rest) :
    ∃ opening, text = opening ++ rest ∧ '\x7b' ∈ opening ∧ ∀ c ∈ opening, isWordChar c = false := by
  have withBlanks (front tail : List Char) (brace : '\x7b' ∈ front)
      (delimiter : ∀ c ∈ front, isWordChar c = false) :
      ∃ opening, front ++ tail = opening ++ skipBlanks tail ∧ '\x7b' ∈ opening ∧
        ∀ c ∈ opening, isWordChar c = false := by
    refine ⟨front ++ tail.takeWhile isBlank, ?_, List.mem_append_left _ brace, fun c member => ?_⟩
    · rw [List.append_assoc, skipBlanks, List.takeWhile_append_dropWhile]
    · rcases List.mem_append.mp member with own | blank
      · exact delimiter c own
      · apply Text.not_isWordChar_of_isBlank
        exact List.all_eq_true.mp List.all_takeWhile c blank
  unfold openTag? at opened
  split at opened
  · next tail =>
    obtain rfl := Option.some.inj opened
    exact withBlanks ['\x7b', '%', '-'] tail (by decide) (Text.eq_false_of_any_eq_false (by decide))
  · next tail _ =>
    obtain rfl := Option.some.inj opened
    exact withBlanks ['\x7b', '%'] tail (by decide) (Text.eq_false_of_any_eq_false (by decide))
  · contradiction

/-- What a fit at a tag with a condition tells. -/
theorem exists_parts_of_conditionTrace {index : Nat} (before : Option Char) {text after : List Char}
    {row : Row} (fits : conditionTrace index before text = some (row, after)) :
    ∃ opening name markup closing, text = opening ++ (name ++ (markup ++ (closing ++ after))) ∧
      row = Row.plain (opening ++ name) ++ ((lastPass index).trace markup ++ Row.plain closing) ∧
      ('\x7b' ∈ opening ∧ ∀ c ∈ opening, isWordChar c = false) ∧ name ∈ conditionTags ∧
      endsWord (markup ++ (closing ++ after)) = true ∧ IsEnd closing := by
  obtain ⟨rest, opened, fits⟩ := Option.bind_eq_some_iff.mp fits
  simp only at fits
  split at fits
  · next named =>
    obtain ⟨⟨markup, tail⟩, closed, fits⟩ := Option.bind_eq_some_iff.mp fits
    obtain ⟨rfl, rfl⟩ := Prod.mk.inj (Option.some.inj fits)
    obtain ⟨opening, split, outside⟩ := exists_opening_of_openTag? opened
    obtain ⟨closing, behind, isEnd⟩ := exists_closing_of_closeTag? closed
    have whole : text = (opening ++ wordOf rest) ++ afterWord rest := by
      rw [split, List.append_assoc, Text.wordOf_append_afterWord]
    have openingPart : recognized text (afterWord rest) = opening ++ wordOf rest := by
      rw [whole, recognized_append]
    have closingPart : recognized ((afterWord rest).drop markup.length) tail = closing := by
      rw [behind, List.drop_left, recognized_append]
    refine ⟨opening, wordOf rest, markup, closing, ?_, ?_, outside,
      List.contains_iff_mem.mp named, ?_, isEnd⟩
    · rw [whole, behind, List.append_assoc]
    · rw [openingPart, closingPart]
    · rw [← behind]
      exact Text.endsWord_afterWord rest
  · contradiction

/-- The pass over the tags with a condition. -/
def conditionPass (index : Nat) : Pass where
  traced := conditionTrace index
  allowed := (lastPass index).allowed
  covers := by
    intro before text row after fits
    obtain ⟨opening, name, markup, closing, rfl, rfl, ⟨brace, -⟩, -⟩ :=
      exists_parts_of_conditionTrace before fits
    have nonempty : opening ≠ [] := List.ne_nil_of_mem brace
    simp [Pass.original_trace, nonempty]
  placed := by
    intro before text row after fits
    obtain ⟨opening, name, markup, closing, rfl, rfl, -, -, ends, -⟩ :=
      exists_parts_of_conditionTrace before fits
    apply (Text.placed_plain before _).append
    refine Placed.append ?_ (Text.placed_plain _ _)
    -- the markup is traced on its own, but it does not run on with the name in front of it
    apply ((lastPass index).placed_trace markup).of_endsWord
    · rw [Pass.original_trace]
      cases markup with
      | nil => rfl
      | cons c rest => exact ends
    · rintro original replacement ⟨name, rfl, -⟩
      rfl

/-! ## The copy of a body -/

/-- The passes that make the copy of a body for the block at an index. -/
def copyPasses (variableName : List Char) (pickers : Pickers) (index : Nat) : List Pass :=
  [settingPass variableName (blockScope index) pickers,
    memberPass variableName (fieldVariable? (blockScope index)),
    memberPass loopObject (loopProperty? index), conditionPass index]

theorem copyFor_eq_foldl (variableName : List Char) (pickers : Pickers) (index : Nat)
    (text : List Char) :
    copyFor variableName pickers index text =
      (copyPasses variableName pickers index).foldl (fun text pass => (pass.trace text).output)
        text := by
  have settings := (traces_variableRule variableName (blockScope index) pickers).output_traceAll text
  have fields := (traces_blockFieldRule variableName (blockScope index)).output_traceAll
  have properties := (traces_loopPropertyRule index).output_traceAll
  have conditions := (traces_conditionRule index).output_traceAll
  rw [copyFor, ← settings, ← fields, ← properties, ← conditions]
  rfl

end FlatLiquid
