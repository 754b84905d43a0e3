import Mathlib.Data.List.Basic
import FlatLiquid.Proofs.Template.Inserted
import FlatLiquid.Proofs.Text.Composition

/-!
Contract: the copy of a body is one substitution, if the loop's variable has a name of its own.

Owns:
- the passes that leave alone what others inserted;
- the loop variables for which the four passes are one substitution in every body.

The pass over the fields of a block is the one that can go wrong. It looks for the loop's variable, and
the pass before it may just have put a variable of the same name in the place of a setting.
-/

namespace FlatLiquid

open Text (Row Part Pass Composes Together AllowedBy SparingAfter InsertsWords endsWord isWordChar
  startsWord)

/-! ## Passes that leave alone what others inserted -/

theorem memberPass_spares {object : List Char} {value? : List Char → Option (List Char)}
    {allowed : List Char → List Char → Prop} (isObject : ∀ c ∈ object, isWordChar c = true)
    (words : InsertsWords allowed)
    (apart : ∀ original replacement, allowed original replacement → ¬ replacement <+: object)
    (names : ∀ original replacement, allowed original replacement → ∀ name value,
      value? name = some value → ¬ replacement <+: name) :
    (memberPass object value?).Spares allowed where
  inserted := by
    intro original replacement isAllowed before rest
    obtain ⟨nonempty, inside⟩ := words original replacement isAllowed
    apply Text.traceFrom_of_unfit
    intro front c back split
    rw [← Option.not_isSome_iff_eq_none, Option.isSome_iff_exists]
    rintro ⟨⟨row, after⟩, fits⟩
    obtain ⟨starts, name, value, -, -, -, text, -⟩ := exists_name_of_memberTrace fits
    cases front with
    | nil =>
      -- the member would have the inserted word as the beginning of its object
      rw [List.nil_append] at split
      have joined : replacement ++ rest = object ++ '.' :: (name ++ after) := by
        rw [split, ← text]
        rfl
      exact apart original replacement isAllowed (Text.prefix_of_append_eq inside rfl joined)
    | cons first more =>
      have last : (first :: more).getLast? = some ((first :: more).getLast (List.cons_ne_nil _ _)) :=
        List.getLast?_eq_some_getLast _
      have isWord : isWordChar ((first :: more).getLast (List.cons_ne_nil _ _)) = true := by
        apply inside
        rw [split]
        exact List.mem_append_left _ (List.getLast_mem _)
      rw [last, Option.some_or] at starts
      simp [startsWord, isWord] at starts
  kept := by
    intro outer row placed before fit after fits _
    obtain ⟨-, name, value, isValue, isName, ends, text, rfl⟩ := exists_name_of_memberTrace fits
    have dot : ∀ c ∈ ['.'], isWordChar c = false := Text.eq_false_of_any_eq_false rfl
    obtain ⟨atDot, rfl, dotted⟩ :=
      Text.exists_plain_of_unprefixed words placed text isObject rfl apart
    have placedDot := placed.of_append
    obtain ⟨atName, rfl, named⟩ := Text.exists_plain_of_output words placedDot
      (show atDot.output = ['.'] ++ (name ++ after) from dotted) dot
    have placedName := placedDot.of_append
    obtain ⟨back, rfl, isAfter⟩ := Text.exists_plain_of_unprefixed words placedName named isName ends
      fun original replacement isAllowed => names original replacement isAllowed name value isValue
    refine ⟨Row.plain (object ++ '.' :: name), back, [.replaced (object ++ '.' :: name) value], ?_,
      ?_, isAfter, ?_⟩
    · rw [Row.plain_append, Row.plain_cons, List.append_assoc]
      rfl
    · simp [Row.plain]
    · have whole := Composes.later (object ++ '.' :: name) value .nil
      rw [List.append_nil] at whole
      exact whole

theorem endsWord_of_isEnd {closing : List Char} (isEnd : IsEnd closing) (after : List Char) :
    endsWord (closing ++ after) = true ∧ ∀ c ∈ closing, isWordChar c = false := by
  rcases isEnd with rfl | rfl <;> exact ⟨rfl, Text.eq_false_of_any_eq_false rfl⟩

theorem mem_templateWords_of_conditionTag {name : List Char} (isName : name ∈ conditionTags) :
    name ∈ templateWords ∧ ∀ c ∈ name, isWordChar c = true := by
  have each : ∀ name ∈ conditionTags, name ∈ templateWords ∧ name.all isWordChar = true := by decide
  obtain ⟨known, word⟩ := each name isName
  exact ⟨known, List.all_eq_true.mp word⟩

theorem insertsWords_of_foreign {allowed : List Char → List Char → Prop}
    (foreign : ∀ original replacement, allowed original replacement → IsForeign replacement) :
    InsertsWords allowed := by
  intro original replacement isAllowed
  have own := foreign original replacement isAllowed
  exact ⟨own.nonempty, own.inside⟩

/-- The tests for the last block hold none of the words that foreign text could be part of. -/
theorem lastPass_spares (index : Nat) {allowed : List Char → List Char → Prop}
    (foreign : ∀ original replacement, allowed original replacement → IsForeign replacement) :
    (lastPass index).Spares allowed := by
  have apart {word : List Char} (known : word ∈ templateWords) (original replacement : List Char)
      (isAllowed : allowed original replacement) : ¬ replacement <+: word :=
    (foreign original replacement isAllowed).apart word known
  refine memberPass_spares isWordChar_loopObject (insertsWords_of_foreign foreign)
    (apart (by decide)) ?_
  intro original replacement isAllowed name value isValue
  exact apart (mem_templateWords_of_lastTest? isValue) original replacement isAllowed

theorem conditionPass_spares (index : Nat) {allowed : List Char → List Char → Prop}
    (foreign : ∀ original replacement, allowed original replacement → IsForeign replacement) :
    (conditionPass index).Spares allowed where
  inserted := by
    intro original replacement isAllowed before rest
    apply Text.traceFrom_of_unfit
    intro front c back split
    have isWord : isWordChar c = true :=
      (foreign original replacement isAllowed).inside c (by rw [split]; simp)
    rw [← Option.not_isSome_iff_eq_none, Option.isSome_iff_exists]
    rintro ⟨⟨row, after⟩, fits⟩
    obtain ⟨opening, name, markup, closing, text, -, ⟨brace, outside⟩, -⟩ :=
      exists_parts_of_conditionTrace (front.getLast?.or before) fits
    cases opening with
    | nil => contradiction
    | cons first more =>
      obtain ⟨rfl, -⟩ := List.cons.inj text
      rw [outside c List.mem_cons_self] at isWord
      contradiction
  kept := by
    intro outer row placed before fit after fits _
    have words := insertsWords_of_foreign foreign
    have inMarkup := lastPass_spares index foreign
    obtain ⟨opening, name, markup, closing, text, rfl, ⟨brace, outside⟩, isName, ends, isEnd⟩ :=
      exists_parts_of_conditionTrace before fits
    obtain ⟨known, isWord⟩ := mem_templateWords_of_conditionTag isName
    obtain ⟨endsMarkup, outsideClosing⟩ := endsWord_of_isEnd isEnd after
    -- the row falls apart as the tag does: only its markup can hold what was inserted
    obtain ⟨atName, rfl, named⟩ := Text.exists_plain_of_output words placed text outside
    have placedName := placed.of_append
    obtain ⟨atMarkup, rfl, marked⟩ :=
      Text.exists_plain_of_unprefixed words placedName named isWord ends
        fun original replacement isAllowed => (foreign original replacement isAllowed).apart name known
    have placedMarkup := placedName.of_append
    obtain ⟨inside, atClosing, rfl, isMarkup, closed⟩ :=
      Text.exists_append_of_output words placedMarkup marked endsMarkup
    obtain ⟨back, rfl, isAfter⟩ := Text.exists_plain_of_output words placedMarkup.of_append closed
      outsideClosing
    obtain ⟨whole, together⟩ := inMarkup.exists_composes placedMarkup.of_append_left none
    rw [isMarkup] at together
    have unchanged (text : List Char) : Composes (Row.plain text) (Row.plain text) (Row.plain text) := by
      have same := Text.composes_plain (Row.plain text)
      rw [Row.output_plain] at same
      exact same
    refine ⟨Row.plain (opening ++ name) ++ (inside ++ Row.plain closing), back,
      Row.plain (opening ++ name) ++ (whole ++ Row.plain closing), ?_, ?_, isAfter, ?_⟩
    · simp only [Row.plain_append, List.append_assoc]
    · simp [Row.plain, List.ne_nil_of_mem brace]
    · exact (unchanged _).append (together.append (unchanged _))

/-! ## The copy of a body as one substitution -/

/-- A row that tells how the copy of a body is made: no pass replaces what an earlier one inserted, and
each replaced part is an accessor of the body. What takes its place depends on the accessor alone. -/
structure IsOneSubstitution (variableName : List Char) (pickers : Pickers) (index : Nat)
    (body : List Char) (row : Row) : Prop where
  together : Together (Row.plain body) (copyPasses variableName pickers index) row
  original : row.original = body
  output : row.output = copyFor variableName pickers index body
  parts : ∀ original replacement, .replaced original replacement ∈ row →
    IsSetting variableName (blockScope index) pickers original replacement ∨
      IsMember variableName (fieldVariable? (blockScope index)) original replacement ∨
      IsMember loopObject (loopProperty? index) original replacement ∨
      IsMember loopObject (lastTest? index) original replacement

section Copy

variable {variableName : List Char} {pickers : Pickers} {index : Nat}

theorem isForeign_of_allowedBy {earlier : List Pass}
    (among : ∀ pass ∈ earlier, pass ∈ (copyPasses variableName pickers index).take 3)
    {original replacement : List Char} (isAllowed : AllowedBy earlier original replacement) :
    IsForeign replacement := by
  obtain ⟨pass, member, isAllowed⟩ := isAllowed
  have inserting := among pass member
  simp only [copyPasses, List.take_succ_cons, List.take_zero, List.mem_cons, List.not_mem_nil,
    or_false] at inserting
  rcases inserting with rfl | rfl | rfl
  · obtain ⟨key, -, stands⟩ := isAllowed
    exact isForeign_flatName? stands
  · obtain ⟨name, -, word, isValue⟩ := isAllowed
    exact isForeign_fieldVariable? word isValue
  · obtain ⟨name, -, -, isValue⟩ := isAllowed
    exact (isForeign_loopProperty? isValue).2

/-- Every pass spares what the passes before it insert, if no variable of a setting begins the loop's
variable. -/
theorem copyPasses_sparing (word : ∀ c ∈ variableName, isWordChar c = true)
    (own : ∀ key flat, IsKey key → pickers.flatName? (blockScope index) key = some flat →
      ¬ flat <+: variableName) :
    SparingAfter [] (copyPasses variableName pickers index) := by
  have foreign {earlier : List Pass}
      (among : ∀ pass ∈ earlier, pass ∈ (copyPasses variableName pickers index).take 3)
      (original replacement : List Char) (isAllowed : AllowedBy earlier original replacement) :=
    isForeign_of_allowedBy among isAllowed
  have words {earlier : List Pass}
      (among : ∀ pass ∈ earlier, pass ∈ (copyPasses variableName pickers index).take 3) :
      InsertsWords (AllowedBy earlier) := insertsWords_of_foreign (foreign among)
  have one : ∀ pass ∈ [settingPass variableName (blockScope index) pickers],
      pass ∈ (copyPasses variableName pickers index).take 3 := by simp [copyPasses]
  have two : ∀ pass ∈ [settingPass variableName (blockScope index) pickers,
        memberPass variableName (fieldVariable? (blockScope index))],
      pass ∈ (copyPasses variableName pickers index).take 3 := by simp [copyPasses]
  have three : ∀ pass ∈ (copyPasses variableName pickers index).take 3,
      pass ∈ (copyPasses variableName pickers index).take 3 := fun _ member => member
  refine ⟨words (by simp), Pass.spares_nothing _, words one, ?_, words two, ?_, words three, ?_,
    trivial⟩
  · refine memberPass_spares word (words one) ?_ ?_
    · rintro original flat ⟨pass, member, isAllowed⟩
      obtain rfl := List.mem_singleton.mp member
      obtain ⟨key, ⟨grammar, -⟩, stands⟩ := isAllowed
      exact own key flat grammar stands
    · intro original replacement isAllowed name value isValue
      exact (foreign one original replacement isAllowed).apart name
        (mem_templateWords_of_fieldVariable? isValue).1
  · refine memberPass_spares isWordChar_loopObject (words two) ?_ ?_
    · intro original replacement isAllowed
      exact (foreign two original replacement isAllowed).apart loopObject (by decide)
    · intro original replacement isAllowed name value isValue
      exact (foreign two original replacement isAllowed).apart name
        (isForeign_loopProperty? isValue).1
  · exact conditionPass_spares index (foreign three)

theorem exists_isOneSubstitution (word : ∀ c ∈ variableName, isWordChar c = true)
    (own : ∀ key flat, IsKey key → pickers.flatName? (blockScope index) key = some flat →
      ¬ flat <+: variableName) (body : List Char) :
    ∃ row, IsOneSubstitution variableName pickers index body row := by
  obtain ⟨row, together, placed⟩ :=
    Text.exists_together (copyPasses_sparing word own) (Text.placed_plain none body)
  refine ⟨row, together, ?_, ?_, ?_⟩
  · rw [together.original_eq, Row.original_plain]
  · rw [together.output_eq, Row.output_plain, copyFor_eq_foldl]
  · intro original replacement member
    obtain ⟨pass, isPass, isAllowed⟩ := placed.allowed_of_mem member
    simp only [copyPasses, List.nil_append, List.mem_cons, List.not_mem_nil, or_false] at isPass
    rcases isPass with rfl | rfl | rfl | rfl
    · exact .inl isAllowed
    · exact .inr (.inl isAllowed)
    · exact .inr (.inr (.inl isAllowed))
    · exact .inr (.inr (.inr isAllowed))

/-- A text that is a member and nothing else is replaced. -/
theorem memberPass_trace (object : List Char) {name value : List Char}
    {value? : List Char → Option (List Char)} (nameWord : ∀ c ∈ name, isWordChar c = true)
    (isValue : value? name = some value) :
    (memberPass object value?).trace (object ++ '.' :: name) =
      [.replaced (object ++ '.' :: name) value] := by
  have beginning : Text.afterPrefix? (object ++ ['.']) (object ++ '.' :: name) = some name := by
    have found := Text.afterPrefix?_append (object ++ ['.']) name
    rw [List.append_assoc] at found
    exact found
  have read := Text.wordOf_append nameWord (show endsWord [] = true from rfl)
  have rest := Text.afterWord_append nameWord (show endsWord [] = true from rfl)
  rw [List.append_nil] at read rest
  have fits : memberTrace object value? none (object ++ '.' :: name) =
      some ([.replaced (object ++ '.' :: name) value], []) := by
    rw [memberTrace, if_pos (show startsWord none = true from rfl), beginning]
    simp [read, rest, isValue]
  have isMember : object ++ '.' :: name ≠ [] := by simp
  rw [← List.append_nil (object ++ '.' :: name)] at fits
  have whole := (memberPass object value?).trace_of_fit isMember fits (by simp)
  rw [List.append_nil] at whole
  exact whole

/-- In a text with one dot no setting is accessed behind it. -/
theorem settingTrace_of_type {scope front back suffix : List Char} {c : Char}
    (word : ∀ c ∈ suffix, isWordChar c = true) (split : suffix ++ ".type".toList = front ++ c :: back)
    (before : Option Char) : settingTrace variableName scope pickers before (c :: back) = none := by
  rw [← Option.not_isSome_iff_eq_none, Option.isSome_iff_exists]
  rintro ⟨⟨row, after⟩, fits⟩
  obtain ⟨-, key, original, text, ⟨-, written, rfl, -⟩, -⟩ := exists_key_of_settingTrace fits
  have noDot : '.' ∉ suffix := fun member => absurd (word '.' member) (by decide)
  have joined : suffix ++ '.' :: "type".toList =
      (front ++ variableName) ++ '.' :: ("settings".toList ++ (written ++ after)) := by
    rw [text] at split
    simpa using split
  obtain ⟨-, -, same⟩ := (List.append_cons_inj_of_notMem noDot (by decide)).mp joined
  exact absurd (List.cons.inj same).1 (by decide)

/-- A setting that gives way to the beginning of the loop's variable, with the rest of the variable and
a field behind it, is replaced twice. -/
theorem not_together_of_prefix {key flat suffix : List Char}
    (word : ∀ c ∈ flat ++ suffix, isWordChar c = true) (grammar : IsKey key)
    (stands : pickers.flatName? (blockScope index) key = some flat) (row : Row) :
    ¬ Together
      (Row.plain (accessorText (flat ++ suffix) (.bracketed .single) key ++
        (suffix ++ ".type".toList)))
      (copyPasses (flat ++ suffix) pickers index) row := by
  have wordSuffix : ∀ c ∈ suffix, isWordChar c = true := fun c member =>
    word c (List.mem_append_right _ member)
  have recognizes := accessorRule_append (flat ++ suffix) (.bracketed .single)
    (show startsWord none = true from rfl) grammar
    (show KeyForm.endsBefore _ (suffix ++ ".type".toList) from KeyForm.noConfusion)
  have isAccessor : accessorText (flat ++ suffix) (.bracketed .single) key ≠ [] := by
    simp [accessorText]
  generalize accessorText (flat ++ suffix) (.bracketed .single) key = accessor at recognizes isAccessor ⊢
  have settingFits : settingTrace (flat ++ suffix) (blockScope index) pickers none
      (accessor ++ (suffix ++ ".type".toList)) =
        some ([.replaced accessor flat], suffix ++ ".type".toList) := by
    rw [settingTrace, recognizes]
    simp only [Option.map_some, stands, recognized_append]
  have settings := (settingPass (flat ++ suffix) (blockScope index) pickers).trace_of_fit isAccessor
    settingFits fun before front c back split => settingTrace_of_type wordSuffix split before
  have isField : fieldVariable? (blockScope index) "type".toList =
      some (scopedName (blockScope index) "type".toList) := rfl
  have fields := memberPass_trace (flat ++ suffix) (List.all_eq_true.mp (by decide)) isField
  intro together
  cases together with
  | cons first more =>
    cases more with
    | cons second _ =>
      rw [Row.output_plain, settings] at first
      obtain rfl := first.eq_of_plain
      have between : Row.output ([.replaced accessor flat] ++ Row.plain (suffix ++ ".type".toList)) =
          (flat ++ suffix) ++ '.' :: "type".toList := by
        simp [Part.output]
      rw [between, fields] at second
      exact Text.not_composes_of_replaced (isForeign_flatName? stands).nonempty (by simp) second

end Copy

/-- The four passes are one substitution in every body exactly if no variable that can stand for a
setting of the block begins the loop's variable. -/
theorem exists_isOneSubstitution_iff {variableName : List Char}
    (word : variableName.all isWordChar = true) (pickers : Pickers) (index : Nat) :
    (∀ body, ∃ row, IsOneSubstitution variableName pickers index body row) ↔
      ∀ key flat, IsKey key → pickers.flatName? (blockScope index) key = some flat →
        ¬ flat <+: variableName := by
  have inside : ∀ c ∈ variableName, isWordChar c = true := List.all_eq_true.mp word
  constructor
  · rintro everywhere key flat grammar stands ⟨suffix, rfl⟩
    obtain ⟨row, isOne⟩ := everywhere
      (accessorText (flat ++ suffix) (.bracketed .single) key ++ (suffix ++ ".type".toList))
    exact not_together_of_prefix inside grammar stands row isOne.together
  · exact exists_isOneSubstitution inside

/-- A loop over `block` is one substitution for its first block, whatever the body. -/
theorem exists_isOneSubstitution_of_block :
    "block".toList.all isWordChar = true ∧
      ∀ body, ∃ row, IsOneSubstitution "block".toList .empty 0 body row := by
  have word : "block".toList.all isWordChar = true := by decide
  refine ⟨word, (exists_isOneSubstitution_iff word .empty 0).mpr ?_⟩
  intro key flat _ stands begins
  unfold Pickers.flatName? at stands
  split at stands
  · next resource _ =>
    obtain rfl := Option.some.inj stands
    revert begins
    cases resource <;> decide
  · obtain ⟨name, -, rfl⟩ := Option.map_eq_some_iff.mp stands
    have longer : ['b', 'l', 'o', 'c', 'k', '_'] <+: "block".toList := by
      rw [scopedName_blockScope] at begins
      exact (List.prefix_append _ _).trans begins
    exact absurd longer (by decide)

/-- A setting that picks a product gives way to `product`, and together with what follows it to the
type of the block, if the loop's variable is named so. -/
theorem copyFor_of_resourceVariable :
    let body := "\x7b\x7b product.settings.product.type \x7d\x7d".toList
    copyFor "product".toList .empty 0 body = "\x7b\x7b block_0_type \x7d\x7d".toList ∧
      ∀ row, ¬ IsOneSubstitution "product".toList .empty 0 body row := by
  intro body
  refine ⟨by decide +kernel, fun row isOne => ?_⟩
  have settings : (settingPass "product".toList (blockScope 0) .empty).trace body =
      Row.plain "\x7b\x7b ".toList ++
        .replaced "product.settings.product".toList "product".toList ::
          Row.plain ".type \x7d\x7d".toList := by rfl
  have fields : (memberPass "product".toList (fieldVariable? (blockScope 0))).trace
      "\x7b\x7b product.type \x7d\x7d".toList =
        Row.plain "\x7b\x7b ".toList ++
          .replaced "product.type".toList "block_0_type".toList :: Row.plain " \x7d\x7d".toList := by
    rfl
  cases isOne.together with
  | cons first more =>
    cases more with
    | cons second _ =>
      rw [Row.output_plain, settings] at first
      obtain rfl := first.eq_of_plain
      have between : Row.output (Row.plain "\x7b\x7b ".toList ++
          .replaced "product.settings.product".toList "product".toList ::
            Row.plain ".type \x7d\x7d".toList) = "\x7b\x7b product.type \x7d\x7d".toList := rfl
      rw [between, fields] at second
      obtain ⟨rest, twice⟩ := second.of_plain_append
      exact Text.not_composes_of_replaced (by decide) (by decide) twice

end FlatLiquid
