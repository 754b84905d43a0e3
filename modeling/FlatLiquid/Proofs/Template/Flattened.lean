import FlatLiquid.Proofs.Text.Finding
import FlatLiquid.Proofs.Template.Tails

/-!
Contract: the accessors that are left in a flattened template.

Owns:
- the keys without a variable, which are those that are too long for an identifier;
- a template in which no accessor has a variable, which flattening leaves as it is;
- the accessors of a flattened template: those without a variable, where they were.

Key step: an accessor of the flattened template is written in characters that were there before. What
is inserted is a word that neither begins the object nor `settings`, so it can only stand where a key
starts, and there the template had an accessor already.
-/

namespace FlatLiquid

open Text (Rule Row Part Placed InsertsWords traceFrom replaceFrom findFrom findAll afterPrefix?
  startsWord endsWord isWordChar isBlank)

/-! ## Accessors without a variable -/

/-- An accessor stays as it is written: its key picks no resource and is too long for an identifier. -/
def staysWritten (pickers : Pickers) (key : List Char) : Bool :=
  (pickers.target? (String.ofList key)).isNone && decide (identifierLimit < key.length)

/-- A key has no variable exactly if its accessor stays written. -/
theorem flatName?_eq_none_iff {pickers : Pickers} {key : List Char} (scope : List Char)
    (grammar : IsKey key) : pickers.flatName? scope key = none ↔ staysWritten pickers key = true := by
  obtain ⟨first, rest, rfl, start⟩ := grammar.starts
  rw [Pickers.flatName?, staysWritten]
  cases pickers.target? (String.ofList (first :: rest)) with
  | some resource => simp
  | none => simp [identifier?, start]

/-- Where no accessor has a variable, the pass changes nothing. -/
theorem replaceFrom_of_unnamed {object scope : List Char} {pickers : Pickers} (before : Option Char)
    (skip : Nat) (text : List Char)
    (unnamed : ∀ key ∈ findFrom (accessorRule object) before skip text,
      pickers.flatName? scope key = none) :
    replaceFrom (variableRule object scope pickers) before skip text = text.drop skip := by
  induction text generalizing before skip with
  | nil => rw [replaceFrom, List.drop_nil]
  | cons c rest inductionHypothesis =>
    cases skip with
    | succ skip => exact inductionHypothesis (some c) skip unnamed
    | zero =>
      rw [findFrom] at unnamed
      rw [replaceFrom, variableRule]
      cases found : accessorRule object before (c :: rest) with
      | none =>
        rw [found] at unnamed
        simp only [Option.map_none]
        rw [inductionHypothesis (some c) 0 unnamed]
        rfl
      | some fit =>
        obtain ⟨key, after⟩ := fit
        rw [found] at unnamed
        have here := unnamed key List.mem_cons_self
        have later := inductionHypothesis (some c) (rest.length - after.length) fun other member =>
          unnamed other (List.mem_cons_of_mem key member)
        obtain ⟨-, original, split, accessor⟩ := exists_original_of_accessorRule found
        obtain ⟨first, covered, rfl⟩ := List.exists_cons_of_ne_nil accessor.ne_nil
        have tail : rest = covered ++ after := (List.cons.inj split).2
        have covers : rest.length - after.length = covered.length := by
          rw [tail, List.length_append, Nat.add_sub_cancel]
        rw [Option.map_some]
        simp only [here, Option.getD_none]
        rw [later, covers, split, recognized_append, tail, List.drop_left]
        rfl

/-! ## Flattened text -/

section Flattened

variable {pickers : Pickers}

/-- The pass over the accessors of the section. -/
def sectionPass (pickers : Pickers) : Text.Pass :=
  settingPass sectionObject sectionScope pickers

/-- What stands for a setting of the section is a word that begins neither the object nor
`settings`. -/
theorem not_prefix_of_flatName? {key variableName : List Char}
    (stands : pickers.flatName? sectionScope key = some variableName) :
    ¬ variableName <+: sectionObject ∧ ¬ variableName <+: "settings".toList := by
  unfold Pickers.flatName? at stands
  split at stands
  · next resource _ =>
    obtain rfl := Option.some.inj stands
    cases resource <;> decide
  · obtain ⟨name, -, rfl⟩ := Option.map_eq_some_iff.mp stands
    have longer : "settings_".toList <+: scopedName sectionScope name := List.prefix_append _ name
    exact ⟨fun begins => absurd (longer.trans begins) (by decide),
      fun begins => absurd (longer.trans begins) (by decide)⟩

theorem insertsWords_sectionPass : InsertsWords (sectionPass pickers).allowed := by
  rintro original variableName ⟨key, -, stands⟩
  have inScope : ∀ c ∈ sectionScope, isWordChar c = true := List.all_eq_true.mp (by decide)
  refine ⟨?_, isWordChar_of_mem_flatName? inScope stands⟩
  rintro rfl
  exact (not_prefix_of_flatName? stands).1 List.nil_prefix

/-- A character of no word is in the text after only if it was in the text before. -/
theorem not_mem_output {allowed : List Char → List Char → Prop} (words : InsertsWords allowed)
    {before : Option Char} {row : Row} (placed : Placed allowed before row) {c : Char}
    (outside : isWordChar c = false) (free : c ∉ row.original) : c ∉ row.output := by
  induction placed with
  | nil => exact List.not_mem_nil
  | kept _ inductionHypothesis =>
    rw [Row.original_cons, List.mem_append, not_or] at free
    rw [Row.output_cons, List.mem_append, not_or]
    exact ⟨free.1, inductionHypothesis free.2⟩
  | @replaced _ original replacement _ _ isAllowed _ inductionHypothesis =>
    rw [Row.original_cons, List.mem_append, not_or] at free
    rw [Row.output_cons, List.mem_append, not_or]
    refine ⟨fun member => ?_, inductionHypothesis free.2⟩
    rw [(words original replacement isAllowed).2 c member] at outside
    contradiction

/-- The dashes behind an accessor, and that no key runs on behind them, are kept. -/
theorem dashes_output {before : Option Char} {row : Row}
    (placed : Placed (sectionPass pickers).allowed before row)
    (dashes : (row.original.takeWhile isKeyChar).all (· == '-') = true) :
    (row.output.takeWhile isKeyChar).all (· == '-') = true := by
  induction placed with
  | nil => rfl
  | @kept _ c rest _ inductionHypothesis =>
    change ((c :: rest.original).takeWhile isKeyChar).all (· == '-') = true at dashes
    change ((c :: rest.output).takeWhile isKeyChar).all (· == '-') = true
    rw [List.takeWhile_cons] at dashes ⊢
    split
    · next isKey =>
      rw [if_pos isKey, List.all_cons, Bool.and_eq_true] at dashes
      rw [List.all_cons, dashes.1, inductionHypothesis dashes.2]
      rfl
    · rfl
  | replaced _ isAllowed _ _ =>
    obtain ⟨key, ⟨-, written, rfl, -⟩, -⟩ := isAllowed
    change (('s' :: ("ection".toList ++ (".settings".toList ++ written) ++ _)).takeWhile
      isKeyChar).all (· == '-') = true at dashes
    rw [List.takeWhile_cons, if_pos (by decide), List.all_cons, Bool.and_eq_true] at dashes
    exact absurd dashes.1 (by decide)

/-- A key can be read wherever a character stands that starts one. -/
theorem exists_key?_of_start {first : Char} (start : isIdentifierStart first = true)
    (rest : List Char) : ∃ key after, key? (first :: rest) = some (key, after) := by
  have noDash : (first == '-') = false := by
    rw [beq_eq_false_iff_ne]
    rintro rfl
    exact absurd start (by decide)
  have isKey : isKeyChar first = true := by
    simp only [isIdentifierStart, Bool.or_eq_true] at start
    simp only [isKeyChar, isIdentifierChar, Char.isAlphanum, Bool.or_eq_true]
    exact .inl (start.imp .inl id)
  have undashed (tail : List Char) :
      ∃ more, ((first :: tail).reverse.dropWhile (· == '-')).reverse = first :: more := by
    rw [List.reverse_cons, List.dropWhile_append]
    split
    · exact ⟨[], by simp [noDash]⟩
    · exact ⟨(tail.reverse.dropWhile (· == '-')).reverse, by simp⟩
  obtain ⟨more, shape⟩ := undashed (rest.takeWhile isKeyChar)
  refine ⟨first :: more, (first :: rest).drop (first :: more).length, ?_⟩
  rw [key?, List.takeWhile_cons, if_pos isKey]
  simp only [shape, start, if_true]

/-- Where a key can start after the pass, a key or an accessor was written before. -/
theorem exists_start_of_output {before : Option Char} {row : Row}
    (placed : Placed (sectionPass pickers).allowed before row) {start : Char} {more : List Char}
    (text : row.output = start :: more) (isStart : isIdentifierStart start = true) :
    ∃ first rest, row.original = first :: rest ∧ isIdentifierStart first = true := by
  cases placed with
  | nil => exact absurd text.symm (List.cons_ne_nil _ _)
  | @kept _ c tail _ =>
    obtain ⟨rfl, -⟩ := List.cons.inj text
    exact ⟨c, tail.original, rfl, isStart⟩
  | replaced _ isAllowed _ =>
    obtain ⟨_, ⟨-, _, rfl, -⟩, -⟩ := isAllowed
    exact ⟨'s', _, rfl, by decide⟩

/-- Behind a character that starts no accessor the pass leaves none to start with it. -/
theorem accessorRule_output {before between : Option Char} {c : Char} {row : Row}
    (placed : Placed (sectionPass pickers).allowed (some c) row)
    (unquoted : '\'' ∉ row.original ∧ '"' ∉ row.original)
    (same : startsWord between = startsWord before)
    (unfit : accessorRule sectionObject before (c :: row.original) = none) :
    accessorRule sectionObject between (c :: row.output) = none := by
  have words : InsertsWords (sectionPass pickers).allowed := insertsWords_sectionPass
  rw [← Option.not_isSome_iff_eq_none, Option.isSome_iff_exists]
  rintro ⟨⟨key, after⟩, recognizes⟩
  obtain ⟨starts, original, split, grammar, written, rfl, writes⟩ :=
    exists_original_of_accessorRule recognizes
  have object : sectionObject = 's' :: "ection".toList := rfl
  rw [object] at split
  obtain ⟨rfl, text⟩ := List.cons.inj split
  have free : '\'' ∉ row.output ∧ '"' ∉ row.output :=
    ⟨not_mem_output words placed (by decide) unquoted.1,
      not_mem_output words placed (by decide) unquoted.2⟩
  cases writes with
  | bracketed isQuote _ _ =>
    rw [text] at free
    rcases isQuote with rfl | rfl <;> simp at free
  | dotted =>
    -- the object and `.settings.` are kept, as no inserted word begins them
    have parts : row.output = "ection".toList ++ (".".toList ++ ("settings".toList ++
        (".".toList ++ (key ++ after)))) := by
      rw [text]
      simp
    obtain ⟨first, rfl, firstText⟩ := Text.exists_plain_of_word (by decide) placed parts
      (List.all_eq_true.mp (by decide))
    have dot : ∀ c ∈ ".".toList, isWordChar c = false := by
      intro c member
      obtain rfl := List.mem_singleton.mp member
      decide
    have firstPlaced := placed.of_append
    obtain ⟨second, rfl, secondText⟩ := Text.exists_plain_of_output words firstPlaced firstText dot
    have secondPlaced := firstPlaced.of_append
    obtain ⟨third, rfl, thirdText⟩ := Text.exists_plain_of_unprefixed words secondPlaced secondText
      (List.all_eq_true.mp (by decide)) rfl
      (fun _ _ isAllowed => (not_prefix_of_flatName? isAllowed.choose_spec.2).2)
    have thirdPlaced := secondPlaced.of_append
    obtain ⟨fourth, rfl, fourthText⟩ := Text.exists_plain_of_output words thirdPlaced thirdText dot
    obtain ⟨start, more, rfl, startsKey⟩ := grammar.starts
    obtain ⟨first, rest, starting, isStart⟩ :=
      exists_start_of_output thirdPlaced.of_append fourthText startsKey
    obtain ⟨name, behind, found⟩ := exists_key?_of_start isStart rest
    have before : afterPrefix? (sectionObject ++ ".settings".toList) ('s' ::
        (Row.plain "ection".toList ++ (Row.plain ".".toList ++ (Row.plain "settings".toList ++
          (Row.plain ".".toList ++ fourth)))).original) = some ('.' :: first :: rest) := by
      simp only [Row.original_append, Row.original_plain, starting]
      rfl
    rw [accessorRule, ← same, if_pos starts, before] at unfit
    simp [found] at unfit

/-- Behind a key that is read, no key runs on behind dashes. -/
theorem dashes_of_key? {text key rest : List Char} (found : key? text = some (key, rest)) :
    (rest.takeWhile isKeyChar).all (· == '-') = true := by
  obtain ⟨grammar, rfl⟩ := isKey_of_key? found
  have inside : ∀ c ∈ key, isKeyChar c = true := List.all_eq_true.mp grammar.inside
  let run := (key ++ rest).takeWhile isKeyChar
  have same : (run.reverse.dropWhile (· == '-')).reverse = key := by
    unfold key? at found
    simp only at found
    split at found
    · split at found
      · exact (Prod.mk.inj (Option.some.inj found)).1
      · contradiction
    · contradiction
  have parts : run = key ++ (run.reverse.takeWhile (· == '-')).reverse := by
    have joined := List.takeWhile_append_dropWhile (p := (· == '-')) (l := run.reverse)
    have reversed := congrArg List.reverse joined
    rw [List.reverse_append, List.reverse_reverse, same] at reversed
    exact reversed.symm
  have whole : run = key ++ rest.takeWhile isKeyChar := List.takeWhile_append_of_pos inside
  rw [List.append_cancel_left (whole.symm.trans parts), List.all_reverse]
  exact List.all_takeWhile

theorem dashes_of_accessorRule {object key rest : List Char} {before : Option Char}
    (recognizes : accessorRule object before (accessorText object .dotted key ++ rest) =
      some (key, rest)) : (rest.takeWhile isKeyChar).all (· == '-') = true := by
  have beginning : afterPrefix? (object ++ ".settings".toList)
      (accessorText object .dotted key ++ rest) = some ('.' :: (key ++ rest)) := by
    rw [accessorText, List.append_assoc]
    exact Text.afterPrefix?_append _ _
  rw [accessorRule, beginning] at recognizes
  split at recognizes
  · exact dashes_of_key? recognizes
  · contradiction

/-- A key ends in a character of a word. -/
theorem IsKey.startsWord_getLast? {key : List Char} (grammar : IsKey key) (before : Option Char) :
    startsWord (key.getLast?.or before) = false := by
  obtain ⟨first, rest, rfl, -⟩ := grammar.starts
  have isLast := List.getLast?_eq_some_getLast (List.cons_ne_nil first rest)
  have noDash := grammar.ends
  have isKey := List.all_eq_true.mp grammar.inside _ (List.getLast_mem (List.cons_ne_nil first rest))
  rw [isLast] at noDash ⊢
  simp only [isKeyChar, Bool.or_eq_true, beq_iff_eq] at isKey
  have isWord := isWordChar_of_isIdentifierChar (isKey.resolve_right fun dash => noDash (by rw [dash]))
  simp [startsWord, isWord]

/-- Behind an accessor that is written with a dot no word starts. -/
theorem startsWord_accessorText {object key : List Char} (grammar : IsKey key)
    (before : Option Char) :
    startsWord ((accessorText object .dotted key).getLast?.or before) = false := by
  rw [accessorText, KeyForm.text, List.append_cons, List.getLast?_append, Option.or_assoc]
  exact grammar.startsWord_getLast? _

/-- Without quotes an accessor is written with a dot. -/
theorem IsAccessor.eq_dotted {object key original : List Char} (accessor : IsAccessor object key original)
    (unquoted : '\'' ∉ original ∧ '"' ∉ original) :
    original = accessorText object .dotted key := by
  obtain ⟨-, written, rfl, writes⟩ := accessor
  cases writes with
  | dotted => simp [accessorText, KeyForm.text]
  | bracketed isQuote _ _ => rcases isQuote with rfl | rfl <;> simp at unquoted

/-- Behind an inserted word no word starts. -/
theorem startsWord_inserted {original variableName : List Char}
    (isAllowed : (sectionPass pickers).allowed original variableName) (before : Option Char) :
    startsWord (variableName.getLast?.or before) = false := by
  obtain ⟨nonempty, inside⟩ := insertsWords_sectionPass original variableName isAllowed
  rw [List.getLast?_eq_some_getLast nonempty]
  simp [startsWord, inside _ (List.getLast_mem nonempty)]

/-- No accessor starts in an inserted word. -/
theorem findFrom_inserted {key variableName : List Char}
    (stands : pickers.flatName? sectionScope key = some variableName) (before : Option Char)
    (rest : List Char) :
    findFrom (accessorRule sectionObject) before 0 (variableName ++ rest) =
      findFrom (accessorRule sectionObject) (variableName.getLast?.or before) 0 rest := by
  have inScope : ∀ c ∈ sectionScope, isWordChar c = true := List.all_eq_true.mp (by decide)
  have inside := isWordChar_of_mem_flatName? inScope stands
  apply Text.findFrom_of_unfit
  intro front c back split
  rw [← Option.not_isSome_iff_eq_none, Option.isSome_iff_exists]
  rintro ⟨⟨other, after⟩, recognizes⟩
  obtain ⟨starts, _, text, -, written, rfl, -⟩ := exists_original_of_accessorRule recognizes
  rcases List.eq_nil_or_concat front with rfl | ⟨more, last, rfl⟩
  · -- at its start the word would have to begin the object
    rw [List.nil_append] at split
    have begins := Text.prefix_of_append_eq inside
      (show endsWord (".settings".toList ++ written ++ after) = true from rfl)
      (show variableName ++ rest = sectionObject ++ (".settings".toList ++ written ++ after) by
        rw [split, List.cons_append, text, List.append_assoc])
    exact (not_prefix_of_flatName? stands).1 begins
  · have isWord : isWordChar last = true := inside last (by rw [split]; simp)
    simp [startsWord, isWord] at starts

/-- An accessor in front of a pass is read as before: its key does not run on into what the pass
inserts. -/
theorem accessorRule_of_dotted {before between behind : Option Char} {key original after : List Char}
    {row : Row} (recognizes : accessorRule sectionObject before (original ++ after) = some (key, after))
    (dotted : original = accessorText sectionObject .dotted key) (grammar : IsKey key)
    (placed : Placed (sectionPass pickers).allowed behind row) (same : row.original = after)
    (starts : startsWord between = true) :
    accessorRule sectionObject between (original ++ row.output) = some (key, row.output) := by
  rw [dotted] at recognizes ⊢
  have ends : KeyForm.endsBefore .dotted row.output := by
    intro _
    apply dashes_output placed
    rw [same]
    exact dashes_of_accessorRule recognizes
  exact accessorRule_append sectionObject .dotted starts grammar ends

/-- The accessors of a flattened text are those of the text that have no variable, in their order. -/
theorem findFrom_output (before : Option Char) (text : List Char) :
    '\'' ∉ text ∧ '"' ∉ text → ∀ between, startsWord between = startsWord before →
      findFrom (accessorRule sectionObject) between 0
          (traceFrom (sectionPass pickers).traced before 0 text).output =
        (findFrom (accessorRule sectionObject) before 0 text).filter fun key =>
          (pickers.flatName? sectionScope key).isNone := by
  have placedFrom (before : Option Char) (text : List Char) :=
    Text.placed_traceFrom (sectionPass pickers).covers (sectionPass pickers).placed before text
  have originalFrom (before : Option Char) (text : List Char) :=
    Text.original_traceFrom (sectionPass pickers).covers before text
  induction before, text using Text.traceFrom_induction (sectionPass pickers).covers with
  | nil before =>
    intro _ between _
    rfl
  | kept before c rest unfit inductionHypothesis =>
    intro unquoted between same
    rw [List.mem_cons, not_or, List.mem_cons, not_or] at unquoted
    have unquotedRest : '\'' ∉ rest ∧ '"' ∉ rest := ⟨unquoted.1.2, unquoted.2.2⟩
    have unfitBefore : accessorRule sectionObject before (c :: rest) = none :=
      Option.map_eq_none_iff.mp unfit
    have row := originalFrom (some c) rest
    have unfitAfter := accessorRule_output (placedFrom (some c) rest) (by rw [row]; exact unquotedRest)
      same (by rw [row]; exact unfitBefore)
    rw [Row.output_cons, Part.output, List.singleton_append, Text.findFrom_of_none unfitAfter,
      Text.findFrom_of_none unfitBefore]
    exact inductionHypothesis unquotedRest (some c) rfl
  | fit before row rest nonempty answer inductionHypothesis =>
    intro unquoted between same
    rw [List.mem_append, not_or, List.mem_append, not_or] at unquoted
    have unquotedRest : '\'' ∉ rest ∧ '"' ∉ rest := ⟨unquoted.1.2, unquoted.2.2⟩
    obtain ⟨⟨key, after⟩, recognizes, shape⟩ := Option.map_eq_some_iff.mp answer
    obtain ⟨isRow, rfl⟩ := Prod.mk.inj shape
    obtain ⟨starts, original, split, accessor⟩ := exists_original_of_accessorRule recognizes
    obtain rfl : row.original = original := List.append_cancel_right split
    have dotted := accessor.eq_dotted ⟨unquoted.1.1, unquoted.2.1⟩
    have within : startsWord (row.original.getLast?.or before) = false := by
      rw [dotted]
      exact startsWord_accessorText accessor.1 before
    rw [recognized_append] at isRow
    rw [Row.output_append, Text.findFrom_of_fit nonempty recognizes]
    cases stands : pickers.flatName? sectionScope key with
    | some variableName =>
      -- the accessor gives way to its variable, in which none starts
      have output : row.output = variableName := by
        rw [stands] at isRow
        rw [← isRow]
        simp [Part.output]
      have withinWord := startsWord_inserted ⟨key, accessor, stands⟩ between
      rw [output, findFrom_inserted stands, List.filter_cons_of_neg (by simp [stands])]
      exact inductionHypothesis unquotedRest _ (withinWord.trans within.symm)
    | none =>
      -- the accessor stays, and its key does not run on
      have output : row.output = row.original := by
        rw [stands] at isRow
        have plain : Row.plain row.original = row := isRow
        have same := congrArg Row.output plain
        rw [Row.output_plain] at same
        exact same.symm
      have recognizesAfter := accessorRule_of_dotted recognizes dotted accessor.1
        (placedFrom (row.original.getLast?.or before) after) (originalFrom _ _) (same.trans starts)
      have last : row.original.getLast?.or between = row.original.getLast?.or before := by
        rw [List.getLast?_eq_some_getLast nonempty]
        rfl
      rw [output, Text.findFrom_of_fit nonempty recognizesAfter, last,
        List.filter_cons_of_pos (by simp [stands])]
      exact congrArg (key :: ·) (inductionHypothesis unquotedRest _ rfl)

end Flattened

/-- A template without quotes that is flattened is left as it is by flattening again. Its accessors are
those of the template that stay written, in their order: what is inserted makes no new one, and no
accessor that stays changes its key. -/
theorem flattenSettings_flattenSettings (pickers : Pickers) {template : List Char}
    (unquoted : '\'' ∉ template ∧ '"' ∉ template) :
    findAll (accessorRule sectionObject) (flattenSettings pickers template) =
        (findAll (accessorRule sectionObject) template).filter (staysWritten pickers) ∧
      flattenSettings pickers (flattenSettings pickers template) =
        flattenSettings pickers template := by
  have output : (traceFrom (sectionPass pickers).traced none 0 template).output =
      flattenSettings pickers template :=
    (traces_variableRule sectionObject sectionScope pickers).output_traceAll template
  have found : findAll (accessorRule sectionObject)
      (traceFrom (sectionPass pickers).traced none 0 template).output =
        (findAll (accessorRule sectionObject) template).filter fun key =>
          (pickers.flatName? sectionScope key).isNone :=
    findFrom_output none template unquoted none rfl
  rw [output] at found
  have same : (findAll (accessorRule sectionObject) template).filter (fun key =>
        (pickers.flatName? sectionScope key).isNone) =
      (findAll (accessorRule sectionObject) template).filter (staysWritten pickers) := by
    apply List.filter_congr
    intro key member
    obtain ⟨_, _, _, -, recognizes⟩ := Text.exists_fit_of_mem member
    obtain ⟨-, _, -, grammar, -⟩ := exists_original_of_accessorRule recognizes
    rw [Bool.eq_iff_iff, Option.isNone_iff_eq_none, flatName?_eq_none_iff sectionScope grammar]
  refine ⟨found.trans same, ?_⟩
  apply replaceFrom_of_unnamed none 0
  intro key member
  rw [← findAll, found] at member
  exact Option.isNone_iff_eq_none.mp (List.mem_filter.mp member).2

/-- A key that is too long takes the object of a second accessor with it. Both stay as they are. -/
theorem flattenSettings_flattenSettings_of_long :
    let key := List.replicate 65 'a' ++ "-section".toList
    let template := "section.settings.".toList ++ key ++ ".settings.title".toList
    ('\'' ∉ template ∧ '"' ∉ template) ∧
      flattenSettings .empty template = template ∧
      findAll (accessorRule sectionObject) (flattenSettings .empty template) = [key] ∧
      flattenSettings .empty (flattenSettings .empty template) = flattenSettings .empty template := by
  intro key template
  have unquoted : '\'' ∉ template ∧ '"' ∉ template := by decide +kernel
  obtain ⟨found, again⟩ := flattenSettings_flattenSettings .empty unquoted
  refine ⟨unquoted, by decide +kernel, found.trans (by decide +kernel), again⟩

end FlatLiquid
