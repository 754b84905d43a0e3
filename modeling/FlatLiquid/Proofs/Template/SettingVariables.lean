import FlatLiquid.Proofs.Statement.LastBinding
import FlatLiquid.Proofs.Template.Copies

/-!
Contract: a rewritten template reads the variables that the statements bind.

Owns:
- the variable of a key that picks no resource, as the two sides name it: the rewriter from the text
  of a template, the statements from the keys of the settings.

Keys of one settings map can share an identifier. The variable then holds the value of the last of
them that a variable can hold, which is not always the key that the template spells.
-/

namespace FlatLiquid

open Text (isWordChar)

/-- A key that is short enough becomes an identifier. -/
theorem exists_identifier {key : List Char} (grammar : IsKey key)
    (short : key.length ≤ identifierLimit) : ∃ name, identifier? key = some name := by
  obtain ⟨first, rest, rfl, start⟩ := grammar.starts
  rw [identifier?, start, Bool.true_and, if_pos (decide_eq_true short)]
  exact ⟨_, rfl⟩

/-- A variable ends up with the last of the values that compete for an identifier. -/
def EndsUpWith (variableName identifier : List Char) (settings : SettingValues)
    (statements : List Statement) : Prop :=
  ∃ value statement, (competingValues identifier settings.entries).getLast? = some value ∧
    Statement.ofValue? variableName value = some statement ∧
    lastBinding variableName statements = some statement

theorem endsUpWith_settingBindings {settings : SettingValues} {key : String} {value : SettingValue}
    {name : List Char} (held : settings.get? key = some value) (flat : value.isFlat = true)
    (made : identifier? key.toList = some name) :
    EndsUpWith (scopedName sectionScope name) name settings (settingBindings settings).statements := by
  obtain ⟨last, isLast, lastFlat⟩ := exists_last_competingValue held flat made
  obtain ⟨statement, bound, _⟩ :=
    Statement.ofValue?_of_isFlat (scopedName sectionScope name) lastFlat
  refine ⟨last, statement, isLast, bound, ?_⟩
  rw [settingBindings, lastBinding_scopedBindings, isLast]
  exact bound

theorem endsUpWith_blockBindings {blocks : List BlockInstance} {index : Nat} {block : BlockInstance}
    {key : String} {value : SettingValue} {name : List Char} (there : blocks[index]? = some block)
    (held : block.settings.get? key = some value) (flat : value.isFlat = true)
    (made : identifier? key.toList = some name) :
    EndsUpWith (scopedName (blockScope index) name) name block.settings
      (blockBindings blocks).statements := by
  obtain ⟨last, isLast, lastFlat⟩ := exists_last_competingValue held flat made
  obtain ⟨statement, bound, _⟩ :=
    Statement.ofValue?_of_isFlat (scopedName (blockScope index) name) lastFlat
  refine ⟨last, statement, isLast, bound, ?_⟩
  rw [lastBinding_blockBindings there isLast lastFlat]
  exact bound

/-- A key that is short enough and picks no resource has one identifier, under which both sides
know it. An accessor of the section's setting in an output tag gives way to the variable that the
section's statements bind. A loop that outputs the setting of each block gives way to copies, of
which the one for a block outputs the variable that the statements bind for this block. -/
theorem accessors_read_bound_variables {pickers : Pickers} {key : String}
    (grammar : IsKey key.toList) (short : key.toList.length ≤ identifierLimit)
    (free : pickers.target? key = none) :
    ∃ name, identifier? key.toList = some name ∧
      (∀ (settings : SettingValues) (value : SettingValue),
        settings.get? key = some value → value.isFlat = true →
        (∀ (form : KeyForm) (before opening after : List Char), IsOutputOpening opening →
          form.endsBefore after → (∀ c ∈ after.head?, isWordChar c = false) →
          flattenSettings pickers
              (before ++ opening ++ accessorText sectionObject form key.toList ++ after) =
            flattenSettings pickers before ++ opening ++ scopedName sectionScope name ++
              flattenSettings pickers after) ∧
        EndsUpWith (scopedName sectionScope name) name settings
          (settingBindings settings).statements) ∧
      (∀ (blocks : List BlockInstance) (count index : Nat) (block : BlockInstance)
          (value : SettingValue) (variableName : List Char) (form : KeyForm),
        blocks[index]? = some block → index < count →
        variableName ≠ [] → variableName.all isWordChar = true →
        block.settings.get? key = some value → value.isFlat = true →
        (∃ copies, copies.length = count ∧
          unroll count pickers (settingLoop variableName form key.toList) =
            ⟨List.intercalate ['\n'] copies, 1, 0⟩ ∧
          copies[index]? = some (guarded (" > ".toList ++ Nat.toDigits 10 index)
            (outputText (scopedName (blockScope index) name)))) ∧
        EndsUpWith (scopedName (blockScope index) name) name block.settings
          (blockBindings blocks).statements) := by
  obtain ⟨name, made⟩ := exists_identifier grammar short
  have noTarget : pickers.target? (String.ofList key.toList) = none := by
    rw [String.ofList_toList]
    exact free
  refine ⟨name, made, ?_, ?_⟩
  · intro settings value held flat
    refine ⟨?_, endsUpWith_settingBindings held flat made⟩
    intro form before opening after isOpening ends separate
    have word : ('s' :: "ection".toList).all isWordChar = true := by decide
    exact replaceAll_variableRule_outputTag sectionScope form before word isOpening grammar ends
      separate noTarget made
  · intro blocks count index block value variableName form there within named word held flat
    refine ⟨?_, endsUpWith_blockBindings there held flat made⟩
    refine ⟨(List.range count).map (settingCopy name), by simp,
      unroll_settingLoop form count named word grammar noTarget made, ?_⟩
    rw [List.getElem?_map, List.getElem?_range within]
    rfl

/-- Of the two keys that share the identifier, the template spells the first one and reads the value
of the second one. -/
theorem accessor_reads_bound_variable :
    let settings : SettingValues :=
      ⟨[("hero-title", .bool true), ("hero_title", .string "Hi")], by decide⟩
    let blocks : List BlockInstance := [⟨"a", "slide", .empty⟩, ⟨"b", "slide", settings⟩]
    flattenSettings .empty "\x7b\x7b section.settings['hero-title'] \x7d\x7d".toList =
        "\x7b\x7b settings_hero_title \x7d\x7d".toList ∧
      lastBinding "settings_hero_title".toList (settingBindings settings).statements =
        some (.ofText "settings_hero_title".toList "Hi".toList) ∧
      (unroll 2 .empty (settingLoop "slide".toList .dotted "hero-title".toList)).unrolled = 1 ∧
      lastBinding "block_1_hero_title".toList (blockBindings blocks).statements =
        some (.ofText "block_1_hero_title".toList "Hi".toList) := by
  intro settings blocks
  have grammar : IsKey "hero-title".toList := ⟨⟨_, _, rfl, by decide⟩, by decide, by decide⟩
  have free : Pickers.target? .empty "hero-title" = none := by decide
  obtain ⟨name, made, ofSection, ofBlocks⟩ :=
    accessors_read_bound_variables grammar (by decide) free
  obtain rfl : "hero_title".toList = name := Option.some.inj made
  obtain ⟨flattened, lastSetting⟩ := ofSection settings (.bool true) rfl rfl
  obtain ⟨⟨copies, _, unrolled, _⟩, lastBlock⟩ :=
    ofBlocks blocks 2 1 ⟨"b", "slide", settings⟩ (.bool true) "slide".toList .dotted rfl (by decide)
      (by decide) (by decide) rfl rfl
  have spelled := flattened (.bracketed .single) [] "\x7b\x7b ".toList " \x7d\x7d".toList
    ⟨[' '], rfl, by decide⟩ (fun dotted => nomatch dotted) (by rintro c ⟨⟩; decide)
  have nothing : flattenSettings .empty [] = [] := rfl
  have after : flattenSettings .empty " \x7d\x7d".toList = " \x7d\x7d".toList := by rfl
  obtain ⟨value, statement, isLast, bound, found⟩ := lastSetting
  obtain ⟨blockValue, blockStatement, isLastOfBlock, boundOfBlock, foundOfBlock⟩ := lastBlock
  obtain rfl : SettingValue.string "Hi" = value := Option.some.inj isLast
  obtain rfl : SettingValue.string "Hi" = blockValue := Option.some.inj isLastOfBlock
  rw [nothing, after] at spelled
  refine ⟨spelled, ?_, by rw [unrolled], ?_⟩
  · rw [← Option.some.inj bound] at found
    exact found
  · rw [← Option.some.inj boundOfBlock] at foundOfBlock
    exact foundOfBlock

end FlatLiquid
