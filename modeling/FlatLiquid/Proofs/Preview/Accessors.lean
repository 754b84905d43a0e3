import FlatLiquid.Proofs.Preview.Blocks
import FlatLiquid.Proofs.Schema.Declared
import FlatLiquid.Proofs.Template.SettingVariables

/-!
Contract: which declaration an accessor of a setting goes by.

Owns:
- the resource that a map of pickers holds for an id, from the declarations of the schema;
- the variable that stands for a setting, and what it means that a pass puts it in place of the
  accessors of a key;
- the accessors of a preview: those of the section in the template, those of a block in each copy.

A schema has one map for the section and for all its block types. So a setting of a block type can
take the accessor of a setting of the section, and the other way round.
-/

namespace FlatLiquid

open Text (isWordChar replaceAll replaceFrom)

/-! ## Pickers -/

/-- The resources that the settings under an id pick. -/
def picked (id : String) (settings : List Setting) : List Resource :=
  (settings.filter fun setting => setting.id == id).filterMap fun setting => setting.type.resource?

/-- The resource of the last setting under an id that picks one. -/
def lastPick? (id : String) (settings : List Setting) : Option Resource :=
  (picked id settings).getLast?

theorem lastPick?_append (id : String) (first second : List Setting) :
    lastPick? id (first ++ second) = (lastPick? id second).or (lastPick? id first) := by
  rw [lastPick?, picked, List.filter_append, List.filterMap_append, List.getLast?_append]
  rfl

theorem mem_picked {id : String} {settings : List Setting} {resource : Resource} :
    resource ∈ picked id settings ↔
      ∃ setting ∈ settings, setting.id = id ∧ setting.type.resource? = some resource := by
  simp only [picked, List.mem_filterMap, List.mem_filter, beq_iff_eq, and_assoc]

/-- If the settings under an id agree and there are some, what they agree on is the last pick. -/
theorem lastPick?_of_agree {id : String} {settings : List Setting} {declared : Option Resource}
    (there : ∃ setting ∈ settings, setting.id = id)
    (agree : ∀ setting ∈ settings, setting.id = id → setting.type.resource? = declared) :
    lastPick? id settings = declared := by
  unfold lastPick?
  cases last : (picked id settings).getLast? with
  | some resource =>
    obtain ⟨setting, member, own, picks⟩ := mem_picked.mp (List.mem_of_getLast? last)
    exact picks.symm.trans (agree setting member own)
  | none =>
    have nothing : picked id settings = [] := List.getLast?_eq_none_iff.mp last
    cases picks : declared with
    | none => rfl
    | some resource =>
      obtain ⟨setting, member, own⟩ := there
      have isPicked : resource ∈ picked id settings :=
        mem_picked.mpr ⟨setting, member, own, (agree setting member own).trans picks⟩
      rw [nothing] at isPicked
      exact absurd isPicked List.not_mem_nil

/-- The picker under an id is the last one of the block types, or else the last one of the section. -/
theorem get?_ofSchema {id : String} (named : id ≠ "") (schema : Schema) :
    (Pickers.ofSchema schema).get? id =
      (lastPick? id (schema.blocks.flatMap BlockType.settings)).or
        (lastPick? id schema.settings) := by
  have shape (setting : Setting) : setting.picker? = if setting.id.isEmpty then none
      else setting.type.resource?.map fun resource => (setting.id, resource) := rfl
  have last := get?_ofList_filterMap shape named
    (schema.settings ++ schema.blocks.flatMap BlockType.settings)
  exact last.trans (lastPick?_append id _ _)

/-! ## Variables -/

/-- The variable of a setting: the resource that it picks, or else its name in a space of names. -/
def settingVariable (resource? : Option Resource) (scope name : List Char) : List Char :=
  match resource? with
  | some resource => resource.name.toList
  | none => scopedName scope name

theorem underscore_not_mem_name (resource : Resource) : '_' ∉ resource.name.toList := by
  cases resource <;> decide

/-- The variable tells whether the setting picks a resource, and which. -/
theorem settingVariable_inj {left right : Option Resource} {scope name : List Char} :
    settingVariable left scope name = settingVariable right scope name ↔ left = right := by
  constructor
  · intro same
    have underscore : '_' ∈ scopedName scope name := by simp [scopedName]
    cases left with
    | none =>
      cases right with
      | none => rfl
      | some resource =>
        have named : scopedName scope name = resource.name.toList := same
        rw [named] at underscore
        exact absurd underscore (underscore_not_mem_name resource)
    | some resource =>
      cases right with
      | none =>
        have named : resource.name.toList = scopedName scope name := same
        rw [← named] at underscore
        exact absurd underscore (underscore_not_mem_name resource)
      | some other =>
        have names : resource.name.toList = other.name.toList := same
        cases resource <;> cases other <;> first | rfl | exact absurd names (by decide)
  · rintro rfl
    rfl

theorem flatName?_ofSchema {schema : Schema} {key : String} {name : List Char} (scope : List Char)
    (grammar : IsKey key.toList) (unreserved : Resource.ofName? key = none)
    (made : identifier? key.toList = some name) :
    (Pickers.ofSchema schema).flatName? scope key.toList =
      some (settingVariable ((lastPick? key (schema.blocks.flatMap BlockType.settings)).or
        (lastPick? key schema.settings)) scope name) := by
  have named : key ≠ "" := by
    rintro rfl
    obtain ⟨first, rest, shape, _⟩ := grammar.starts
    exact absurd shape (List.cons_ne_nil first rest).symm
  have target : (Pickers.ofSchema schema).target? key =
      (lastPick? key (schema.blocks.flatMap BlockType.settings)).or (lastPick? key schema.settings) := by
    rw [Pickers.target?, get?_ofSchema named, unreserved, Option.orElse_eq_or]
    exact Option.or_none
  rw [Pickers.flatName?, String.ofList_toList, target]
  cases (lastPick? key (schema.blocks.flatMap BlockType.settings)).or
      (lastPick? key schema.settings) with
  | some resource => rfl
  | none =>
    rw [made]
    rfl

/-! ## Resolved accessors -/

/-- The pass over the accessors of an object puts a variable in place of those of a key: wherever it
comes upon one, and in particular where one is written after a text that is apart from it. -/
structure ResolvesTo (pickers : Pickers) (object scope key variableName : List Char) : Prop where
  recognized : ∀ before text after, accessorRule object before text = some (key, after) →
    variableRule object scope pickers before text = some (variableName, after)
  written : ∀ (form : KeyForm) (before after : List Char), EndsApart before →
    form.endsBefore after →
    replaceAll (variableRule object scope pickers) (before ++ accessorText object form key ++ after) =
      replaceAll (variableRule object scope pickers) before ++ variableName ++
        replaceFrom (variableRule object scope pickers) (accessorText object form key).getLast? 0
          after

theorem resolvesTo_of_flatName? {pickers : Pickers} {object scope key variableName : List Char}
    (named : object ≠ []) (word : object.all isWordChar = true) (grammar : IsKey key)
    (stands : pickers.flatName? scope key = some variableName) :
    ResolvesTo pickers object scope key variableName where
  recognized := fun _ _ _ recognizes => variableRule_of_accessorRule recognizes stands
  written := fun form _ _ apart ends =>
    replaceAll_variableRule_accessor form named word apart grammar ends stands

/-- The passes over the copy of a body that come after the one over its accessors. -/
def remainingPasses (variableName : List Char) (index : Nat) (text : List Char) : List Char :=
  replaceAll (conditionRule index) (replaceAll (loopPropertyRule index)
    (replaceAll (blockFieldRule variableName (blockScope index)) text))

theorem copyFor_eq (variableName : List Char) (pickers : Pickers) (index : Nat) (text : List Char) :
    copyFor variableName pickers index text =
      remainingPasses variableName index
        (replaceAll (variableRule variableName (blockScope index) pickers) text) :=
  rfl

theorem word_of_mem_loopSpans {template : List Char} {span : LoopSpan}
    (member : span ∈ loopSpans template) :
    span.variableName ≠ [] ∧ span.variableName.all isWordChar = true := by
  obtain ⟨parts, ⟨_, opening, _, _, _, starts, _⟩, _⟩ := exists_covers_of_mem member
  exact Tag.word_of_blockLoopVariable? starts

/-- An accessor of the section goes by the setting of the section, unless a block type has a setting
under the same id that picks a resource: then it goes by the last such setting. An accessor of a
block goes by what the block types agree on if this is a resource, and otherwise by the last setting
of the section under the id that picks one, if there is one. So the other declarations do not matter
exactly if none of them picks another resource. -/
theorem compilePreview_accessors (template : List Char) (request : PreviewRequest)
    (options : PreviewOptions) (schema : Schema) (key : String)
    (read : (Schema.withDiagnostics template).1 = some schema) (grammar : IsKey key.toList)
    (short : key.toList.length ≤ identifierLimit) (unreserved : Resource.ofName? key = none) :
    let ofBlocks := schema.blocks.flatMap BlockType.settings
    let pickers := Pickers.ofSchema schema
    let cap := blockCap (some schema) options
    let body := stripSchema template
    let replaced := (loopSpans body).filter fun span => !span.iterates
    ∃ name statements, identifier? key.toList = some name ∧
      (compilePreview template request options).markup =
        List.intercalate ['\n'] (statements : List (List Char)) ++ '\n' ::
          wrapBody options.resolveClass (request.resolveSectionId options)
            (stripImageFilters (flattenBlockCount
              (replaceAll (variableRule sectionObject sectionScope pickers)
                (replaceSpans body (LoopSpan.copies body cap pickers) 0 replaced)))) ∧
      (∀ setting, schema.settings.filter (fun setting => setting.id == key) = [setting] →
        let variableName :=
          settingVariable ((lastPick? key ofBlocks).or setting.type.resource?) sectionScope name
        ResolvesTo pickers sectionObject sectionScope key.toList variableName ∧
          (variableName = settingVariable setting.type.resource? sectionScope name ↔
            ∀ other ∈ lastPick? key ofBlocks, setting.type.resource? = some other)) ∧
      ∀ span ∈ replaced,
        span.copies body cap pickers = List.intercalate ['\n'] ((List.range cap).map (fun index =>
            guarded (" > ".toList ++ Nat.toDigits 10 index) (remainingPasses span.variableName index
              (replaceAll (variableRule span.variableName (blockScope index) pickers)
                (body.extract span.bodyStart span.bodyStop)))) ++
          span.alternative.toList.map fun (start, stop) =>
            guarded " == 0".toList (body.extract start stop)) ∧
        ∀ resource? : Option Resource, (∃ setting ∈ ofBlocks, setting.id = key) →
          (∀ setting ∈ ofBlocks, setting.id = key → setting.type.resource? = resource?) →
          ∀ index,
            let variableName :=
              settingVariable (resource?.or (lastPick? key schema.settings)) (blockScope index) name
            ResolvesTo pickers span.variableName (blockScope index) key.toList variableName ∧
              (variableName = settingVariable resource? (blockScope index) name ↔
                resource?.isSome = true ∨ lastPick? key schema.settings = none) := by
  intro ofBlocks pickers cap body replaced
  obtain ⟨name, made⟩ := exists_identifier grammar short
  have stands (scope : List Char) :=
    @flatName?_ofSchema schema key name scope grammar unreserved made
  refine ⟨name, (previewStatements request.resources
    (selectSettings (some schema) request options).1
    (capBlocks cap (selectBlocks (some schema) request options).1).1).map Statement.render,
    made, ?_, ?_, ?_⟩
  · have markup := markup_compilePreview template request options
    simp only [read] at markup
    rw [markup, template_unroll]
    rfl
  · intro setting single variableName
    have own : lastPick? key schema.settings = setting.type.resource? := by
      rw [lastPick?, picked, single, List.filterMap_cons, List.filterMap_nil]
      cases setting.type.resource? <;> rfl
    constructor
    · apply resolvesTo_of_flatName? (by decide) (by decide) grammar
      rw [stands, own]
    · rw [settingVariable_inj]
      cases lastPick? key ofBlocks with
      | none => simp
      | some other => simp [eq_comm]
  · intro span member
    constructor
    · rw [LoopSpan.copies, loopCopies, Option.toList_map, List.map_map]
      simp only [copyFor_eq]
      rfl
    · intro resource? there agree index variableName
      have chosen : lastPick? key ofBlocks = resource? := lastPick?_of_agree there agree
      obtain ⟨named, word⟩ := word_of_mem_loopSpans (List.mem_filter.mp member).1
      constructor
      · apply resolvesTo_of_flatName? named word grammar
        rw [stands, chosen]
      · rw [settingVariable_inj]
        cases resource? with
        | some resource => simp
        | none => simp

/-- A product that a section picks stands for its accessor, also if a block type has a text under the
same id. -/
theorem compilePreview_accessors_of_product :
    let template := "\x7b\x7b section.settings.item \x7d\x7d\x7b% schema %\x7d\x7b\"name\":\"S\",".toList ++
      "\"settings\":[\x7b\"type\":\"product\",\"id\":\"item\"\x7d],\"blocks\":[".toList ++
      "\x7b\"type\":\"card\",\"settings\":[\x7b\"type\":\"text\",\"id\":\"item\"\x7d]\x7d]\x7d".toList ++
      "\x7b% endschema %\x7d".toList
    ∃ schema, (Schema.withDiagnostics template).1 = some schema ∧ IsKey "item".toList ∧
      Resource.ofName? "item" = none ∧
      ResolvesTo (Pickers.ofSchema schema) sectionObject sectionScope "item".toList
        "product".toList := by
  intro template
  have declared : (Schema.withDiagnostics template).1.map (fun schema =>
      ((schema.settings.filter fun setting => setting.id == "item").map Setting.type,
        lastPick? "item" (schema.blocks.flatMap BlockType.settings))) = some ([.product], none) := by
    decide +kernel
  obtain ⟨schema, read, parts⟩ := Option.map_eq_some_iff.mp declared
  obtain ⟨types, blocks⟩ := Prod.mk.inj parts
  obtain ⟨setting, single, type⟩ := List.map_eq_singleton_iff.mp types
  have grammar : IsKey "item".toList := ⟨⟨_, _, rfl, by decide⟩, by decide, by decide⟩
  have unreserved : Resource.ofName? "item" = none := by decide
  obtain ⟨name, statements, made, _, ofSection, _⟩ := compilePreview_accessors template .blank
    .default schema "item" read grammar (by decide) unreserved
  have resolved := (ofSection setting single).1
  rw [blocks, type] at resolved
  exact ⟨schema, read, grammar, unreserved, resolved⟩

/-- A setting of a block type takes the accessor of the section, and a setting of the section that of
a block: the section's text `item` and the block's text `pick` are not what is output. -/
theorem compilePreview_accessors_of_clash :
    let template := "\x7b\x7b section.settings.item \x7d\x7d".toList ++
      "\x7b% for b in section.blocks %\x7d\x7b\x7b b.settings.pick \x7d\x7d\x7b% endfor %\x7d".toList ++
      "\x7b% schema %\x7d\x7b\"name\":\"S\",\"settings\":[\x7b\"type\":\"text\",\"id\":\"item\"\x7d,".toList ++
      "\x7b\"type\":\"blog\",\"id\":\"pick\"\x7d],\"blocks\":[\x7b\"type\":\"card\",\"settings\":[".toList ++
      "\x7b\"type\":\"product\",\"id\":\"item\"\x7d,\x7b\"type\":\"text\",\"id\":\"pick\"\x7d]".toList ++
      "\x7d]\x7d\x7b% endschema %\x7d".toList
    let request := { PreviewRequest.blank with settings := some .empty, blocks := some [] }
    let options := { PreviewOptions.default with maxBlocks := 1 }
    (Schema.withDiagnostics template).1.map (fun schema =>
        (schema.settings.map fun setting => (setting.id, setting.type),
          (schema.blocks.flatMap BlockType.settings).map fun setting => (setting.id, setting.type))) =
      some ([("item", .text), ("pick", .blog)], [("item", .product), ("pick", .text)]) ∧
    (compilePreview template request options).markup =
      "\x7b% assign blocks_count = 0 %\x7d".toList ++ '\n' ::
        wrapBody "sectional-preview" "preview" ("\x7b\x7b product \x7d\x7d".toList ++
          "\x7b% if blocks_count > 0 %\x7d\x7b\x7b blog \x7d\x7d\x7b% endif %\x7d".toList) := by
  intro template request options
  have declared : (Schema.withDiagnostics template).1.map (fun schema =>
      ((schema.settings.map fun setting => (setting.id, setting.type),
        (schema.blocks.flatMap BlockType.settings).map fun setting => (setting.id, setting.type)),
        blockCap (some schema) options)) =
      some (([("item", .text), ("pick", .blog)], [("item", .product), ("pick", .text)]), 1) := by
    decide +kernel
  have body : (flattenTemplate 1 (((Schema.withDiagnostics template).1.map Pickers.ofSchema).getD
      .empty) template).1 = "\x7b\x7b product \x7d\x7d".toList ++
        "\x7b% if blocks_count > 0 %\x7d\x7b\x7b blog \x7d\x7d\x7b% endif %\x7d".toList := by
    decide +kernel
  obtain ⟨schema, read, parts⟩ := Option.map_eq_some_iff.mp declared
  obtain ⟨types, cap⟩ := Prod.mk.inj parts
  have statements : (previewStatements request.resources
      (selectSettings (some schema) request options).1
      (capBlocks 1 (selectBlocks (some schema) request options).1).1).map Statement.render =
        ["\x7b% assign blocks_count = 0 %\x7d".toList] := by
    change (previewStatements request.resources (selectSettings none request options).1
      (capBlocks 1 (selectBlocks none request options).1).1).map Statement.render = _
    decide +kernel
  have className : options.resolveClass = "sectional-preview" := by decide
  have sectionId : request.resolveSectionId options = "preview" := by decide
  have markup : (compilePreview template request options).markup = _ :=
    markup_compilePreview template request options
  simp only [read, cap] at markup
  rw [read] at body ⊢
  refine ⟨congrArg some types, ?_⟩
  rw [markup, statements, className, sectionId, ← body]
  rfl

end FlatLiquid
