import FlatLiquid.Preview.Compile
import FlatLiquid.Proofs.Statement.BlockFields
import FlatLiquid.Proofs.Template.Spans

/-!
Contract: the blocks of a preview, from the request to the copies.

Owns:
- the first statement that binds a variable of a block;
- the statements of a preview, and that none in front of those of the blocks binds a block's variable;
- the agreement of the rendered blocks, of their number and of the copies of each loop on one cap.

The cap is applied in two places, to the list of blocks and to the unroller. That both take the same
number is what gives each rendered block its copy.
-/

namespace FlatLiquid

/-! ## First bindings -/

/-- The first statement that binds a name. -/
def firstBinding (name : List Char) (statements : List Statement) : Option Statement :=
  statements.find? fun statement => statement.name == name

theorem firstBinding_append (name : List Char) (first second : List Statement) :
    firstBinding name (first ++ second) = (firstBinding name first).or (firstBinding name second) :=
  List.find?_append

theorem firstBinding_of_other {name : List Char} {statements : List Statement}
    (other : ∀ statement ∈ statements, statement.name ≠ name) :
    firstBinding name statements = none := by
  refine List.find?_eq_none.mpr fun statement member => ?_
  simpa using other statement member

/-- The fields of a block are the first to be bound in its space of names. -/
theorem firstBinding_blockBinding (index : Nat) (block : BlockInstance) (field : BlockField) :
    firstBinding (field.variableName index) (blockBinding index block).statements =
      some (field.statement index block) := by
  have parts : (blockBinding index block).statements =
      BlockField.id.statement index block :: BlockField.type.statement index block ::
        (scopedBindings (blockScope index) block.settings).statements := rfl
  rw [parts, firstBinding, List.find?_cons, List.find?_cons, BlockField.name_statement_beq,
    BlockField.name_statement_beq]
  cases field <;> rfl

/-- The fields that are bound are those of the blocks at hand, each under its block's index. -/
theorem firstBinding_blockBindingsFrom (start : Nat) (blocks : List BlockInstance) (index : Nat)
    (field : BlockField) :
    firstBinding (field.variableName (start + index)) (blockBindingsFrom start blocks).statements =
      blocks[index]?.map fun block => field.statement (start + index) block := by
  induction blocks generalizing start index with
  | nil => rfl
  | cons block rest inductionHypothesis =>
    rw [statements_blockBindingsFrom_cons, firstBinding_append]
    cases index with
    | zero =>
      rw [Nat.add_zero, firstBinding_blockBinding]
      rfl
    | succ index =>
      have shifted : start + (index + 1) = start + 1 + index := by omega
      have elsewhere : start ≠ start + 1 + index := by omega
      have own : firstBinding (field.variableName (start + 1 + index))
          (blockBinding start block).statements = none :=
        firstBinding_of_other fun statement bound =>
          name_ne_of_mem_blockBinding elsewhere bound field.name.toList
      rw [shifted, own, inductionHypothesis]
      rfl

theorem firstBinding_blockBindings (blocks : List BlockInstance) (index : Nat) (field : BlockField) :
    firstBinding (field.variableName index) (blockBindings blocks).statements =
      blocks[index]?.map (field.statement index) := by
  have count : firstBinding (field.variableName index)
      [.assign blockCountName (.count blocks.length)] = none :=
    firstBinding_of_other fun statement bound => name_ne_of_mem_count bound index field.name.toList
  have own := firstBinding_blockBindingsFrom 0 blocks index field
  rw [Nat.zero_add] at own
  rw [statements_blockBindings, firstBinding_append, count, Option.or_none, own]

/-! ## Statements in front of those of the blocks -/

/-- A resource is bound under its own name. -/
theorem name_of_mem_resourceBindings {context : ResourceContext} {statement : Statement}
    (bound : statement ∈ (resourceBindings context).statements) :
    ∃ resource : Resource, statement.name = resource.name.toList := by
  have single {resource : Resource} {collection : String} {handle : Option String}
      (bound : statement ∈ (resourceBinding resource collection handle).statements) :
      statement.name = resource.name.toList := by
    cases handle with
    | none => exact absurd bound List.not_mem_nil
    | some handle =>
      rw [resourceBinding] at bound
      split at bound
      · rw [List.mem_singleton.mp bound]
        rfl
      · exact absurd bound List.not_mem_nil
  rcases List.mem_append.mp bound with product | collection
  · exact ⟨_, single product⟩
  · exact ⟨_, single collection⟩

/-- Neither resources nor settings of the section are bound under a name of a block. -/
theorem name_ne_of_mem {context : ResourceContext} {settings : SettingValues} {statement : Statement}
    (bound : statement ∈ (resourceBindings context).statements ++
      (settingBindings settings).statements) (index : Nat) (name : List Char) :
    statement.name ≠ scopedName (blockScope index) name := by
  intro same
  rcases List.mem_append.mp bound with resource | setting
  · -- the names of resources hold no underscore
    obtain ⟨resource, named⟩ := name_of_mem_resourceBindings resource
    have underscore : '_' ∈ statement.name := by simp [same, scopedName]
    rw [named] at underscore
    exact absurd underscore (by cases resource <;> decide)
  · obtain ⟨own, named⟩ := name_of_mem_scopedBindings setting
    have heads := congrArg List.head? (named.symm.trans same)
    rw [scopedName_blockScope] at heads
    exact absurd (Option.some.inj heads) (by decide)

/-! ## Statements of a preview -/

/-- The statements of a preview, in their order. -/
def previewStatements (resources : ResourceContext) (settings : SettingValues)
    (blocks : List BlockInstance) : List Statement :=
  (resourceBindings resources).statements ++
    ((settingBindings settings).statements ++ (blockBindings blocks).statements)

section Statements

variable (resources : ResourceContext) (settings : SettingValues) (blocks : List BlockInstance)

theorem lastBinding_count_previewStatements :
    lastBinding blockCountName (previewStatements resources settings blocks) =
      some (.assign blockCountName (.count blocks.length)) := by
  rw [previewStatements, lastBinding_append, lastBinding_append, lastBinding_count]
  rfl

theorem firstBinding_previewStatements (index : Nat) (field : BlockField) :
    firstBinding (field.variableName index) (previewStatements resources settings blocks) =
      blocks[index]?.map (field.statement index) := by
  have front : firstBinding (field.variableName index)
      ((resourceBindings resources).statements ++ (settingBindings settings).statements) = none :=
    firstBinding_of_other fun statement bound => name_ne_of_mem bound index field.name.toList
  rw [previewStatements, ← List.append_assoc, firstBinding_append, front,
    firstBinding_blockBindings]
  rfl

end Statements

/-! ## The cap -/

/-- What is rendered are the first blocks, up to the cap. -/
theorem capBlocks_fst (cap : Nat) (blocks : List BlockInstance) :
    (capBlocks cap blocks).1 = blocks.take cap := by
  rw [capBlocks]
  split
  · rfl
  · next fits => exact (List.take_of_length_le (Nat.le_of_not_lt fits)).symm

theorem blocksTruncated_mem_capBlocks {cap supplied rendered : Nat} {blocks : List BlockInstance} :
    .blocksTruncated supplied rendered ∈ (capBlocks cap blocks).2 ↔
      cap < blocks.length ∧ supplied = blocks.length ∧ rendered = cap := by
  rw [capBlocks]
  split
  · next exceeds => simp [exceeds]
  · next fits => simp [fits]

/-! ## Diagnostics by their stage -/

section Diagnostics

variable {allowed : Diagnostic → Bool}

theorem Schema.all_withDiagnostics (template : List Char) (unnamed : allowed .unnamedSchema = true)
    (malformed : ∀ fault, allowed (.malformedSchema fault) = true) :
    (Schema.withDiagnostics template).2.all allowed = true := by
  rw [Schema.withDiagnostics]
  split
  · rw [Schema.diagnostics]
    split
    · simp [unnamed]
    · rfl
  · rfl
  · simp [malformed]

theorem all_withinLimit {α : Type} (kind : PayloadKind) (codec : Json.Codec α) (none : α)
    (limit : Nat) (value : α)
    (tooLarge : ∀ kind size limit, allowed (.payloadTooLarge kind size limit) = true) :
    (withinLimit kind codec none limit value).2.all allowed = true := by
  unfold withinLimit
  simp only
  split
  · simp [tooLarge]
  · rfl

theorem all_selectSettings (schema? : Option Schema) (request : PreviewRequest)
    (options : PreviewOptions)
    (tooLarge : ∀ kind size limit, allowed (.payloadTooLarge kind size limit) = true) :
    (selectSettings schema? request options).2.all allowed = true := by
  unfold selectSettings
  split
  · exact all_withinLimit _ _ _ _ _ tooLarge
  · rfl
  · rfl

theorem all_selectBlocks (schema? : Option Schema) (request : PreviewRequest)
    (options : PreviewOptions)
    (tooLarge : ∀ kind size limit, allowed (.payloadTooLarge kind size limit) = true) :
    (selectBlocks schema? request options).2.all allowed = true := by
  unfold selectBlocks
  split
  · exact all_withinLimit _ _ _ _ _ tooLarge
  · rfl
  · rfl

theorem all_capBlocks (cap : Nat) (blocks : List BlockInstance)
    (truncated : ∀ supplied rendered, allowed (.blocksTruncated supplied rendered) = true) :
    (capBlocks cap blocks).2.all allowed = true := by
  unfold capBlocks
  split
  · simp [truncated]
  · rfl

end Diagnostics

/-- The diagnostic is about something else than the number of blocks. -/
def Diagnostic.isOther : Diagnostic → Bool
  | .blocksTruncated _ _ => false
  | _ => true

theorem not_mem_of_isOther {notes : List Diagnostic} (other : notes.all Diagnostic.isOther = true)
    (supplied rendered : Nat) : .blocksTruncated supplied rendered ∉ notes := fun member =>
  absurd (List.all_eq_true.mp other _ member) Bool.false_ne_true

/-- Of all that is reported only the cap speaks of blocks that are left out. -/
theorem blocksTruncated_mem_compilePreview {template : List Char} {request : PreviewRequest}
    {options : PreviewOptions} {supplied rendered : Nat} :
    .blocksTruncated supplied rendered ∈ (compilePreview template request options).diagnostics ↔
      .blocksTruncated supplied rendered ∈
        (capBlocks (blockCap (Schema.withDiagnostics template).1 options)
          (selectBlocks (Schema.withDiagnostics template).1 request options).1).2 := by
  have fromSchema := not_mem_of_isOther (Schema.all_withDiagnostics template rfl fun _ => rfl)
    supplied rendered
  have fromSettings := not_mem_of_isOther
    (all_selectSettings (Schema.withDiagnostics template).1 request options fun _ _ _ => rfl)
    supplied rendered
  have fromBlocks := not_mem_of_isOther
    (all_selectBlocks (Schema.withDiagnostics template).1 request options fun _ _ _ => rfl)
    supplied rendered
  simp [compilePreview, fromSchema, fromSettings, fromBlocks]

theorem selectBlocks_fst (schema? : Option Schema) (request : PreviewRequest)
    (options : PreviewOptions) :
    (selectBlocks schema? request options).1 =
      match request.blocks with
      | some blocks =>
        if payloadSize blockInstancesCodec blocks ≤ options.maxPayloadBytes then blocks else []
      | none =>
        if options.usePresetBlocks then (schema?.map (Schema.presetBlocks · 0)).getD [] else [] := by
  unfold selectBlocks
  cases request.blocks with
  | some blocks =>
    unfold withinLimit
    by_cases exceeds : options.maxPayloadBytes < payloadSize blockInstancesCodec blocks
    · simp [exceeds, Nat.not_le_of_lt exceeds]
    · simp [exceeds, Nat.le_of_not_lt exceeds]
  | none => cases schema? <;> simp

/-! ## The blocks of a preview -/

/-- The markup of a preview: its statements, and the template after all passes in its container. -/
theorem markup_compilePreview (template : List Char) (request : PreviewRequest)
    (options : PreviewOptions) :
    let schema? := (Schema.withDiagnostics template).1
    let cap := blockCap schema? options
    let pickers := (schema?.map Pickers.ofSchema).getD .empty
    (compilePreview template request options).markup =
      List.intercalate ['\n'] ((previewStatements request.resources
          (selectSettings schema? request options).1
          (capBlocks cap (selectBlocks schema? request options).1).1).map Statement.render) ++
        '\n' :: wrapBody options.resolveClass (request.resolveSectionId options)
          (stripImageFilters (flattenBlockCount (flattenSettings pickers
            (unroll cap pickers (stripSchema template)).template))) :=
  rfl

/-- A preview whose request has blocks is about these if their JSON is within the limit, and about
none if it is not. A preview whose request has none is about those of the first preset, if the options
say so and there is a schema. The first of them up to the cap are rendered. Their fields are bound
under their indices and no others are, and the number of blocks is bound to how many they are. In the
template each loop that is unrolled gives way to one guarded copy for each index below the cap, so
every block that is rendered has its copy. That blocks are left out is reported exactly if they are. -/
theorem compilePreview_blocks (template : List Char) (request : PreviewRequest)
    (options : PreviewOptions) :
    let schema? := (Schema.withDiagnostics template).1
    let cap := match schema?.bind Schema.maxBlocks with
      | some cap => min cap options.maxBlocks
      | none => options.maxBlocks
    let selected := match request.blocks with
      | some blocks =>
        if payloadSize blockInstancesCodec blocks ≤ options.maxPayloadBytes then blocks else []
      | none =>
        if options.usePresetBlocks then (schema?.map (Schema.presetBlocks · 0)).getD []
        else []
    let pickers := (schema?.map Pickers.ofSchema).getD .empty
    let body := stripSchema template
    let replaced := (loopSpans body).filter fun span => !span.iterates
    let unrolled := replaceSpans body (LoopSpan.copies body cap pickers) 0 replaced
    let preview := compilePreview template request options
    ∃ statements : List Statement,
      preview.markup = List.intercalate ['\n'] (statements.map Statement.render) ++ '\n' ::
        wrapBody options.resolveClass (request.resolveSectionId options)
          (stripImageFilters (flattenBlockCount (flattenSettings pickers unrolled))) ∧
      lastBinding blockCountName statements =
        some (.assign blockCountName (.count (min selected.length cap))) ∧
      (∀ (index : Nat) (field : BlockField),
        firstBinding (field.variableName index) statements =
          (selected.take cap)[index]?.map (field.statement index)) ∧
      (∀ span ∈ replaced, ∃ copies,
        span.copies body cap pickers = List.intercalate ['\n'] (copies ++
            span.alternative.toList.map fun (start, stop) =>
              guarded " == 0".toList (body.extract start stop)) ∧
          copies.length = cap ∧
          ∀ index, index < cap → copies[index]? =
            some (guarded (" > ".toList ++ Nat.toDigits 10 index)
              (copyFor span.variableName pickers index
                (body.extract span.bodyStart span.bodyStop)))) ∧
      ∀ supplied rendered, .blocksTruncated supplied rendered ∈ preview.diagnostics ↔
        cap < selected.length ∧ supplied = selected.length ∧ rendered = cap := by
  intro schema? cap selected pickers body replaced unrolled preview
  have chosen : (selectBlocks schema? request options).1 = selected :=
    selectBlocks_fst schema? request options
  have sameCap : blockCap schema? options = cap := rfl
  refine ⟨previewStatements request.resources (selectSettings schema? request options).1
    (selected.take cap), ?_, ?_, ?_, ?_, ?_⟩
  · rw [markup_compilePreview, sameCap, capBlocks_fst, chosen, template_unroll]
  · rw [lastBinding_count_previewStatements, List.length_take, Nat.min_comm]
  · exact firstBinding_previewStatements _ _ _
  · intro span _
    refine ⟨(List.range cap).map (guardedCopy span.variableName pickers
      (body.extract span.bodyStart span.bodyStop)), ?_, by simp, fun index within => ?_⟩
    · rw [LoopSpan.copies, loopCopies, Option.toList_map, List.map_map]
      rfl
    · rw [List.getElem?_map, List.getElem?_range within]
      rfl
  · intro supplied rendered
    rw [blocksTruncated_mem_compilePreview, chosen]
    exact blocksTruncated_mem_capBlocks

/-- Blocks that are too large leave a preview without blocks, although the schema has a preset with
one and the options allow it. -/
theorem compilePreview_blocks_of_oversized :
    let preset := "\x7b\"name\":\"P\",\"blocks\":[\x7b\"type\":\"t\"\x7d]\x7d"
    let template := ("\x7b% schema %\x7d\x7b\"name\":\"S\",\"presets\":[" ++ preset ++
      "]\x7d\x7b% endschema %\x7d").toList
    let blocks : List BlockInstance := [⟨"a", "t", .empty⟩]
    let request : PreviewRequest := ⟨some .empty, some blocks, .empty, none⟩
    let options : PreviewOptions := { PreviewOptions.default with maxPayloadBytes := 2 }
    options.maxPayloadBytes < payloadSize blockInstancesCodec blocks ∧
      options.usePresetBlocks = true ∧
      ((Schema.withDiagnostics template).1.map fun schema : Schema =>
        min (schema.presetBlocks 0).length (blockCap schema options)) = some 1 ∧
      (compilePreview template request options).markup =
        (Statement.assign blockCountName (.count 0)).render ++
          '\n' :: wrapBody defaultContainerClass defaultSectionId [] := by
  intro preset template blocks request options
  have tooLarge : options.maxPayloadBytes < payloadSize blockInstancesCodec blocks := by decide +kernel
  have chosen (schema? : Option Schema) : (selectBlocks schema? request options).1 = [] :=
    (selectBlocks_fst schema? request options).trans (if_neg (Nat.not_le_of_lt tooLarge))
  have settings (schema? : Option Schema) :
      (selectSettings schema? request options).1 = OrderedMap.empty := by
    have size : ¬ options.maxPayloadBytes < payloadSize settingValuesCodec .empty := by
      decide +kernel
    cases schema? <;> simp [selectSettings, request, withinLimit, size]
  have statements : previewStatements .empty .empty [] = [.assign blockCountName (.count 0)] := rfl
  have stripped : stripSchema template = [] := by decide +kernel
  have empty : HoldsNoOpening [] := by
    unfold HoldsNoOpening
    decide
  have flat (pickers : Pickers) :
      stripImageFilters (flattenBlockCount (flattenSettings pickers [])) = [] := rfl
  have className : options.resolveClass = defaultContainerClass := by decide +kernel
  have sectionId : request.resolveSectionId options = defaultSectionId := by decide +kernel
  refine ⟨tooLarge, rfl, by decide +kernel, ?_⟩
  rw [markup_compilePreview, capBlocks_fst, chosen, settings, stripped,
    unroll_of_holdsNoOpening empty, flat, className, sectionId, List.take_nil, statements]
  rfl

end FlatLiquid
