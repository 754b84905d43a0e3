import FlatLiquid.Proofs.Preview.Blocks

/-!
Contract: what becomes of each thing that a preview is given.

Owns:
- the handles, entries and fields of a preview, in the order in which they are dealt with;
- the one statement or the one diagnostic of each;
- the statements and the diagnostics of a preview as those of its items;
- the values that have neither.

A key is tested before its value. So a value that no variable holds is missed in silence exactly if
its key passes: then there is no key to reject and no statement to write.
-/

namespace FlatLiquid

/-! ## Items -/

/-- What a preview has to deal with: a handle of a resource, an entry of settings in a space of names,
a field of a block, and the number of blocks. -/
inductive PreviewItem where
  | suppliedHandle (resource : Resource) (collection handle : String)
  | setting (scope : List Char) (key : String) (value : SettingValue)
  | blockField (index : Nat) (block : BlockInstance) (field : BlockField)
  | blockCount (blocks : Nat)

namespace PreviewItem

/-- The statement that an item has in the markup. -/
def statement? : PreviewItem → Option Statement
  | .suppliedHandle resource collection handle =>
    if isHandle handle.toList then
      some (.lookup resource.name.toList collection.toList handle.toList)
    else none
  | .setting scope key value =>
    (identifier? key.toList).bind fun name => Statement.ofValue? (scopedName scope name) value
  | .blockField index block field => some (field.statement index block)
  | .blockCount blocks => some (.assign blockCountName (.count blocks))

/-- The diagnostic that names an item. -/
def diagnostic? : PreviewItem → Option Diagnostic
  | .suppliedHandle _ _ handle => if isHandle handle.toList then none else some (.invalidHandle handle)
  | .setting _ key _ =>
    if (identifier? key.toList).isSome then none else some (.invalidIdentifier key)
  | .blockField _ _ _ => none
  | .blockCount _ => none

/-- The item has a statement, or else a diagnostic, and not both. -/
def IsAccounted (item : PreviewItem) : Prop :=
  (item.statement?.isSome = true ∧ item.diagnostic? = none) ∨
    (item.statement? = none ∧ item.diagnostic?.isSome = true)

/-- The item is an entry whose key becomes an identifier and whose value no variable holds. -/
def IsSilent : PreviewItem → Prop
  | .setting _ key value => (identifier? key.toList).isSome = true ∧ value.isFlat = false
  | _ => False

/-- An item is accounted for, unless it has neither a statement nor a diagnostic. -/
theorem isAccounted_iff (item : PreviewItem) : item.IsAccounted ↔ ¬ item.IsSilent := by
  unfold IsAccounted
  cases item with
  | suppliedHandle resource collection handle =>
    cases valid : isHandle handle.toList with
    | true => simp [statement?, diagnostic?, IsSilent, valid]
    | false => simp [statement?, diagnostic?, IsSilent, valid]
  | blockField index block field => simp [statement?, diagnostic?, IsSilent]
  | blockCount blocks => simp [statement?, diagnostic?, IsSilent]
  | setting scope key value =>
    cases made : identifier? key.toList with
    | none => simp [statement?, diagnostic?, IsSilent, made]
    | some name =>
      cases flat : value.isFlat with
      | true =>
        obtain ⟨statement, bound, _⟩ := Statement.ofValue?_of_isFlat (scopedName scope name) flat
        simp [statement?, diagnostic?, IsSilent, made, bound, flat]
      | false =>
        have unbound := Statement.ofValue?_of_not_isFlat (scopedName scope name) flat
        simp [statement?, diagnostic?, IsSilent, made, unbound, flat]

theorem neither_of_isSilent (item : PreviewItem) (silent : item.IsSilent) :
    item.statement? = none ∧ item.diagnostic? = none := by
  cases item with
  | setting scope key value =>
    obtain ⟨name, made⟩ := Option.isSome_iff_exists.mp silent.1
    have unbound := Statement.ofValue?_of_not_isFlat (scopedName scope name) silent.2
    constructor
    · simp [statement?, made, unbound]
    · simp [diagnostic?, made]
  | suppliedHandle _ _ _ => exact silent.elim
  | blockField _ _ _ => exact silent.elim
  | blockCount _ => exact silent.elim

end PreviewItem

open PreviewItem (statement? diagnostic?)

/-! ## The items of a preview -/

/-- The handles that are supplied. -/
def handleItems (resources : ResourceContext) : List PreviewItem :=
  (resources.product.map (.suppliedHandle .product "all_products")).toList ++
    (resources.collection.map (.suppliedHandle .collection "collections")).toList

/-- The entries of settings in a space of names. -/
def settingItems (scope : List Char) (settings : SettingValues) : List PreviewItem :=
  settings.entries.map fun (key, value) => .setting scope key value

/-- The fields of a block, and its entries in its own space of names. -/
def blockItems (index : Nat) (block : BlockInstance) : List PreviewItem :=
  .blockField index block .id :: .blockField index block .type ::
    settingItems (blockScope index) block.settings

/-- What a preview deals with, in this order. -/
def previewItems (resources : ResourceContext) (settings : SettingValues)
    (blocks : List BlockInstance) : List PreviewItem :=
  handleItems resources ++ (settingItems sectionScope settings ++
    (blocks.zipIdx.flatMap (fun (block, index) => blockItems index block) ++ [.blockCount blocks.length]))

/-- The bindings are those of the items: their statements in order, and a diagnostic for each of
the rest that has one. -/
structure Bindings.Account (bindings : Bindings) (rejection : String → Diagnostic)
    (items : List PreviewItem) : Prop where
  statements : bindings.statements = items.filterMap statement?
  diagnostics : bindings.rejected.map rejection = items.filterMap diagnostic?

section Account

variable {rejection : String → Diagnostic}

theorem Bindings.account_empty : Bindings.empty.Account rejection [] := ⟨rfl, rfl⟩

theorem Bindings.Account.append {first second : Bindings} {items more : List PreviewItem}
    (account : first.Account rejection items) (next : second.Account rejection more) :
    (first ++ second).Account rejection (items ++ more) where
  statements := by
    rw [List.filterMap_append, ← account.statements, ← next.statements]
    rfl
  diagnostics := by
    rw [List.filterMap_append, ← account.diagnostics, ← next.diagnostics]
    exact List.map_append

/-- A handle that is supplied is bound or rejected. -/
theorem account_resourceBinding (resource : Resource) (collection : String)
    (handle? : Option String) :
    (resourceBinding resource collection handle?).Account .invalidHandle
      (handle?.map (.suppliedHandle resource collection)).toList := by
  cases handle? with
  | none => exact Bindings.account_empty
  | some handle =>
    unfold resourceBinding
    by_cases valid : isHandle handle.toList = true
    · constructor
      · simp [statement?, valid]
      · simp [diagnostic?, valid]
    · constructor
      · simp [statement?, valid]
      · simp [diagnostic?, valid]

theorem account_resourceBindings (resources : ResourceContext) :
    (resourceBindings resources).Account .invalidHandle (handleItems resources) :=
  (account_resourceBinding _ _ _).append (account_resourceBinding _ _ _)

theorem account_settingBinding (scope : List Char) (key : String) (value : SettingValue) :
    (settingBinding scope (key, value)).Account .invalidIdentifier [.setting scope key value] := by
  unfold settingBinding
  cases made : identifier? key.toList with
  | none =>
    constructor
    · simp [statement?, made]
    · simp [diagnostic?, made]
  | some name =>
    constructor
    · cases bound : Statement.ofValue? (scopedName scope name) value with
      | none => simp [statement?, made, bound]
      | some statement => simp [statement?, made, bound]
    · simp [diagnostic?, made]

theorem account_scopedBindings (scope : List Char) (settings : SettingValues) :
    (scopedBindings scope settings).Account .invalidIdentifier (settingItems scope settings) := by
  unfold scopedBindings settingItems
  induction settings.entries with
  | nil => exact Bindings.account_empty
  | cons entry rest inductionHypothesis =>
    exact (account_settingBinding scope entry.1 entry.2).append inductionHypothesis

theorem account_blockBinding (index : Nat) (block : BlockInstance) :
    (blockBinding index block).Account .invalidIdentifier (blockItems index block) := by
  have fields : Bindings.Account
      ⟨[BlockField.id.statement index block, BlockField.type.statement index block], []⟩
      .invalidIdentifier [.blockField index block .id, .blockField index block .type] := ⟨rfl, rfl⟩
  exact fields.append (account_scopedBindings (blockScope index) block.settings)

theorem account_blockBindingsFrom (start : Nat) (blocks : List BlockInstance) :
    (blockBindingsFrom start blocks).Account .invalidIdentifier
      ((blocks.zipIdx start).flatMap fun (block, index) => blockItems index block) := by
  induction blocks generalizing start with
  | nil => exact Bindings.account_empty
  | cons block rest inductionHypothesis =>
    rw [List.zipIdx_cons, List.flatMap_cons]
    exact (account_blockBinding start block).append (inductionHypothesis (start + 1))

theorem account_blockBindings (blocks : List BlockInstance) :
    (blockBindings blocks).Account .invalidIdentifier
      (blocks.zipIdx.flatMap (fun (block, index) => blockItems index block) ++
        [.blockCount blocks.length]) := by
  have count : Bindings.Account ⟨[.assign blockCountName (.count blocks.length)], []⟩
      .invalidIdentifier [.blockCount blocks.length] := ⟨rfl, rfl⟩
  exact (account_blockBindingsFrom 0 blocks).append count

end Account

/-! ## Silent items -/

theorem not_isSilent_setting (scope : List Char) (key : String) (value : SettingValue) :
    ¬ (PreviewItem.setting scope key value).IsSilent ↔
      (value.isFlat = true ∨ identifier? key.toList = none) := by
  unfold PreviewItem.IsSilent
  cases made : identifier? key.toList with
  | none => simp [made]
  | some name => simp [made]

theorem not_isSilent_settingItems (scope : List Char) (settings : SettingValues) :
    (∀ item ∈ settingItems scope settings, ¬ item.IsSilent) ↔
      ∀ entry ∈ settings.entries, entry.2.isFlat = true ∨ identifier? entry.1.toList = none := by
  unfold settingItems
  rw [List.forall_mem_map]
  constructor
  · exact fun loud entry member => (not_isSilent_setting scope entry.1 entry.2).mp (loud entry member)
  · exact fun flat entry member => (not_isSilent_setting scope entry.1 entry.2).mpr (flat entry member)

/-- Only the entries of the settings and of the blocks can be silent. -/
theorem not_isSilent_previewItems (resources : ResourceContext) (settings : SettingValues)
    (blocks : List BlockInstance) :
    (∀ item ∈ previewItems resources settings blocks, ¬ item.IsSilent) ↔
      ∀ entry ∈ settings.entries ++ blocks.flatMap fun block => block.settings.entries,
        entry.2.isFlat = true ∨ identifier? entry.1.toList = none := by
  have handles : ∀ item ∈ handleItems resources, ¬ item.IsSilent := by
    intro item member
    rcases List.mem_append.mp member with product | collection
    · obtain ⟨handle, _, rfl⟩ := Option.map_eq_some_iff.mp (Option.mem_toList.mp product)
      exact id
    · obtain ⟨handle, _, rfl⟩ := Option.map_eq_some_iff.mp (Option.mem_toList.mp collection)
      exact id
  have ofBlock (index : Nat) (block : BlockInstance) :
      (∀ item ∈ blockItems index block, ¬ item.IsSilent) ↔
        ∀ entry ∈ block.settings.entries,
          entry.2.isFlat = true ∨ identifier? entry.1.toList = none := by
    unfold blockItems
    rw [List.forall_mem_cons, List.forall_mem_cons, not_isSilent_settingItems]
    exact ⟨fun all => all.2.2, fun entries => ⟨id, id, entries⟩⟩
  have ofBlocks (start : Nat) :
      (∀ item ∈ (blocks.zipIdx start).flatMap (fun (block, index) => blockItems index block),
          ¬ item.IsSilent) ↔
        ∀ entry ∈ blocks.flatMap fun block => block.settings.entries,
          entry.2.isFlat = true ∨ identifier? entry.1.toList = none := by
    induction blocks generalizing start with
    | nil => simp
    | cons block rest inductionHypothesis =>
      rw [List.zipIdx_cons, List.flatMap_cons, List.flatMap_cons, List.forall_mem_append,
        List.forall_mem_append, ofBlock, inductionHypothesis]
  unfold previewItems
  rw [List.forall_mem_append, List.forall_mem_append, List.forall_mem_append,
    List.forall_mem_append, not_isSilent_settingItems, ofBlocks]
  constructor
  · exact fun all => ⟨all.2.1, all.2.2.1⟩
  · refine fun entries => ⟨handles, entries.1, entries.2, ?_⟩
    intro item member
    obtain rfl := List.mem_singleton.mp member
    exact id

/-! ## The account of a preview -/

/-- The diagnostic names a key or a handle that was rejected. -/
def Diagnostic.isRejection : Diagnostic → Bool
  | .invalidIdentifier _ => true
  | .invalidHandle _ => true
  | _ => false

/-- What a preview reports before it comes to its items. -/
theorem diagnostics_compilePreview (template : List Char) (request : PreviewRequest)
    (options : PreviewOptions) :
    let schema? := (Schema.withDiagnostics template).1
    let settings := (selectSettings schema? request options).1
    let blocks := (capBlocks (blockCap schema? options) (selectBlocks schema? request options).1).1
    ∃ notes, (compilePreview template request options).diagnostics =
        notes ++ (previewItems request.resources settings blocks).filterMap diagnostic? ∧
      notes.all (fun note => !note.isRejection) = true := by
  intro schema? settings blocks
  have resources := (account_resourceBindings request.resources).diagnostics
  have values := ((account_scopedBindings sectionScope settings).append
    (account_blockBindings blocks)).diagnostics
  let nested := (unroll (blockCap schema? options) ((schema?.map Pickers.ofSchema).getD .empty)
    (stripSchema template)).nested
  let notes := (Schema.withDiagnostics template).2 ++ (selectSettings schema? request options).2 ++
    (selectBlocks schema? request options).2 ++
    (capBlocks (blockCap schema? options) (selectBlocks schema? request options).1).2 ++
    List.replicate nested .nestedLoop
  refine ⟨notes, ?_, ?_⟩
  · have parts : (compilePreview template request options).diagnostics =
        notes ++ (resourceBindings request.resources).rejected.map .invalidHandle ++
          (scopedBindings sectionScope settings ++ blockBindings blocks).rejected.map
            .invalidIdentifier := rfl
    rw [parts, resources, values, List.append_assoc, ← List.filterMap_append]
    rfl
  · have fromSchema : (Schema.withDiagnostics template).2.all (fun note => !note.isRejection) =
        true := Schema.all_withDiagnostics template rfl fun _ => rfl
    have fromSettings : (selectSettings schema? request options).2.all
        (fun note => !note.isRejection) = true := all_selectSettings _ _ _ fun _ _ _ => rfl
    have fromBlocks : (selectBlocks schema? request options).2.all
        (fun note => !note.isRejection) = true := all_selectBlocks _ _ _ fun _ _ _ => rfl
    have fromCap : (capBlocks (blockCap schema? options)
        (selectBlocks schema? request options).1).2.all (fun note => !note.isRejection) = true :=
      all_capBlocks _ _ fun _ _ => rfl
    have fromLoops : (List.replicate nested Diagnostic.nestedLoop).all
        (fun note => !note.isRejection) = true := by
      apply List.all_eq_true.mpr
      intro note member
      rw [List.eq_of_mem_replicate member]
      rfl
    rw [List.all_append, List.all_append, List.all_append, List.all_append, fromSchema,
      fromSettings, fromBlocks, fromCap, fromLoops]
    rfl

/-- Every statement in front of the container of a preview is that of an item, and every diagnostic
that names a key or a handle is that of an item, in the order of the items: the handles that are
supplied, the entries of the settings that are selected, and for each block that is rendered its
fields and its entries. An item has one statement or one diagnostic, unless it is an entry whose key
becomes an identifier and whose value no variable holds: that has neither. So nothing is left out in
silence exactly if there is no such entry. -/
theorem compilePreview_accounts_iff (template : List Char) (request : PreviewRequest)
    (options : PreviewOptions) :
    let schema? := (Schema.withDiagnostics template).1
    let cap := blockCap schema? options
    let pickers := (schema?.map Pickers.ofSchema).getD .empty
    let settings := (selectSettings schema? request options).1
    let blocks := (capBlocks cap (selectBlocks schema? request options).1).1
    let items := previewItems request.resources settings blocks
    let preview := compilePreview template request options
    preview.markup =
        List.intercalate ['\n'] ((items.filterMap statement?).map Statement.render) ++ '\n' ::
          wrapBody options.resolveClass (request.resolveSectionId options)
            (flattenTemplate cap pickers template).1 ∧
      (∃ notes, preview.diagnostics = notes ++ items.filterMap diagnostic? ∧
        notes.all (fun note => !note.isRejection) = true) ∧
      (∀ item ∈ items, item.IsAccounted ∨
        (item.IsSilent ∧ item.statement? = none ∧ item.diagnostic? = none)) ∧
      ((∀ item ∈ items, item.IsAccounted) ↔
        ∀ entry ∈ settings.entries ++ blocks.flatMap fun block => block.settings.entries,
          entry.2.isFlat = true ∨ identifier? entry.1.toList = none) := by
  intro schema? cap pickers settings blocks items preview
  have resources := (account_resourceBindings request.resources).statements
  have values := ((account_scopedBindings sectionScope settings).append
    (account_blockBindings blocks)).statements
  refine ⟨?_, diagnostics_compilePreview template request options, ?_, ?_⟩
  · have statements : previewStatements request.resources settings blocks =
        items.filterMap statement? := by
      change (resourceBindings request.resources).statements ++
        (scopedBindings sectionScope settings ++ blockBindings blocks).statements = _
      rw [resources, values, ← List.filterMap_append]
      rfl
    rw [← statements]
    exact markup_compilePreview template request options
  · intro item member
    by_cases silent : item.IsSilent
    · exact .inr ⟨silent, item.neither_of_isSilent silent⟩
    · exact .inl (item.isAccounted_iff.mpr silent)
  · rw [← not_isSilent_previewItems]
    constructor
    · exact fun all item member => item.isAccounted_iff.mp (all item member)
    · exact fun loud item member => item.isAccounted_iff.mpr (loud item member)

/-- An array under a key that becomes an identifier leaves no trace: the markup is the one without
the entry, and there is no diagnostic. -/
theorem compilePreview_silent_of_array :
    let settings : SettingValues := ⟨[("items", .unsupported (.array []))], by decide⟩
    let request : PreviewRequest := ⟨some settings, some [], .empty, none⟩
    let preview := compilePreview [] request .default
    (selectSettings (Schema.withDiagnostics []).1 request .default).1 = settings ∧
      preview.diagnostics = [] ∧
      preview.markup = (compilePreview [] { request with settings := some .empty } .default).markup :=
    by
  intro settings request preview
  have fits : payloadSize settingValuesCodec settings ≤ PreviewOptions.default.maxPayloadBytes := by
    decide +kernel
  refine ⟨?_, ?_, ?_⟩
  · change (withinLimit _ _ _ _ settings).1 = settings
    unfold withinLimit
    simp only [Nat.not_lt_of_le fits, if_false]
  · decide +kernel
  · decide +kernel

end FlatLiquid
