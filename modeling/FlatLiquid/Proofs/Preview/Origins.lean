import FlatLiquid.Proofs.Preview.Accounting
import Mathlib.Data.List.Pairwise

/-!
Contract: no two spaces of names in a preview share a variable.

Owns:
- the word that a variable begins with, which tells resources, settings, blocks and their number apart;
- the items of a preview in parts, one for each of these words;
- the items that can bind one variable: those of the section's settings, and those of one block.

The word ends at the first underscore, so that no key can reach into it. Only among blocks, which have
one word in common, does the index have to be read as well.
-/

namespace FlatLiquid

/-! ## Leading words -/

/-- What stands in a name in front of its first underscore. -/
def leadingWord (name : List Char) : List Char :=
  name.takeWhile (· != '_')

/-- The word of the variables of a block. -/
def blockWord : List Char := "block".toList

/-- The word of the variable that holds the number of blocks. -/
def blockCountWord : List Char := "blocks".toList

theorem leadingWord_resource (resource : Resource) :
    leadingWord resource.name.toList = resource.name.toList := by
  cases resource <;> rfl

theorem leadingWord_scopedName_sectionScope (name : List Char) :
    leadingWord (scopedName sectionScope name) = sectionScope := rfl

theorem leadingWord_scopedName_blockScope (index : Nat) (name : List Char) :
    leadingWord (scopedName (blockScope index) name) = blockWord := rfl

theorem leadingWord_blockCountName : leadingWord blockCountName = blockCountWord := rfl

/-- Variables of the section, of a block, of the number of blocks and of the two resources are
different, whatever the keys are. -/
theorem nodup_variableNames (index : Nat) (inSection inBlock : List Char) :
    [scopedName sectionScope inSection, scopedName (blockScope index) inBlock, blockCountName,
      Resource.product.name.toList, Resource.collection.name.toList].Nodup := by
  have words : [sectionScope, blockWord, blockCountWord, Resource.product.name.toList,
      Resource.collection.name.toList].Nodup := by decide
  exact List.Nodup.of_map leadingWord words

theorem scopedName_blockScope_eq_iff {i j : Nat} {left right : List Char} :
    scopedName (blockScope i) left = scopedName (blockScope j) right ↔ i = j ∧ left = right := by
  constructor
  · exact scopedName_blockScope_injective
  · intro ⟨index, name⟩
    rw [index, name]

/-! ## Variables of items -/

namespace PreviewItem

/-- The variable that an item binds. -/
def boundName? (item : PreviewItem) : Option (List Char) :=
  item.statement?.map Statement.name

/-- All that an item binds begins with a word. -/
def HasWord (item : PreviewItem) (word : List Char) : Prop :=
  ∀ name, item.boundName? = some name → leadingWord name = word

theorem hasWord_suppliedHandle (resource : Resource) (collection handle : String) :
    (suppliedHandle resource collection handle).HasWord resource.name.toList := by
  intro name bound
  obtain ⟨statement, made, named⟩ := Option.map_eq_some_iff.mp bound
  have written := Option.some.inj (Option.ite_none_right_eq_some.mp made).2
  rw [← named, ← written]
  exact leadingWord_resource resource

theorem hasWord_blockCount (blocks : Nat) : (blockCount blocks).HasWord blockCountWord := by
  intro name bound
  obtain rfl : blockCountName = name := Option.some.inj bound
  exact leadingWord_blockCountName

end PreviewItem

open PreviewItem (statement?)

/-- If all statements of bindings bind names in one space of names, then so do the items. -/
theorem Bindings.Account.exists_of_boundName? {bindings : Bindings}
    {rejection : String → Diagnostic} {items : List PreviewItem} {scope name : List Char}
    {item : PreviewItem} (account : bindings.Account rejection items)
    (inScope : ∀ statement ∈ bindings.statements, ∃ own, statement.name = scopedName scope own)
    (member : item ∈ items) (bound : item.boundName? = some name) :
    ∃ own, name = scopedName scope own := by
  obtain ⟨statement, made, named⟩ := Option.map_eq_some_iff.mp bound
  rw [← named]
  apply inScope
  rw [account.statements]
  exact List.mem_filterMap.mpr ⟨item, member, made⟩

theorem exists_of_mem_settingItems {scope name : List Char} {settings : SettingValues}
    {item : PreviewItem} (member : item ∈ settingItems scope settings)
    (bound : item.boundName? = some name) : ∃ own, name = scopedName scope own :=
  (account_scopedBindings scope settings).exists_of_boundName?
    (fun _ => name_of_mem_scopedBindings) member bound

theorem exists_of_mem_blockItems {index : Nat} {block : BlockInstance} {name : List Char}
    {item : PreviewItem} (member : item ∈ blockItems index block)
    (bound : item.boundName? = some name) : ∃ own, name = scopedName (blockScope index) own :=
  (account_blockBinding index block).exists_of_boundName?
    (fun _ => name_of_mem_blockBinding) member bound

/-! ## Parts of a preview -/

section Parts

variable (resources : ResourceContext) (settings : SettingValues) (blocks : List BlockInstance)

/-- The items of all blocks. -/
def allBlockItems : List PreviewItem :=
  blocks.zipIdx.flatMap fun (block, index) => blockItems index block

/-- The items of a preview in parts, each with the word that its variables begin with. -/
def previewParts : List (List Char × List PreviewItem) :=
  [ (Resource.product.name.toList,
      (resources.product.map (.suppliedHandle .product "all_products")).toList),
    (Resource.collection.name.toList,
      (resources.collection.map (.suppliedHandle .collection "collections")).toList),
    (sectionScope, settingItems sectionScope settings),
    (blockWord, allBlockItems blocks),
    (blockCountWord, [.blockCount blocks.length]) ]

theorem flatMap_previewParts :
    (previewParts resources settings blocks).flatMap Prod.snd =
      previewItems resources settings blocks := by
  simp [previewParts, previewItems, handleItems, allBlockItems]

theorem nodup_words_previewParts :
    ((previewParts resources settings blocks).map Prod.fst).Nodup := by
  change [Resource.product.name.toList, Resource.collection.name.toList, sectionScope, blockWord,
    blockCountWord].Nodup
  decide

theorem hasWord_of_mem_handles {resource : Resource} {collection : String}
    {handle? : Option String} {item : PreviewItem}
    (member : item ∈ (handle?.map (.suppliedHandle resource collection)).toList) :
    item.HasWord resource.name.toList := by
  obtain ⟨handle, _, same⟩ := Option.map_eq_some_iff.mp (Option.mem_toList.mp member)
  rw [← same]
  exact PreviewItem.hasWord_suppliedHandle resource collection handle

theorem hasWord_of_mem_settingItems {item : PreviewItem}
    (member : item ∈ settingItems sectionScope settings) : item.HasWord sectionScope := by
  intro name bound
  obtain ⟨own, same⟩ := exists_of_mem_settingItems member bound
  rw [same, leadingWord_scopedName_sectionScope]

theorem hasWord_of_mem_allBlockItems {item : PreviewItem} (member : item ∈ allBlockItems blocks) :
    item.HasWord blockWord := by
  intro name bound
  obtain ⟨entry, _, inBlock⟩ := List.mem_flatMap.mp member
  obtain ⟨own, same⟩ := exists_of_mem_blockItems inBlock bound
  rw [same, leadingWord_scopedName_blockScope]

theorem hasWord_of_mem_previewParts :
    ∀ part ∈ previewParts resources settings blocks, ∀ item ∈ part.2, item.HasWord part.1 := by
  unfold previewParts
  simp only [List.forall_mem_cons]
  refine ⟨?_, ?_, ?_, ?_, ?_, nofun⟩
  · intro item member
    exact hasWord_of_mem_handles member
  · intro item member
    exact hasWord_of_mem_handles member
  · intro item member
    exact hasWord_of_mem_settingItems settings member
  · intro item member
    exact hasWord_of_mem_allBlockItems blocks member
  · exact ⟨PreviewItem.hasWord_blockCount _, nofun⟩

end Parts

/-! ## Items that bind one variable -/

section Shared

variable (settings : SettingValues) (blocks : List BlockInstance)

/-- Two items belong to the settings of the section, or to one block. -/
def ShareScope (first second : PreviewItem) : Prop :=
  (first ∈ settingItems sectionScope settings ∧ second ∈ settingItems sectionScope settings) ∨
    ∃ index block, blocks[index]? = some block ∧
      first ∈ blockItems index block ∧ second ∈ blockItems index block

/-- Two items bind different variables, unless they share a space of names. -/
def ClashOnlyInScope (first second : PreviewItem) : Prop :=
  ∀ name, first.boundName? = some name → second.boundName? = some name →
    ShareScope settings blocks first second

variable {settings blocks}

theorem clashOnlyInScope_of_words {first second : PreviewItem} {left right : List Char}
    (different : left ≠ right) (inFirst : first.HasWord left) (inSecond : second.HasWord right) :
    ClashOnlyInScope settings blocks first second := by
  intro name bound again
  exact absurd ((inFirst name bound).symm.trans (inSecond name again)) different

/-- Items of two blocks bind different variables. -/
theorem clashOnlyInScope_of_indices {i j : Nat} (different : i ≠ j) {left right : BlockInstance}
    {first second : PreviewItem} (inFirst : first ∈ blockItems i left)
    (inSecond : second ∈ blockItems j right) : ClashOnlyInScope settings blocks first second := by
  intro name bound again
  obtain ⟨own, named⟩ := exists_of_mem_blockItems inFirst bound
  obtain ⟨other, renamed⟩ := exists_of_mem_blockItems inSecond again
  exact absurd (scopedName_blockScope_injective (named.symm.trans renamed)).1 different

theorem pairwise_settingItems :
    (settingItems sectionScope settings).Pairwise (ClashOnlyInScope settings blocks) := by
  apply List.pairwise_of_forall_mem_list
  intro first inFirst second inSecond _ _ _
  exact .inl ⟨inFirst, inSecond⟩

theorem pairwise_allBlockItems :
    (allBlockItems blocks).Pairwise (ClashOnlyInScope settings blocks) := by
  apply List.pairwise_flatMap.mpr
  constructor
  · intro (block, index) there
    apply List.pairwise_of_forall_mem_list
    intro first inFirst second inSecond _ _ _
    exact .inr ⟨index, block, List.mem_zipIdx_iff_getElem?.mp there, inFirst, inSecond⟩
  · have indices : (blocks.zipIdx.map Prod.snd).Nodup := by
      rw [List.zipIdx_map_snd]
      exact List.nodup_range'
    apply (List.pairwise_map.mp indices).imp
    intro left right different first inFirst second inSecond
    exact clashOnlyInScope_of_indices different inFirst inSecond

theorem pairwise_handles (resource : Resource) (collection : String) (handle? : Option String) :
    (handle?.map (PreviewItem.suppliedHandle resource collection)).toList.Pairwise
      (ClashOnlyInScope settings blocks) := by
  cases handle? with
  | none => exact .nil
  | some handle => exact List.pairwise_singleton _ _

theorem pairwise_of_mem_previewParts (resources : ResourceContext) :
    ∀ part ∈ previewParts resources settings blocks,
      part.2.Pairwise (ClashOnlyInScope settings blocks) := by
  unfold previewParts
  simp only [List.forall_mem_cons]
  exact ⟨pairwise_handles _ _ _, pairwise_handles _ _ _, pairwise_settingItems,
    pairwise_allBlockItems, List.pairwise_singleton _ _, nofun⟩

/-- Within a part the items share a space of names or there is only one, and items of different parts
differ in the words. -/
theorem pairwise_previewItems (resources : ResourceContext) :
    (previewItems resources settings blocks).Pairwise (ClashOnlyInScope settings blocks) := by
  rw [← flatMap_previewParts]
  apply List.pairwise_flatMap.mpr
  constructor
  · exact pairwise_of_mem_previewParts resources
  · -- no word stands for two parts
    have words := List.pairwise_map.mp (nodup_words_previewParts resources settings blocks)
    apply words.imp_of_mem
    intro left right inLeft inRight different first inFirst second inSecond
    have firstWord := hasWord_of_mem_previewParts _ _ _ left inLeft first inFirst
    have secondWord := hasWord_of_mem_previewParts _ _ _ right inRight second inSecond
    exact clashOnlyInScope_of_words different firstWord secondWord

end Shared

/-! ## Statements of a preview -/

theorem previewStatements_eq (resources : ResourceContext) (settings : SettingValues)
    (blocks : List BlockInstance) :
    previewStatements resources settings blocks =
      (previewItems resources settings blocks).filterMap statement? := by
  have handles := (account_resourceBindings resources).statements
  have entries := (account_scopedBindings sectionScope settings).statements
  have ofBlocks := (account_blockBindings blocks).statements
  rw [previewItems, List.filterMap_append, List.filterMap_append, ← handles, ← entries, ← ofBlocks]
  rfl

/-- A block's variable tells the block and the key. Variables of the section, of the blocks, of their
number and of the resources are different. So two statements in front of the markup bind one variable
only if both are for settings of the section, or both are for the fields and settings of one block. -/
theorem compilePreview_scopes (template : List Char) (request : PreviewRequest)
    (options : PreviewOptions) :
    let schema? := (Schema.withDiagnostics template).1
    let cap := blockCap schema? options
    let pickers := (schema?.map Pickers.ofSchema).getD .empty
    let settings := (selectSettings schema? request options).1
    let blocks := (capBlocks cap (selectBlocks schema? request options).1).1
    let items := previewItems request.resources settings blocks
    (∀ i j left right, scopedName (blockScope i) left = scopedName (blockScope j) right ↔
      i = j ∧ left = right) ∧
    (∀ index inSection inBlock,
      [scopedName sectionScope inSection, scopedName (blockScope index) inBlock, blockCountName,
        Resource.product.name.toList, Resource.collection.name.toList].Nodup) ∧
    (compilePreview template request options).markup =
      List.intercalate ['\n'] ((items.filterMap statement?).map Statement.render) ++ '\n' ::
        wrapBody options.resolveClass (request.resolveSectionId options)
          (flattenTemplate cap pickers template).1 ∧
    items.Pairwise fun first second =>
      ∀ statement ∈ first.statement?, ∀ other ∈ second.statement?, statement.name = other.name →
        (first ∈ settingItems sectionScope settings ∧
          second ∈ settingItems sectionScope settings) ∨
        ∃ index block, blocks[index]? = some block ∧
          first ∈ blockItems index block ∧ second ∈ blockItems index block := by
  intro schema? cap pickers settings blocks items
  refine ⟨fun _ _ _ _ => scopedName_blockScope_eq_iff, nodup_variableNames, ?_, ?_⟩
  · rw [← previewStatements_eq]
    exact markup_compilePreview template request options
  · apply (pairwise_previewItems request.resources).imp
    intro first second clash statement bound other again same
    have named : first.boundName? = some statement.name := Option.map_eq_some_iff.mpr ⟨_, bound, rfl⟩
    have renamed : second.boundName? = some statement.name :=
      Option.map_eq_some_iff.mpr ⟨_, again, same.symm⟩
    exact clash _ named renamed

/-- Two keys become one identifier, and a block has a setting under the name of its id. So two variables
are bound twice, each of them in one space of names. -/
theorem compilePreview_scopes_of_twice :
    let settings : SettingValues := ⟨[("a-b", .bool true), ("a_b", .bool false)], by decide⟩
    let block : BlockInstance := ⟨"x", "t", ⟨[("id", .bool true)], by decide⟩⟩
    let blocks : List BlockInstance := [block, ⟨"y", "t", .empty⟩]
    let request : PreviewRequest := ⟨some settings, some blocks, ⟨some "cap", none⟩, none⟩
    let items := previewItems request.resources settings blocks
    (selectSettings (Schema.withDiagnostics []).1 request .default).1 = settings ∧
      (selectBlocks (Schema.withDiagnostics []).1 request .default).1 = blocks ∧
      items.filterMap PreviewItem.boundName? =
        ["product", "settings_a_b", "settings_a_b", "block_0_id", "block_0_type", "block_0_id",
          "block_1_id", "block_1_type", "blocks_count"].map String.toList ∧
      ShareScope settings blocks (.blockField 0 block .id)
        (.setting (blockScope 0) "id" (.bool true)) := by
  intro settings block blocks request items
  have settingsFit : payloadSize settingValuesCodec settings ≤
      PreviewOptions.default.maxPayloadBytes := by
    decide +kernel
  have blocksFit : payloadSize blockInstancesCodec blocks ≤
      PreviewOptions.default.maxPayloadBytes := by
    decide +kernel
  have supplied : (selectSettings (Schema.withDiagnostics []).1 request .default).1 = settings := by
    change (withinLimit _ _ _ _ settings).1 = settings
    rw [withinLimit, if_neg (Nat.not_lt_of_le settingsFit)]
  have chosen : (selectBlocks (Schema.withDiagnostics []).1 request .default).1 = blocks := by
    rw [selectBlocks_fst]
    exact if_pos blocksFit
  refine ⟨supplied, chosen, by decide +kernel, ?_⟩
  have uncut : blocks.take (blockCap (Schema.withDiagnostics []).1 .default) = blocks :=
    List.take_of_length_le (by decide +kernel)
  have clash := (compilePreview_scopes [] request .default).2.2.2
  rw [supplied, chosen, capBlocks_fst, uncut] at clash
  have length : (previewItems request.resources settings blocks).length = 9 := rfl
  have pair := List.pairwise_iff_getElem.mp clash 3 5 (by omega) (by omega) (by omega)
  exact pair _ rfl _ rfl (by decide +kernel)

end FlatLiquid
