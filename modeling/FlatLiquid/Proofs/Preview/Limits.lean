import FlatLiquid.Proofs.Decimal.Whole
import FlatLiquid.Proofs.Json.Rewriting
import FlatLiquid.Proofs.Preview.Blocks
import FlatLiquid.Proofs.Schema.Decoding

/-!
Contract: the two places in which the size of a payload is limited.

Owns:
- the condition under which the values of settings and block instances grow no longer;
- the limit on a payload's text and the limit on what was read from it, side by side.

A payload is measured as it is sent before it is read, and without blanks before it is rendered. A
payload within the first limit can be beyond the second one if it grows when it is written again.
-/

namespace FlatLiquid

open Json (Codec Field Node Shape)

/-! ## Values that grow no longer -/

/-- The value of a setting grows no longer when it is written again. A number of its own becomes a
double before. -/
def Json.Node.settingFits : Node → Bool
  | .number numeral after =>
    numeral.fits after fun number => (SettingValue.ofJson (.number number)).toJson
  | node => node.numbersFit

/-- No value of settings grows longer when it is written again. -/
def Json.Node.settingsFit : Node → Bool :=
  Node.fieldsFit fun _ => Node.settingFits

/-- A block is an object with settings, none of which grows longer when it is written again. -/
def Json.Node.blockFits (node : Node) : Bool :=
  BlockInstance.shape.namesAll node &&
    node.fieldsFit fun name value => name != "settings" || value.settingsFit

/-- No block of a list grows longer when it is written again. -/
def Json.Node.blocksFit : Node → Bool :=
  Node.itemsFit Node.blockFits

theorem SettingValue.codec_writesWithin : SettingValue.codec.WritesWithin Node.settingFits := by
  intro depth node value fits read
  obtain ⟨json, found, rfl⟩ := exists_of_map_eq_ok read
  change (SettingValue.ofJson json).toJson.size ≤ node.size
  cases node with
  | number numeral after =>
    obtain ⟨number, valued, rfl⟩ := exists_of_map_eq_ok found
    exact Json.Numeral.size_le_of_fits fits valued
  | null after =>
    obtain rfl := Except.ok.inj found
    exact Nat.le_refl 4
  | bool known after =>
    obtain rfl := Except.ok.inj found
    exact Json.Node.size_le_of_read (.bool known after) fits found
  | string text after =>
    obtain ⟨known, _, rfl⟩ := exists_of_map_eq_ok found
    exact Json.Node.size_le_of_read (.string text after) fits found
  | array start items ending =>
    obtain ⟨values, _, rfl, _⟩ := Json.exists_of_read_array found
    exact Json.Node.size_le_of_read (.array start items ending) fits found
  | object start fields ending =>
    obtain ⟨entries, _, rfl, _⟩ := Json.exists_of_read_object found
    exact Json.Node.size_le_of_read (.object start fields ending) fits found
  | broken stop => contradiction

/-- A whole number of ordinary size is the same after it was a double. -/
theorem SettingValue.toJson_ofJson_whole {value : Int}
    (ordinary : value.natAbs < 9000000000000000) :
    (SettingValue.ofJson (.number (.whole value))).toJson = .number (.whole value) := by
  have same := Decimal.wholeNumber?_ofInt ordinary (decide (value < 0))
  have signed : (if decide (value < 0) then -(value.natAbs : Int) else value.natAbs) = value := by
    split
    · next negative =>
      have below := of_decide_eq_true negative
      omega
    · next positive =>
      have above : ¬ value < 0 := fun below => positive (decide_eq_true below)
      omega
  rw [signed] at same
  simp only [SettingValue.ofJson, Json.Number.toFloat, SettingValue.toJson, same]

/-- The value of a setting that is spelled as a whole number of ordinary size grows no longer. -/
theorem Json.Node.settingFits_of_whole {numeral : Json.Numeral} {place : Json.Cursor} {value : Int}
    (whole : numeral.value place.offset = .ok (.whole value))
    (ordinary : value.natAbs < 9000000000000000) (some : numeral.whole ≠ [])
    (digits : ∀ c ∈ numeral.whole, c.isDigit = true) :
    (Node.number numeral place).settingFits = true := by
  rw [Node.settingFits, Json.Numeral.fits, whole]
  simp only [SettingValue.toJson_ofJson_whole ordinary]
  exact decide_eq_true (Json.Numeral.byteSize_whole_le whole some digits)

theorem settingValuesCodec_writesWithin : settingValuesCodec.WritesWithin Node.settingsFit :=
  SettingValue.codec_writesWithin.map

/-- No field of a block touches what another one writes. -/
theorem BlockInstance.keeps : ∀ field ∈ BlockInstance.shape.fields,
    BlockInstance.shape.Keeps field.name field.write := by
  simp only [Shape.Keeps, BlockInstance.shape, List.forall_mem_cons]
  refine ⟨⟨?_, ?_, ?_, List.forall_mem_nil _⟩, ⟨?_, ?_, ?_, List.forall_mem_nil _⟩,
    ⟨?_, ?_, ?_, List.forall_mem_nil _⟩, List.forall_mem_nil _⟩
  all_goals first
    | exact fun different => absurd rfl different
    | exact fun _ => (Field.needed_stores _ _ _ _).keeps fun _ _ => rfl
    | exact fun _ => (Field.plain_stores _ _ _ _).keeps fun _ _ => rfl

theorem blockCodec_writesWithin : BlockInstance.shape.codec.WritesWithin Node.blockFits := by
  refine Shape.codec_writesWithin (by decide) BlockInstance.keeps ?_
  simp only [BlockInstance.shape, List.forall_mem_cons]
  refine ⟨?_, ?_, ?_, List.forall_mem_nil _⟩
  · exact Field.plain_writesWithin "id" (Codec.text_writesWithin _) fun _ _ => rfl
  · exact Field.plain_writesWithin "type" (Codec.text_writesWithin _) fun _ _ => rfl
  · exact Field.plain_writesWithin "settings" settingValuesCodec_writesWithin fun _ _ => rfl

theorem blockInstancesCodec_writesWithin :
    blockInstancesCodec.WritesWithin Node.blocksFit :=
  blockCodec_writesWithin.list

/-! ## Payloads -/

theorem payloadSize_eq {α : Type} (codec : Codec α) (value : α) :
    payloadSize codec value = (codec.write value).size :=
  Json.utf8ByteSize_ofList _

/-- A payload that is read is within the limit, and so is what is read from it if it grows no longer
when it is written again. -/
theorem payloadSize_le_of_readPayload {α : Type} {kind : PayloadKind} {codec : Codec α}
    {payload : String} {limit : Nat} {value : α} {fits : Node → Bool}
    (within : codec.WritesWithin fits) (read : readPayload kind codec payload limit = .ok value)
    (fit : fits (Node.ofText payload.toList) = true) : payloadSize codec value ≤ limit := by
  unfold readPayload at read
  split at read
  · contradiction
  · next small =>
    have parsed := eq_ok_of_mapError_eq_ok (eq_ok_of_mapError_eq_ok read)
    obtain ⟨decoded, after, finished, _⟩ := Json.read_of_readText parsed
    have written := within 0 _ value fit decoded
    have spelled := Json.size_ofText_le finished
    have same := Json.utf8ByteSize_ofList payload.toList
    rw [String.ofList_toList] at same
    rw [payloadSize_eq]
    omega

/-- The diagnostic is about the size of a payload of this kind. -/
def Diagnostic.isTooLarge (kind : PayloadKind) : Diagnostic → Bool
  | .payloadTooLarge known _ _ => known == kind
  | _ => false

theorem withinLimit_eq {α : Type} (kind : PayloadKind) (codec : Codec α) (none : α) (limit : Nat)
    (value : α) :
    withinLimit kind codec none limit value =
      if payloadSize codec value ≤ limit then (value, [])
      else (none, [.payloadTooLarge kind (payloadSize codec value) limit]) := by
  rw [withinLimit]
  by_cases fits : payloadSize codec value ≤ limit
  · simp only [if_neg (Nat.not_lt_of_le fits), if_pos fits]
  · simp only [if_pos (Nat.lt_of_not_le fits), if_neg fits]

theorem filter_isTooLarge_of_all {kind : PayloadKind} {notes : List Diagnostic}
    (others : notes.all (fun note => !note.isTooLarge kind) = true) :
    notes.filter (·.isTooLarge kind) = [] := by
  apply List.filter_eq_nil_iff.mpr
  intro note member
  have other := List.all_eq_true.mp others note member
  rw [Bool.not_eq_true'] at other
  rw [other]
  exact Bool.false_ne_true

/-- Only the choice of settings and of blocks speaks of the size of a payload. -/
theorem filter_isTooLarge_compilePreview (template : List Char) (request : PreviewRequest)
    (options : PreviewOptions) (kind : PayloadKind) :
    let schema? := (Schema.withDiagnostics template).1
    (compilePreview template request options).diagnostics.filter (·.isTooLarge kind) =
      (selectSettings schema? request options).2.filter (·.isTooLarge kind) ++
        (selectBlocks schema? request options).2.filter (·.isTooLarge kind) := by
  intro schema?
  have fromSchema : (Schema.withDiagnostics template).2.filter (·.isTooLarge kind) = [] :=
    filter_isTooLarge_of_all (Schema.all_withDiagnostics template rfl fun _ => rfl)
  have fromCap : (capBlocks (blockCap schema? options)
      (selectBlocks schema? request options).1).2.filter (·.isTooLarge kind) = [] :=
    filter_isTooLarge_of_all (all_capBlocks _ _ fun _ _ => rfl)
  have fromLoops (count : Nat) :
      (List.replicate count Diagnostic.nestedLoop).filter (·.isTooLarge kind) = [] := by
    rw [List.filter_replicate]
    rfl
  have fromRejected {α : Type} (wording : α → Diagnostic) (rejected : List α)
      (other : ∀ key, (wording key).isTooLarge kind = false) :
      (rejected.map wording).filter (·.isTooLarge kind) = [] := by
    rw [List.filter_map, List.filter_eq_nil_iff.mpr, List.map_nil]
    intro key _
    simp [other key]
  obtain ⟨nested, handles, keys, parts⟩ : ∃ (nested : Nat) (handles keys : List String),
      (compilePreview template request options).diagnostics =
        (Schema.withDiagnostics template).2 ++ (selectSettings schema? request options).2 ++
          (selectBlocks schema? request options).2 ++
          (capBlocks (blockCap schema? options) (selectBlocks schema? request options).1).2 ++
          List.replicate nested .nestedLoop ++ handles.map .invalidHandle ++
          keys.map .invalidIdentifier := ⟨_, _, _, rfl⟩
  rw [parts]
  simp only [List.filter_append, fromSchema, fromCap, fromLoops,
    fromRejected .invalidHandle handles fun _ => rfl,
    fromRejected .invalidIdentifier keys fun _ => rfl, List.nil_append, List.append_nil]

theorem filter_selectSettings (schema? : Option Schema) (request : PreviewRequest)
    (options : PreviewOptions) :
    (selectSettings schema? request options).2.filter (·.isTooLarge .blocks) = [] := by
  unfold selectSettings
  split
  · rw [withinLimit_eq]
    split <;> rfl
  · rfl
  · rfl

theorem filter_selectBlocks (schema? : Option Schema) (request : PreviewRequest)
    (options : PreviewOptions) :
    (selectBlocks schema? request options).2.filter (·.isTooLarge .settings) = [] := by
  unfold selectBlocks
  split
  · rw [withinLimit_eq]
    split <;> rfl
  · rfl
  · rfl

theorem selectSettings_of_some (schema? : Option Schema) {request : PreviewRequest}
    (options : PreviewOptions) {settings : SettingValues} (given : request.settings = some settings) :
    selectSettings schema? request options =
      if payloadSize settingValuesCodec settings ≤ options.maxPayloadBytes then (settings, [])
      else (.empty, [.payloadTooLarge .settings (payloadSize settingValuesCodec settings)
        options.maxPayloadBytes]) := by
  unfold selectSettings
  rw [given]
  exact withinLimit_eq _ _ _ _ _

theorem selectBlocks_of_some (schema? : Option Schema) {request : PreviewRequest}
    (options : PreviewOptions) {blocks : List BlockInstance} (given : request.blocks = some blocks) :
    selectBlocks schema? request options =
      if payloadSize blockInstancesCodec blocks ≤ options.maxPayloadBytes then (blocks, [])
      else ([], [.payloadTooLarge .blocks (payloadSize blockInstancesCodec blocks)
        options.maxPayloadBytes]) := by
  unfold selectBlocks
  rw [given]
  exact withinLimit_eq _ _ _ _ _

/-- Settings and blocks of a request that were read from a payload, with one limit on the payload and
on what was read. What was read is measured again, by its JSON without blanks. If this is within the
limit, the preview is about what was read and nothing is reported. If it is not, the preview is about
none of it, which is reported with its size. It is within the limit whenever no number grows longer
when it is written again and, for blocks, each of them is an object with settings. -/
theorem compilePreview_of_payload (template : List Char) (request : PreviewRequest)
    (options : PreviewOptions) (payload : String) :
    let limit := options.maxPayloadBytes
    let node := Node.ofText payload.toList
    let schema? := (Schema.withDiagnostics template).1
    let cap := blockCap schema? options
    let pickers := (schema?.map Pickers.ofSchema).getD .empty
    let markup (settings : SettingValues) (blocks : List BlockInstance) :=
      List.intercalate ['\n'] ((previewStatements request.resources settings
          (blocks.take cap)).map Statement.render) ++ '\n' ::
        wrapBody options.resolveClass (request.resolveSectionId options)
          (flattenTemplate cap pickers template).1
    let preview := compilePreview template request options
    let tooLarge (kind : PayloadKind) := preview.diagnostics.filter (·.isTooLarge kind)
    (∀ settings, readSettings payload limit = .ok settings → request.settings = some settings →
      let size := payloadSize settingValuesCodec settings
      let blocks := (selectBlocks schema? request options).1
      (size ≤ limit → preview.markup = markup settings blocks ∧ tooLarge .settings = []) ∧
        (limit < size → preview.markup = markup .empty blocks ∧
          tooLarge .settings = [.payloadTooLarge .settings size limit]) ∧
        (node.settingsFit = true → size ≤ limit)) ∧
    (∀ blocks, readBlocks payload limit = .ok blocks → request.blocks = some blocks →
      let size := payloadSize blockInstancesCodec blocks
      let settings := (selectSettings schema? request options).1
      (size ≤ limit → preview.markup = markup settings blocks ∧ tooLarge .blocks = []) ∧
        (limit < size → preview.markup = markup settings [] ∧
          tooLarge .blocks = [.payloadTooLarge .blocks size limit]) ∧
        (node.blocksFit = true → size ≤ limit)) := by
  intro limit node schema? cap pickers markup preview tooLarge
  have marked : preview.markup = markup (selectSettings schema? request options).1
      (selectBlocks schema? request options).1 := by
    change (compilePreview template request options).markup = _
    rw [markup_compilePreview, capBlocks_fst]
    rfl
  have reported (kind : PayloadKind) : tooLarge kind =
      (selectSettings schema? request options).2.filter (·.isTooLarge kind) ++
        (selectBlocks schema? request options).2.filter (·.isTooLarge kind) :=
    filter_isTooLarge_compilePreview template request options kind
  constructor
  · intro settings read given size blocks
    have selected := selectSettings_of_some schema? options given
    have alone : tooLarge .settings =
        (selectSettings schema? request options).2.filter (·.isTooLarge .settings) := by
      rw [reported, filter_selectBlocks, List.append_nil]
    rw [selected] at marked alone
    refine ⟨fun fits => ?_, fun exceeds => ?_,
      payloadSize_le_of_readPayload settingValuesCodec_writesWithin read⟩
    · rw [if_pos fits] at marked alone
      exact ⟨marked, alone⟩
    · rw [if_neg (Nat.not_le_of_lt exceeds)] at marked alone
      exact ⟨marked, alone⟩
  · intro blocks read given size settings
    have selected := selectBlocks_of_some schema? options given
    have alone : tooLarge .blocks =
        (selectBlocks schema? request options).2.filter (·.isTooLarge .blocks) := by
      rw [reported, filter_selectSettings, List.nil_append]
    rw [selected] at marked alone
    refine ⟨fun fits => ?_, fun exceeds => ?_,
      payloadSize_le_of_readPayload blockInstancesCodec_writesWithin read⟩
    · rw [if_pos fits] at marked alone
      exact ⟨marked, alone⟩
    · rw [if_neg (Nat.not_le_of_lt exceeds)] at marked alone
      exact ⟨marked, alone⟩

/-- Settings and a block, each at a limit of just the bytes of its payload, are used. -/
theorem compilePreview_of_payload_of_small :
    let settingsPayload := "\x7b\"title\":\"Hi\",\"count\":12\x7d"
    let blocksPayload := "[\x7b\"id\":\"a\",\"type\":\"b\",\"settings\":\x7b\"n\":12\x7d\x7d]"
    let options (limit : Nat) : PreviewOptions :=
      { PreviewOptions.default with maxPayloadBytes := limit }
    (∃ settings, readSettings settingsPayload 25 = .ok settings ∧
      (Node.ofText settingsPayload.toList).settingsFit = true ∧
      (compilePreview [] ⟨some settings, none, .empty, none⟩ (options 25)).diagnostics.filter
        (·.isTooLarge .settings) = []) ∧
    (∃ blocks, readBlocks blocksPayload 43 = .ok blocks ∧
      (Node.ofText blocksPayload.toList).blocksFit = true ∧
      (compilePreview [] ⟨none, some blocks, .empty, none⟩ (options 43)).diagnostics.filter
        (·.isTooLarge .blocks) = []) := by
  intro settingsPayload blocksPayload options
  constructor
  · obtain ⟨settings, read⟩ := exists_of_isOk
      (show (readSettings settingsPayload 25).isOk = true by decide +kernel)
    have fits : (Node.ofText settingsPayload.toList).settingsFit = true := by decide +kernel
    obtain ⟨within, _, small⟩ := (compilePreview_of_payload [] ⟨some settings, none, .empty, none⟩
      (options 25) settingsPayload).1 settings read rfl
    exact ⟨settings, read, fits, (within (small fits)).2⟩
  · obtain ⟨blocks, read⟩ := exists_of_isOk
      (show (readBlocks blocksPayload 43).isOk = true by decide +kernel)
    have fits : (Node.ofText blocksPayload.toList).blocksFit = true := by decide +kernel
    obtain ⟨within, _, small⟩ := (compilePreview_of_payload [] ⟨none, some blocks, .empty, none⟩
      (options 43) blocksPayload).2 blocks read rfl
    exact ⟨blocks, read, fits, (within (small fits)).2⟩

/-- A block without settings is read from a payload at the limit and dropped beyond it: what was read
has settings, if empty ones, and its JSON names them. -/
theorem compilePreview_of_payload_grown :
    let payload := "[\x7b\"id\":\"a\",\"type\":\"b\"\x7d]"
    let options : PreviewOptions := { PreviewOptions.default with maxPayloadBytes := 23 }
    ∃ blocks, readBlocks payload 23 = .ok blocks ∧ blocks.length = 1 ∧
      let request : PreviewRequest := ⟨none, some blocks, .empty, none⟩
      let preview := compilePreview [] request options
      preview.markup = (compilePreview [] { request with blocks := some [] } options).markup ∧
        preview.diagnostics.map Diagnostic.text =
          ["warning: blocks payload of 37 bytes exceeds 23 bytes and was ignored"] := by
  intro payload options
  have found : ((readBlocks payload 23).toOption.map fun blocks =>
      let request : PreviewRequest := ⟨none, some blocks, .empty, none⟩
      let preview := compilePreview [] request options
      decide (blocks.length = 1 ∧
        preview.markup = (compilePreview [] { request with blocks := some [] } options).markup ∧
        preview.diagnostics.map Diagnostic.text =
          ["warning: blocks payload of 37 bytes exceeds 23 bytes and was ignored"])) = some true := by
    decide +kernel
  cases read : readBlocks payload 23 with
  | error fault =>
    rw [read] at found
    contradiction
  | ok blocks =>
    rw [read] at found
    exact ⟨blocks, rfl, of_decide_eq_true (Option.some.inj found)⟩

end FlatLiquid
