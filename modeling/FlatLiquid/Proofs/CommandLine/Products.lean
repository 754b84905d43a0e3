import FlatLiquid.Proofs.CommandLine.Worlds

/-!
Contract: what a command makes of the files that it reads.

Owns:
- the options and the payloads that a host holds for a run, which are read one after the other;
- the text that a command makes, told by the contents that it has read, and where the text goes;
- the commands as actions: they give exactly this text, and they change no file.

Does not own: the delivery of the text, which is in FlatLiquid.Proofs.CommandLine.Delivery.
-/

namespace FlatLiquid.CommandLine

variable {World Place α : Type}

/-! ## What is read -/

/-- The host reads the text under the path. If the path stands for a file, that is its content. -/
structure Host.Reads (host : Host (StateM World)) (view : View World Place) (path : String)
    (before : World) (text : String) (after : World) : Prop where
  answered : (host.read path).run before = (.ok text, after)
  content : ∀ place, view.spot? before path = some (.file place) →
    view.file? before place = some text.toUTF8

/-- The options that the configuration file sets. Without one they are the defaults. -/
inductive Host.HasOptions (host : Host (StateM World)) (view : View World Place) :
    World → PreviewOptions → World → Prop where
  | configured {before middle after : World} {text : String} {options : PreviewOptions}
      (there : (host.isThere configFile).run before = (true, middle))
      (found : host.Reads view configFile middle text after)
      (valid : readConfig host.readDocument text = .ok options) :
      host.HasOptions view before options after
  | unconfigured {before after : World}
      (absent : (host.isThere configFile).run before = (false, after)) :
      host.HasOptions view before .default after

/-- A text is read that is decoded as a payload. -/
def Host.HasPayload (host : Host (StateM World)) (view : View World Place)
    (decode : String → Except PayloadFault α) (path : String) (before : World) (payload : α)
    (after : World) : Prop :=
  ∃ text, host.Reads view path before text after ∧ decode text = .ok payload

/-- The payload of the file that is named, if one is. -/
inductive Host.HasOptionalPayload (host : Host (StateM World)) (view : View World Place)
    (decode : String → Except PayloadFault α) :
    Option String → World → Option α → World → Prop where
  | none {world : World} : host.HasOptionalPayload view decode none world none world
  | some {path : String} {before after : World} {payload : α}
      (has : host.HasPayload view decode path before payload after) :
      host.HasOptionalPayload view decode (some path) before (some payload) after

section Reading

variable {host : Host (StateM World)} {view : View World Place}
  {decode : String → Except PayloadFault α} {before after : World}

theorem readOptionalPayload_some (path : String) :
    readOptionalPayload host (some path) decode =
      readPayloadFile host path decode >>= fun payload => pure (some payload) :=
  map_eq_pure_bind _ _

variable (lawful : host.Lawful view)
include lawful

theorem gives_read_iff {path text : String} {fault : FileFault → RunFault} :
    Gives (orFault fault (host.read path)) before text after ↔
      host.Reads view path before text after := by
  rw [gives_orFault_iff]
  constructor
  · intro answered
    exact ⟨answered, fun _ => lawful.read_content answered⟩
  · exact Host.Reads.answered

theorem gives_loadOptions_iff {options : PreviewOptions} :
    Gives (loadOptions host) before options after ↔ host.HasOptions view before options after := by
  rw [loadOptions, gives_bind_iff]
  simp only [gives_lift_iff]
  constructor
  · rintro ⟨isThere, middle, looked, given⟩
    cases isThere with
    | true =>
      obtain ⟨text, last, found, given⟩ := gives_bind_iff.mp given
      obtain ⟨valid, rfl⟩ := gives_orFault_pure_iff.mp given
      exact .configured looked ((gives_read_iff lawful).mp found) valid
    | false =>
      obtain ⟨rfl, rfl⟩ := gives_pure_iff.mp given
      exact .unconfigured looked
  · intro has
    cases has with
    | configured there found valid =>
      refine ⟨true, _, there, gives_bind_iff.mpr ⟨_, after, (gives_read_iff lawful).mpr found, ?_⟩⟩
      exact gives_orFault_pure_iff.mpr ⟨valid, rfl⟩
    | unconfigured absent => exact ⟨false, after, absent, gives_pure_iff.mpr ⟨rfl, rfl⟩⟩

theorem gives_readPayloadFile_iff {path : String} {payload : α} :
    Gives (readPayloadFile host path decode) before payload after ↔
      host.HasPayload view decode path before payload after := by
  rw [readPayloadFile, gives_bind_iff]
  constructor
  · rintro ⟨text, _, found, decoded⟩
    obtain ⟨valid, rfl⟩ := gives_orFault_pure_iff.mp decoded
    exact ⟨text, (gives_read_iff lawful).mp found, valid⟩
  · rintro ⟨text, found, valid⟩
    exact ⟨text, after, (gives_read_iff lawful).mpr found,
      gives_orFault_pure_iff.mpr ⟨valid, rfl⟩⟩

theorem gives_readOptionalPayload_iff {path? : Option String} {payload? : Option α} :
    Gives (readOptionalPayload host path? decode) before payload? after ↔
      host.HasOptionalPayload view decode path? before payload? after := by
  cases path? with
  | none =>
    refine gives_pure_iff.trans ⟨?_, ?_⟩
    · rintro ⟨rfl, rfl⟩
      exact .none
    · intro has
      cases has
      exact ⟨rfl, rfl⟩
  | some path =>
    rw [readOptionalPayload_some, gives_bind_iff]
    simp only [gives_readPayloadFile_iff lawful, gives_pure_iff]
    constructor
    · rintro ⟨payload, _, has, rfl, rfl⟩
      exact .some has
    · intro has
      cases has with
      | some has => exact ⟨_, after, has, rfl, rfl⟩

theorem keeps_loadOptions : view.Keeps (loadOptions host) := by
  refine (View.Keeps.lift (lawful.isThere_same configFile)).bind fun isThere => ?_
  cases isThere with
  | true =>
    exact (View.Keeps.orFault (lawful.read_same configFile)).bind fun text =>
      .orFault_pure _
  | false => exact .pure _

theorem keeps_readTemplate (path : String) : view.Keeps (readTemplate host path) :=
  .orFault (lawful.read_same path)

theorem keeps_readPayloadFile (path : String) : view.Keeps (readPayloadFile host path decode) :=
  (View.Keeps.orFault (lawful.read_same path)).bind fun _ => .orFault_pure _

theorem keeps_readOptionalPayload (path? : Option String) :
    view.Keeps (readOptionalPayload host path? decode) := by
  cases path? with
  | none => exact .pure none
  | some path =>
    rw [readOptionalPayload_some]
    exact (keeps_readPayloadFile lawful path).bind fun _ => .pure _

end Reading

/-! ## What is made -/

/-- The file that a command is told to write its text to. -/
def Command.target? : Command → Option String
  | .preview arguments => arguments.output
  | .defaults template _ write => if write then some template else none
  | .schema _ _ _ => none
  | .diff _ _ => none

/-- What a preview is asked for. -/
def PreviewArguments.request (arguments : PreviewArguments) (settings : Option SettingValues)
    (blocks : Option (List BlockInstance)) : PreviewRequest :=
  { settings := settings
    blocks := blocks
    resources := ⟨arguments.product, arguments.collection⟩
    sectionId := arguments.sectionId }

/-- The text of a preview: with its diagnostics as JSON, or its markup alone. -/
def PreviewArguments.text (arguments : PreviewArguments) (preview : Preview) : String :=
  if arguments.json then preview.toJson.indented else String.ofList preview.markup

/-- The text of a schema: its initial values, or the schema with or without its labels resolved. -/
def schemaText (schema : Schema) (asValues raw : Bool) : String :=
  if asValues then (settingValuesCodec.write (initialValues schema.labelledSettings)).indented
  else (Schema.shape.codec.write (if raw then schema else schema.resolveLabels)).indented

/-- The text of the values that differ from the defaults of a template. -/
def diffText (template : List Char) (values : SettingValues) : String :=
  (settingValuesCodec.write
    (((Schema.ofTemplate? template).map (Schema.changedValues · values)).getD .empty)).indented

theorem diffText_eq (template : List Char) (values : SettingValues) :
    (settingValuesCodec.write (match Schema.ofTemplate? template with
      | some schema => schema.changedValues values
      | none => .empty)).indented = diffText template values := by
  unfold diffText
  cases Schema.ofTemplate? template <;> rfl

/-- The text that a command makes of the files that it reads, from the world before it to the world
after the last of them. -/
inductive Host.Makes (host : Host (StateM World)) (view : View World Place) :
    Command → World → String → World → Prop where
  | preview {arguments : PreviewArguments} {options : PreviewOptions} {template : String}
      {settings : Option SettingValues} {blocks : Option (List BlockInstance)}
      {before first second third after : World}
      (configured : host.HasOptions view before options first)
      (found : host.Reads view arguments.template first template second)
      (hasSettings : host.HasOptionalPayload view
        (fun payload => readSettings payload options.maxPayloadBytes)
        arguments.settings second settings third)
      (hasBlocks : host.HasOptionalPayload view
        (fun payload => readBlocks payload options.maxPayloadBytes)
        arguments.blocks third blocks after) :
      host.Makes view (.preview arguments) before
        (arguments.text (compilePreview template.toList (arguments.request settings blocks) options))
        after
  | schema {path template : String} {schema : Schema} {asValues raw : Bool} {before after : World}
      (found : host.Reads view path before template after)
      (valid : Schema.read template.toList = .ok (some schema)) :
      host.Makes view (.schema path asValues raw) before (schemaText schema asValues raw) after
  | defaults {path valuesPath template : String} {write : Bool} {options : PreviewOptions}
      {values : SettingValues} {before first second after : World}
      (configured : host.HasOptions view before options first)
      (found : host.Reads view path first template second)
      (hasValues : host.HasPayload view
        (fun payload => readSettings payload options.maxPayloadBytes)
        valuesPath second values after) :
      host.Makes view (.defaults path valuesPath write) before
        (String.ofList (storeDefaults template.toList values).template) after
  | diff {path valuesPath template : String} {options : PreviewOptions} {values : SettingValues}
      {before first second after : World}
      (configured : host.HasOptions view before options first)
      (found : host.Reads view path first template second)
      (hasValues : host.HasPayload view
        (fun payload => readSettings payload options.maxPayloadBytes)
        valuesPath second values after) :
      host.Makes view (.diff path valuesPath) before (diffText template.toList values) after

section Products

variable {host : Host (StateM World)} {view : View World Place} {before after : World}
  {product : Product} (lawful : host.Lawful view)
include lawful

theorem gives_runPreview_iff {arguments : PreviewArguments} :
    Gives (runPreview host arguments) before product after ↔
      ∃ options first, host.HasOptions view before options first ∧
        ∃ template second, host.Reads view arguments.template first template second ∧
          ∃ settings third, host.HasOptionalPayload view
              (fun payload => readSettings payload options.maxPayloadBytes)
              arguments.settings second settings third ∧
            ∃ blocks, host.HasOptionalPayload view
                (fun payload => readBlocks payload options.maxPayloadBytes)
                arguments.blocks third blocks after ∧
              let preview := compilePreview template.toList (arguments.request settings blocks) options
              product = ⟨arguments.text preview, arguments.output,
                if arguments.json then [] else preview.diagnostics.map Diagnostic.text⟩ := by
  have last (preview : Preview) (world : World) :
      Gives (if arguments.json then pure ⟨preview.toJson.indented, arguments.output, []⟩
        else pure ⟨String.ofList preview.markup, arguments.output,
          preview.diagnostics.map Diagnostic.text⟩) world product after ↔
        after = world ∧ product = ⟨arguments.text preview, arguments.output,
          if arguments.json then [] else preview.diagnostics.map Diagnostic.text⟩ := by
    unfold PreviewArguments.text
    split
    · exact gives_pure_iff.trans and_comm
    · exact gives_pure_iff.trans and_comm
  simp only [runPreview, readTemplate, gives_bind_iff, gives_loadOptions_iff lawful,
    gives_read_iff lawful, gives_readOptionalPayload_iff lawful, last, PreviewArguments.request]
  constructor
  · rintro ⟨options, first, configured, template, second, found, settings, third, hasSettings,
      blocks, _, hasBlocks, rfl, rfl⟩
    exact ⟨options, first, configured, template, second, found, settings, third, hasSettings,
      blocks, hasBlocks, rfl⟩
  · rintro ⟨options, first, configured, template, second, found, settings, third, hasSettings,
      blocks, hasBlocks, rfl⟩
    exact ⟨options, first, configured, template, second, found, settings, third, hasSettings,
      blocks, after, hasBlocks, rfl, rfl⟩

theorem gives_runSchema_iff {path : String} {asValues raw : Bool} :
    Gives (runSchema host path asValues raw) before product after ↔
      ∃ template, host.Reads view path before template after ∧
        ∃ schema, Schema.read template.toList = .ok (some schema) ∧
          product = ⟨schemaText schema asValues raw, none, schema.diagnostics.map Diagnostic.text⟩ := by
  rw [runSchema, gives_bind_iff]
  constructor
  · rintro ⟨template, middle, found, given⟩
    obtain ⟨schema?, _, decoded, made⟩ := gives_bind_iff.mp given
    obtain ⟨valid, rfl⟩ := gives_orFault_pure_iff.mp decoded
    cases schema? with
    | none => cases made
    | some schema =>
      obtain ⟨rfl, rfl⟩ := gives_pure_iff.mp made
      refine ⟨template, (gives_read_iff lawful).mp found, schema, valid, ?_⟩
      unfold schemaText
      split <;> rfl
  · rintro ⟨template, found, schema, valid, rfl⟩
    refine ⟨template, after, (gives_read_iff lawful).mpr found, gives_bind_iff.mpr
      ⟨some schema, after, gives_orFault_pure_iff.mpr ⟨valid, rfl⟩, gives_pure_iff.mpr ⟨?_, rfl⟩⟩⟩
    unfold schemaText
    split <;> rfl

/-- The commands that read settings for a template: what they read before they make their text. -/
theorem gives_withValues_iff {path valuesPath : String}
    {made : PreviewOptions → String → SettingValues → Product} :
    Gives (do
      let options ← loadOptions host
      let template ← readTemplate host path
      let values ← readPayloadFile host valuesPath fun payload =>
        readSettings payload options.maxPayloadBytes
      pure (made options template values)) before product after ↔
      ∃ options first, host.HasOptions view before options first ∧
        ∃ template second, host.Reads view path first template second ∧
          ∃ values, host.HasPayload view (fun payload => readSettings payload options.maxPayloadBytes)
              valuesPath second values after ∧
            product = made options template values := by
  simp only [readTemplate, gives_bind_iff, gives_loadOptions_iff lawful, gives_read_iff lawful,
    gives_readPayloadFile_iff lawful, gives_pure_iff]
  constructor
  · rintro ⟨options, first, configured, template, second, found, values, _, hasValues, rfl, rfl⟩
    exact ⟨options, first, configured, template, second, found, values, hasValues, rfl⟩
  · rintro ⟨options, first, configured, template, second, found, values, hasValues, rfl⟩
    exact ⟨options, first, configured, template, second, found, values, after, hasValues, rfl, rfl⟩

theorem gives_runDefaults_iff {path valuesPath : String} {write : Bool} :
    Gives (runDefaults host path valuesPath write) before product after ↔
      ∃ options first, host.HasOptions view before options first ∧
        ∃ template second, host.Reads view path first template second ∧
          ∃ values, host.HasPayload view (fun payload => readSettings payload options.maxPayloadBytes)
              valuesPath second values after ∧
            let update := storeDefaults template.toList values
            product = ⟨String.ofList update.template, if write then some path else none,
              update.unsupported.map fun id => "skipped: " ++ id ++ " (resource setting)"⟩ :=
  gives_withValues_iff lawful

theorem gives_runDiff_iff {path valuesPath : String} :
    Gives (runDiff host path valuesPath) before product after ↔
      ∃ options first, host.HasOptions view before options first ∧
        ∃ template second, host.Reads view path first template second ∧
          ∃ values, host.HasPayload view (fun payload => readSettings payload options.maxPayloadBytes)
              valuesPath second values after ∧
            product = ⟨diffText template.toList values, none, []⟩ := by
  simp only [← diffText_eq]
  exact gives_withValues_iff lawful

theorem makes_of_gives {command : Command}
    (given : Gives (command.product host) before product after) :
    host.Makes view command before product.text after ∧ product.target = command.target? := by
  cases command with
  | preview arguments =>
    obtain ⟨options, _, configured, template, _, found, settings, _, hasSettings, blocks, hasBlocks,
      rfl⟩ := (gives_runPreview_iff lawful).mp given
    exact ⟨.preview configured found hasSettings hasBlocks, rfl⟩
  | schema path asValues raw =>
    obtain ⟨template, found, schema, valid, rfl⟩ := (gives_runSchema_iff lawful).mp given
    exact ⟨.schema found valid, rfl⟩
  | defaults path valuesPath write =>
    obtain ⟨options, _, configured, template, _, found, values, hasValues, rfl⟩ :=
      (gives_runDefaults_iff lawful).mp given
    exact ⟨.defaults configured found hasValues, rfl⟩
  | diff path valuesPath =>
    obtain ⟨options, _, configured, template, _, found, values, hasValues, rfl⟩ :=
      (gives_runDiff_iff lawful).mp given
    exact ⟨.diff configured found hasValues, rfl⟩

theorem exists_product_of_makes {command : Command} {text : String}
    (makes : host.Makes view command before text after) :
    ∃ notes, Gives (command.product host) before ⟨text, command.target?, notes⟩ after := by
  cases makes with
  | preview configured found hasSettings hasBlocks =>
    exact ⟨_, (gives_runPreview_iff lawful).mpr
      ⟨_, _, configured, _, _, found, _, _, hasSettings, _, hasBlocks, rfl⟩⟩
  | schema found valid => exact ⟨_, (gives_runSchema_iff lawful).mpr ⟨_, found, _, valid, rfl⟩⟩
  | defaults configured found hasValues =>
    exact ⟨_, (gives_runDefaults_iff lawful).mpr ⟨_, _, configured, _, _, found, _, hasValues, rfl⟩⟩
  | diff configured found hasValues =>
    exact ⟨_, (gives_runDiff_iff lawful).mpr ⟨_, _, configured, _, _, found, _, hasValues, rfl⟩⟩

/-- Whatever a command is, nothing is written before its product is there. -/
theorem keeps_product (command : Command) :
    view.Keeps (command.product host) := by
  have withValues (path valuesPath : String)
      (made : PreviewOptions → String → SettingValues → Product) : view.Keeps (do
        let options ← loadOptions host
        let template ← readTemplate host path
        let values ← readPayloadFile host valuesPath fun payload =>
          readSettings payload options.maxPayloadBytes
        pure (made options template values)) := by
    refine (keeps_loadOptions lawful).bind fun options => ?_
    refine (keeps_readTemplate lawful path).bind fun template => ?_
    exact (keeps_readPayloadFile lawful valuesPath).bind fun values => .pure _
  cases command with
  | preview arguments =>
    refine (keeps_loadOptions lawful).bind fun options => ?_
    refine (keeps_readTemplate lawful arguments.template).bind fun template => ?_
    refine (keeps_readOptionalPayload lawful arguments.settings).bind fun settings => ?_
    refine (keeps_readOptionalPayload lawful arguments.blocks).bind fun blocks => ?_
    split
    · exact .pure _
    · exact .pure _
  | schema path asValues raw =>
    refine (keeps_readTemplate lawful path).bind fun template => ?_
    refine (View.Keeps.orFault_pure (Schema.read template.toList)).bind fun schema? => ?_
    cases schema? with
    | none => exact .throw _
    | some schema => exact .pure _
  | defaults path valuesPath write => exact withValues path valuesPath _
  | diff path valuesPath => exact withValues path valuesPath _

end Products

end FlatLiquid.CommandLine
