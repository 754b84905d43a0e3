import FlatLiquid.Preview.Diagnostic
import FlatLiquid.Preview.Options
import FlatLiquid.Schema.Presets
import FlatLiquid.Template.ImageFilter
import FlatLiquid.Template.Unrolling

/-!
Contract: the preview of a section.

Owns:
- the choice of the values and of the blocks that are rendered;
- the template without schema, loops, accessors and image filters;
- the statements in front of it and the container around it.
-/

namespace FlatLiquid

/-- A compiled preview, and what there is to say about it. -/
structure Preview where
  markup : List Char
  diagnostics : List Diagnostic

def Preview.toJson (preview : Preview) : Json :=
  .object
    [ ("markup", .string (String.ofList preview.markup)),
      ("diagnostics", .array (preview.diagnostics.map Diagnostic.toJson)) ]

/-! ## What is rendered -/

/-- The most blocks that are rendered: what the options allow, or less if the schema does. -/
def blockCap (schema? : Option Schema) (options : PreviewOptions) : Nat :=
  match schema?.bind Schema.maxBlocks with
  | some cap => min cap options.maxBlocks
  | none => options.maxBlocks

/-- A value of a request, unless its JSON is larger than the limit. -/
def withinLimit {α : Type} (kind : PayloadKind) (codec : Json.Codec α) (none : α) (limit : Nat)
    (value : α) : α × List Diagnostic :=
  let size := payloadSize codec value
  if limit < size then (none, [.payloadTooLarge kind size limit]) else (value, [])

/-- The values of the settings: those of the request, or else the defaults. -/
def selectSettings (schema? : Option Schema) (request : PreviewRequest) (options : PreviewOptions) :
    SettingValues × List Diagnostic :=
  match request.settings, schema? with
  | some settings, _ =>
    withinLimit .settings settingValuesCodec .empty options.maxPayloadBytes settings
  | none, some schema => (initialValues schema.settings, [])
  | none, none => (.empty, [])

/-- The blocks: those of the request, or else those of the first preset if the options say so. -/
def selectBlocks (schema? : Option Schema) (request : PreviewRequest) (options : PreviewOptions) :
    List BlockInstance × List Diagnostic :=
  match request.blocks, schema? with
  | some blocks, _ =>
    withinLimit .blocks blockInstancesCodec [] options.maxPayloadBytes blocks
  | none, some schema => (if options.usePresetBlocks then schema.presetBlocks 0 else [], [])
  | none, none => ([], [])

/-- The blocks up to the cap. -/
def capBlocks (cap : Nat) (blocks : List BlockInstance) : List BlockInstance × List Diagnostic :=
  if cap < blocks.length then (blocks.take cap, [.blocksTruncated blocks.length cap])
  else (blocks, [])

/-! ## The markup -/

/-- The template with variables and copies in place of all that a plain reader does not know, and
the number of loops that were left. -/
def flattenTemplate (cap : Nat) (pickers : Pickers) (template : List Char) : List Char × Nat :=
  let unrolled := unroll cap pickers (stripSchema template)
  let body := flattenBlockCount (flattenSettings pickers unrolled.template)
  (stripImageFilters body, unrolled.nested)

def PreviewRequest.resolveSectionId (request : PreviewRequest) (options : PreviewOptions) :
    String :=
  let id := request.sectionId.getD options.sectionId
  if isSectionId id.toList then id else defaultSectionId

def PreviewOptions.resolveClass (options : PreviewOptions) : String :=
  if isSectionId options.containerClass.toList then options.containerClass
  else defaultContainerClass

/-- The body in its container, with the styles of the container after it. -/
def wrapBody (className sectionId : String) (body : List Char) : List Char :=
  let opening := "<div class=\"" ++ className ++ "\" id=\"shopify-section-" ++ sectionId ++ "\">\n"
  let fonts := "-apple-system, BlinkMacSystemFont, 'Segoe UI', Roboto, sans-serif"
  let styles :=
    "<style>\n." ++ className ++ " \x7b font-family: " ++ fonts ++ "; \x7d\n." ++ className ++
      " img \x7b max-width: 100%; height: auto; \x7d\n</style>"
  opening.toList ++ body ++ "\n</div>\n".toList ++ styles.toList

/-- Compiles a template into markup that a plain reader renders: statements that bind every
variable, and after them the flat template in its container. -/
def compilePreview (template : List Char) (request : PreviewRequest) (options : PreviewOptions) :
    Preview :=
  let (schema?, schemaNotes) := Schema.withDiagnostics template
  let cap := blockCap schema? options
  let (settings, settingsNotes) := selectSettings schema? request options
  let (selected, blocksNotes) := selectBlocks schema? request options
  let (blocks, capNotes) := capBlocks cap selected
  let pickers := (schema?.map Pickers.ofSchema).getD .empty
  let (body, nested) := flattenTemplate cap pickers template
  let resources := resourceBindings request.resources
  let values := settingBindings settings ++ blockBindings blocks
  let statements := (resources.statements ++ values.statements).map Statement.render
  let container := wrapBody options.resolveClass (request.resolveSectionId options) body
  { markup := List.intercalate ['\n'] statements ++ '\n' :: container
    diagnostics :=
      schemaNotes ++ settingsNotes ++ blocksNotes ++ capNotes ++
        List.replicate nested .nestedLoop ++ resources.rejected.map .invalidHandle ++
        values.rejected.map .invalidIdentifier }

end FlatLiquid
