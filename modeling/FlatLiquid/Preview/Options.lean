import FlatLiquid.Schema.Definition
import FlatLiquid.Statement.Flattening
import FlatLiquid.Text.Quoted

/-!
Contract: what a preview is asked for.

Owns:
- the options of the compiler and what makes them unusable;
- the request for one preview;
- the form of both in JSON.
-/

namespace FlatLiquid

open Json (Codec Field Shape)

/-- The number of copies of a loop, unless an option or a schema says otherwise. -/
def defaultMaxBlocks : Nat := 10

/-- The greatest size of a payload, unless an option says otherwise. -/
def defaultMaxPayloadBytes : Nat := 4096

/-- The class of the container, unless an option says otherwise. -/
def defaultContainerClass : String := "sectional-preview"

/-- The section id of a preview, unless an option or a request says otherwise. -/
def defaultSectionId : String := "preview"

/-- Options for unrolling alone. -/
structure UnrollOptions where
  maxBlocks : Nat

structure PreviewOptions where
  /-- Copies of a loop, and the most blocks that are rendered. -/
  maxBlocks : Nat
  /-- Settings or blocks whose JSON is larger are ignored. -/
  maxPayloadBytes : Nat
  containerClass : String
  /-- The section id of a preview whose request has none. -/
  sectionId : String
  /-- A request without blocks gets those of the first preset. -/
  usePresetBlocks : Bool

/-- The request for one preview. -/
structure PreviewRequest where
  /-- The values of the settings; the defaults if there are none. -/
  settings : Option SettingValues
  /-- The blocks; those of a preset if there are none. -/
  blocks : Option (List BlockInstance)
  resources : ResourceContext
  sectionId : Option String

/-- Options that leave everything as it is. -/
def UnrollOptions.default : UnrollOptions := ⟨defaultMaxBlocks⟩

/-- Options that leave everything as it is. -/
def PreviewOptions.default : PreviewOptions where
  maxBlocks := defaultMaxBlocks
  maxPayloadBytes := defaultMaxPayloadBytes
  containerClass := defaultContainerClass
  sectionId := defaultSectionId
  usePresetBlocks := true

/-- A request that asks for nothing in particular. -/
def PreviewRequest.blank : PreviewRequest := ⟨none, none, .empty, none⟩

/-! ## Unusable options -/

/-- Why options cannot be used. -/
inductive OptionsFault where
  | noBlocks
  | containerClass (text : String)
  | sectionId (text : String)

def OptionsFault.text : OptionsFault → String
  | .noBlocks => "Config error: max_blocks must be at least 1"
  | .containerClass text =>
    "Config error: container_class " ++ Text.quoted text ++ " must match [A-Za-z0-9_-]\x7b1,64\x7d"
  | .sectionId text =>
    "Config error: section_id " ++ Text.quoted text ++ " must match [A-Za-z0-9_-]\x7b1,64\x7d"

/-- The first fault of the options. -/
def PreviewOptions.fault? (options : PreviewOptions) : Option OptionsFault :=
  if options.maxBlocks == 0 then some .noBlocks
  else if !isSectionId options.containerClass.toList then
    some (.containerClass options.containerClass)
  else if !isSectionId options.sectionId.toList then some (.sectionId options.sectionId)
  else none

/-! ## Shapes -/

/-- Counts and sizes. -/
def sizeCodec : Codec Nat := .natural 64 "usize"

def UnrollOptions.shape : Shape UnrollOptions where
  name := "UnrollOptions"
  blank := .default
  fields :=
    [ .plain "max_blocks" sizeCodec UnrollOptions.maxBlocks
        fun options maxBlocks => { options with maxBlocks := maxBlocks } ]

def PreviewOptions.shape : Shape PreviewOptions where
  name := "CompileOptions"
  blank := .default
  fields :=
    [ .plain "max_blocks" sizeCodec PreviewOptions.maxBlocks
        fun options maxBlocks => { options with maxBlocks := maxBlocks },
      .plain "max_payload_bytes" sizeCodec PreviewOptions.maxPayloadBytes
        fun options bytes => { options with maxPayloadBytes := bytes },
      .plain "container_class" .text PreviewOptions.containerClass
        fun options name => { options with containerClass := name },
      .plain "section_id" .text PreviewOptions.sectionId
        fun options id => { options with sectionId := id },
      .plain "use_preset_blocks" .bool PreviewOptions.usePresetBlocks
        fun options use => { options with usePresetBlocks := use } ]

def ResourceContext.shape : Shape ResourceContext where
  name := "ResourceContext"
  blank := .empty
  fields :=
    [ .optional "product_handle" .text ResourceContext.product
        fun context handle => { context with product := handle },
      .optional "collection_handle" .text ResourceContext.collection
        fun context handle => { context with collection := handle } ]

/-- Requests in JSON. The resources stand beside the other fields, and a request may not be written
as an array. -/
def PreviewRequest.shape : Shape PreviewRequest where
  name := "PreviewRequest"
  blank := .blank
  fields :=
    [ .optional "settings" settingValuesCodec PreviewRequest.settings
        fun request settings => { request with settings := settings },
      .optional "blocks" (.list BlockInstance.shape.codec) PreviewRequest.blocks
        fun request blocks => { request with blocks := blocks },
      .optional "product_handle" .text (fun request => request.resources.product)
        fun request handle =>
          { request with resources := { request.resources with product := handle } },
      .optional "collection_handle" .text (fun request => request.resources.collection)
        fun request handle =>
          { request with resources := { request.resources with collection := handle } },
      .optional "section_id" .text PreviewRequest.sectionId
        fun request id => { request with sectionId := id } ]

end FlatLiquid
