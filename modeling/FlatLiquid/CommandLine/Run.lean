import FlatLiquid.CommandLine.Arguments
import FlatLiquid.CommandLine.Config
import FlatLiquid.CommandLine.Host
import FlatLiquid.Preview.Compile
import FlatLiquid.Schema.Editing
import FlatLiquid.Schema.Labels

/-!
Contract: one run of the program.

Owns:
- what each command makes of the files that it reads: a product, which is a text, where it goes, and
  notes beside it;
- the delivery of a product, which is the only thing that writes;
- the outcome of a run, with the wording of its failures.
-/

namespace FlatLiquid.CommandLine

/-- Why a run fails: a message, and a cause under it. -/
structure RunFault where
  message : String
  cause : Option String

def RunFault.plain (message : String) : RunFault := ⟨message, none⟩

def RunFault.during (activity cause : String) : RunFault := ⟨activity, some cause⟩

/-- The wording of a fault. Every line of the cause is indented. -/
def RunFault.text (fault : RunFault) : String :=
  match fault.cause with
  | none => "Error: " ++ fault.message ++ "\n"
  | some cause =>
    let lines := cause.splitOn "\n"
    "Error: " ++ fault.message ++ "\n\nCaused by:\n    " ++ "\n    ".intercalate lines ++ "\n"

/-- What a command makes: a text, the file that it goes to, and notes. Without a file the text goes
to the standard output. -/
structure Product where
  text : String
  target : Option String
  notes : List String

/-- What a run leaves: its exit code and its output. -/
structure Outcome where
  code : Nat
  output : String
  errors : String

/-- The outcome of a run that does not say anything. -/
def Outcome.usage : Outcome := ⟨2, "", ""⟩

/-! ## Reading -/

variable {m : Type → Type} [Monad m]

/-- An answer, or the fault that its failure comes to. -/
def orFault {α ε : Type} (fault : ε → RunFault) (answer : m (Except ε α)) :
    ExceptT RunFault m α :=
  ExceptT.mk do return (← answer).mapError fault

def readFile (host : Host m) (path : String) : ExceptT RunFault m String :=
  orFault (fun fault => .during ("reading " ++ path) fault.text) (host.read path)

def readTemplate (host : Host m) (path : String) : ExceptT RunFault m String :=
  orFault (fun fault => .during ("reading template " ++ path) fault.text) (host.read path)

def readPayloadFile {α : Type} (host : Host m) (path : String)
    (decode : String → Except PayloadFault α) : ExceptT RunFault m α := do
  let payload ← readFile host path
  orFault (fun fault => .during ("decoding " ++ path) fault.text) (pure (decode payload))

/-- A payload from a file, if one is named. -/
def readOptionalPayload {α : Type} (host : Host m) (path? : Option String)
    (decode : String → Except PayloadFault α) : ExceptT RunFault m (Option α) :=
  match path? with
  | none => pure none
  | some path => some <$> readPayloadFile host path decode

/-- What a fault of the configuration file comes to. -/
def configRunFault (fault : ConfigFault) : RunFault :=
  match fault with
  | .options fault => .plain fault.text
  | _ => .during ("parsing " ++ configFile) fault.text

/-- The options of the configuration file. Without one they are the defaults. -/
def loadOptions (host : Host m) : ExceptT RunFault m PreviewOptions := do
  if ← ExceptT.lift (host.isThere configFile) then
    let text ← readFile host configFile
    orFault configRunFault (pure (readConfig host.readDocument text))
  else pure .default

/-! ## Commands -/

def runPreview (host : Host m) (arguments : PreviewArguments) : ExceptT RunFault m Product := do
  let options ← loadOptions host
  let template ← readTemplate host arguments.template
  let limit := options.maxPayloadBytes
  let settings ← readOptionalPayload host arguments.settings fun payload =>
    readSettings payload limit
  let blocks ← readOptionalPayload host arguments.blocks fun payload => readBlocks payload limit
  let request : PreviewRequest :=
    { settings := settings
      blocks := blocks
      resources := ⟨arguments.product, arguments.collection⟩
      sectionId := arguments.sectionId }
  let preview := compilePreview template.toList request options
  if arguments.json then pure ⟨preview.toJson.indented, arguments.output, []⟩
  else
    pure ⟨String.ofList preview.markup, arguments.output, preview.diagnostics.map Diagnostic.text⟩

/-- Shows a schema, or the values that its settings start with. -/
def runSchema (host : Host m) (path : String) (asValues raw : Bool) :
    ExceptT RunFault m Product := do
  let template ← readTemplate host path
  let schema? ← orFault (fun fault => .plain fault.text) (pure (Schema.read template.toList))
  match schema? with
  | none => throw (.plain ("no schema block in " ++ path))
  | some schema =>
    let json :=
      if asValues then settingValuesCodec.write (initialValues schema.labelledSettings)
      else Schema.shape.codec.write (if raw then schema else schema.resolveLabels)
    pure ⟨json.indented, none, schema.diagnostics.map Diagnostic.text⟩

/-- Stores values as the defaults of a schema. -/
def runDefaults (host : Host m) (path valuesPath : String) (write : Bool) :
    ExceptT RunFault m Product := do
  let options ← loadOptions host
  let template ← readTemplate host path
  let values ← readPayloadFile host valuesPath fun payload =>
    readSettings payload options.maxPayloadBytes
  let update := storeDefaults template.toList values
  let notes := update.unsupported.map fun id => "skipped: " ++ id ++ " (resource setting)"
  pure ⟨String.ofList update.template, if write then some path else none, notes⟩

def runDiff (host : Host m) (path valuesPath : String) : ExceptT RunFault m Product := do
  let options ← loadOptions host
  let template ← readTemplate host path
  let values ← readPayloadFile host valuesPath fun payload =>
    readSettings payload options.maxPayloadBytes
  let changed := match Schema.ofTemplate? template.toList with
    | some schema => schema.changedValues values
    | none => .empty
  pure ⟨(settingValuesCodec.write changed).indented, none, []⟩

/-- What a command makes. Nothing is written yet. -/
def Command.product (host : Host m) : Command → ExceptT RunFault m Product
  | .preview arguments => runPreview host arguments
  | .schema template asValues raw => runSchema host template asValues raw
  | .defaults template values write => runDefaults host template values write
  | .diff template values => runDiff host template values

/-! ## Delivery -/

/-- Lines, each with its end. -/
def lineText (lines : List String) : String :=
  String.join (lines.map fun line => line ++ "\n")

/-- Delivers a product to its file or to the standard output, where a line end follows it. If the
file stands for a stream of the run, the product goes there after the notes, and no line end follows
it. -/
def Product.deliver (host : Host m) (product : Product) : m Outcome := do
  let notes := lineText product.notes
  match product.target with
  | none => return ⟨0, product.text ++ "\n", notes⟩
  | some path =>
    match ← host.write path product.text with
    | .ok none => return ⟨0, "", notes⟩
    | .ok (some .output) => return ⟨0, product.text, notes⟩
    | .ok (some .errors) => return ⟨0, "", notes ++ product.text⟩
    | .error fault =>
      return ⟨1, "", notes ++ (RunFault.during ("writing " ++ path) fault.text).text⟩

def Command.run (host : Host m) (command : Command) : m Outcome := do
  match ← (command.product host).run with
  | .ok product => product.deliver host
  | .error fault => return ⟨1, "", fault.text⟩

def run (host : Host m) (arguments : List String) : m Outcome :=
  match Command.ofArguments? arguments with
  | none => return .usage
  | some command => command.run host

end FlatLiquid.CommandLine
