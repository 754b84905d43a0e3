import FlatLiquid.Preview.Payload
import FlatLiquid.Schema.Parsing

/-!
Contract: what a preview reports beside its markup.

Owns:
- the diagnostics, each with its cause;
- their severity, kind and wording.

Nothing that an author writes stops a preview. Whatever is left out shows here.
-/

namespace FlatLiquid

/-- How serious a diagnostic is: `info` if the output was capped as asked for, `warning` if
something was left out. -/
inductive Severity where
  | info
  | warning
deriving DecidableEq, Repr

def Severity.name : Severity → String
  | .info => "info"
  | .warning => "warning"

/-- Something that a caller may want to know about a preview. -/
inductive Diagnostic where
  | unnamedSchema
  | malformedSchema (fault : SchemaFault)
  | nestedLoop
  | payloadTooLarge (kind : PayloadKind) (size limit : Nat)
  | invalidIdentifier (key : String)
  | blocksTruncated (supplied rendered : Nat)
  | invalidHandle (handle : String)

namespace Diagnostic

/-- Only capped output is mere information. -/
def severity : Diagnostic → Severity
  | .blocksTruncated _ _ => .info
  | _ => .warning

def kindName : Diagnostic → String
  | .unnamedSchema => "missing_schema_name"
  | .malformedSchema _ => "malformed_schema"
  | .nestedLoop => "nested_block_loop"
  | .payloadTooLarge _ _ _ => "payload_too_large"
  | .invalidIdentifier _ => "invalid_identifier"
  | .blocksTruncated _ _ => "blocks_truncated"
  | .invalidHandle _ => "invalid_handle"

def message : Diagnostic → String
  | .unnamedSchema => "Schema missing required \"name\" field"
  | .malformedSchema fault => fault.text
  | .nestedLoop => "Block loop contains another loop and was left as written"
  | .payloadTooLarge kind size limit =>
    s!"{kind.name} payload of {size} bytes exceeds {limit} bytes and was ignored"
  | .invalidIdentifier key => "Rejected " ++ Text.quoted key
  | .blocksTruncated supplied rendered =>
    s!"{supplied} blocks supplied, only the first {rendered} are rendered"
  | .invalidHandle handle => "Rejected " ++ Text.quoted handle

/-- The wording of a diagnostic after its severity. -/
def text (diagnostic : Diagnostic) : String :=
  diagnostic.severity.name ++ ": " ++ diagnostic.message

def toJson (diagnostic : Diagnostic) : Json :=
  .object
    [ ("severity", .string diagnostic.severity.name),
      ("kind", .string diagnostic.kindName),
      ("message", .string diagnostic.message) ]

end Diagnostic

/-- What there is to say about a schema that can be read. -/
def Schema.diagnostics (schema : Schema) : List Diagnostic :=
  if schema.isUnnamed then [.unnamedSchema] else []

/-- The schema of a template, and what there is to say about it. A schema that cannot be read counts
as none. -/
def Schema.withDiagnostics (template : List Char) : Option Schema × List Diagnostic :=
  match Schema.read template with
  | .ok (some schema) => (some schema, schema.diagnostics)
  | .ok none => (none, [])
  | .error fault => (none, [.malformedSchema fault])

end FlatLiquid
