import FlatLiquid.Schema.Definition

/-!
Contract: settings and blocks as a caller sends them.

Owns:
- the limit on the size of a payload;
- the reading of settings and of blocks, and what can be wrong with a payload.
-/

namespace FlatLiquid

/-- What a payload holds. -/
inductive PayloadKind where
  | settings
  | blocks
deriving DecidableEq, Repr

def PayloadKind.name : PayloadKind → String
  | .settings => "settings"
  | .blocks => "blocks"

/-- Why a payload cannot be used. -/
inductive PayloadFault where
  | tooLarge (size limit : Nat)
  | malformed (kind : PayloadKind) (report : Json.Report)

def PayloadFault.text : PayloadFault → String
  | .tooLarge size limit => s!"Payload of {size} bytes exceeds limit of {limit} bytes"
  | .malformed kind report => s!"Payload error: {kind.name}: {report.text}"

/-- Block instances in JSON. -/
def blockInstancesCodec : Json.Codec (List BlockInstance) := .list BlockInstance.shape.codec

/-- Reads a payload of at most `limit` bytes. -/
def readPayload {α : Type} (kind : PayloadKind) (codec : Json.Codec α) (payload : String)
    (limit : Nat) : Except PayloadFault α :=
  if limit < payload.utf8ByteSize then .error (.tooLarge payload.utf8ByteSize limit)
  else (codec.parse payload.toList).mapError (.malformed kind)

def readSettings (payload : String) (limit : Nat) : Except PayloadFault SettingValues :=
  readPayload .settings settingValuesCodec payload limit

def readBlocks (payload : String) (limit : Nat) : Except PayloadFault (List BlockInstance) :=
  readPayload .blocks blockInstancesCodec payload limit

/-- The values of settings; none if the payload cannot be used. -/
def settingsOrNone (payload : String) (limit : Nat) : SettingValues :=
  (readSettings payload limit).toOption.getD .empty

/-- Block instances; none if the payload cannot be used. -/
def blocksOrNone (payload : String) (limit : Nat) : List BlockInstance :=
  (readBlocks payload limit).toOption.getD []

/-- The size of a value as a payload without blanks. -/
def payloadSize {α : Type} (codec : Json.Codec α) (value : α) : Nat :=
  (codec.write value).compact.utf8ByteSize

end FlatLiquid
