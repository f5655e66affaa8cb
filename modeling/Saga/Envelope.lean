import Saga.Error
import Saga.Json.Printer
import Saga.Json.Record

/-!
# Envelopes

An envelope is an outbound message: how it is delivered, the name of its type and its payload. A
`Payload` instance says how the values of a type become payloads and are read back.
-/

namespace Saga

/-- How an outbound message is delivered: to one receiver, or to whoever subscribed. -/
inductive MessageKind where
  | command | notification
  deriving DecidableEq, Repr

/-- The name of a kind in written envelopes. -/
def MessageKind.label : MessageKind → String
  | command => "command"
  | notification => "notification"

/-- An outbound message. -/
structure Envelope where
  kind : MessageKind
  messageType : String
  payload : Json
  deriving DecidableEq

/-- The values that can be sent: the name of their type, how they are written and read back. -/
class Payload (α : Type) where
  typeName : String
  encode : α → Except Json.Fault Json
  decode : Json → Except Json.Fault α

namespace Envelope

variable {α : Type} [Payload α]

/-- The envelope of a value. Payloads are canonical. -/
def encode (kind : MessageKind) (value : α) : Except EngineError Envelope :=
  match Payload.encode value with
  | .ok payload => .ok ⟨kind, Payload.typeName α, payload.canonical⟩
  | .error fault => .error (.json fault)

/-- The envelope of a value sent to one receiver. -/
def command (value : α) : Except EngineError Envelope := encode .command value

/-- The envelope of a value sent to its subscribers. -/
def notification (value : α) : Except EngineError Envelope := encode .notification value

/-- Reads the payload back as a value of type `α`. -/
def decode (α : Type) [Payload α] (e : Envelope) : Except EngineError α :=
  match Payload.decode e.payload with
  | .ok value => .ok value
  | .error fault => .error (.json fault)

/-- The written form of an envelope. -/
def toJson (e : Envelope) : Json :=
  .obj [("kind", .str e.kind.label), ("message_type", .str e.messageType), ("payload", e.payload)]

end Envelope

/-- The kind of a name. -/
def MessageKind.ofLabel (label : String) : Except Json.Fault MessageKind :=
  if label = "command" then .ok .command
  else if label = "notification" then .ok .notification
  else .error (.unknownVariant label)

/-- Reads a kind from its name, or from an object with the name as its one field and null in it. -/
def MessageKind.ofJson : Json → Except Json.Fault MessageKind
  | .str label => MessageKind.ofLabel label
  | .obj [(label, .null)] => MessageKind.ofLabel label
  | _ => .error (.expected "a message kind")

/-- Reads an envelope from its written form. -/
def Envelope.ofJson (v : Json) : Except Json.Fault Envelope := do
  match ← v.slots ["kind", "message_type", "payload"] with
  | [kind, messageType, payload] =>
    return {
      kind := ← kind.required MessageKind.ofJson
      messageType := ← messageType.required Json.asText
      payload := ← payload.required (Json.asValue 1)
    }
  | _ => throw .malformed

end Saga
