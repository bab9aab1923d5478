import Courier.Json.Printer
import Courier.Message.Basic

/-!
# Serializers

The serializer of a bus turns messages into payloads and back; both may depend on the type of the
message.  The one used unless a bus says otherwise writes JSON, and refuses an empty payload by name
of the message type.
-/

namespace Courier

/-- How the messages of a bus are written. -/
structure Serializer where
  /-- The payload of a message; some serializers do not ask for its type. -/
  serialize : (message : Json) → (type : MessageType := ⟨""⟩) → Except SerializationFailure Bytes
  /-- The message of a payload. -/
  deserialize : MessageType → Bytes → Except SerializationFailure Json

namespace Serializer

/-- Messages of all types are written as JSON. -/
def json : Serializer where
  serialize message _ := .ok message.toBytes
  deserialize type payload :=
    if payload.isEmpty then .error (.emptyPayload type.name)
    else match Json.parse payload with
      | .ok v => .ok v
      | .error f => .error (.json f)

/-- Writing always fails with this failure; reading works as for JSON. -/
def refusing (cause : SerializationFailure) : Serializer where
  serialize _ _ := .error cause
  deserialize := json.deserialize

instance : Inhabited Serializer := ⟨json⟩

end Serializer
end Courier
