import Courier.Base64
import Courier.Json.Printer
import Courier.Json.Record
import Courier.Message.Basic
import Courier.Time.Text

/-!
# Envelopes

A transport that carries no headers carries an envelope in place of the payload: a JSON object with
the headers and the payload in base 64.
-/

namespace Courier

/-- Headers and payload in one. -/
structure Envelope where
  headers : Headers := []
  payload : Bytes := []
deriving DecidableEq, Repr, Inhabited

namespace Envelope

/-- The envelope as a JSON value. -/
def toJson (e : Envelope) : Json :=
  .object [("headers", .ofTexts e.headers),
    ("payload", .text (String.ofList (Base64.encode e.payload)))]

/-- The envelope on the wire. -/
def toBytes (e : Envelope) : Bytes := e.toJson.toBytes

/-- The parts of an envelope found so far. -/
structure Parts where
  headers : Option Headers := none
  payload : Option Bytes := none

/-- A payload in base 64. -/
def payloadReader : Json.Reader Bytes := Json.textOf fun t => Base64.decode? t.toList

def fields : List (Json.Field Parts) :=
  [⟨"headers", fun p s =>
      match Json.texts s with
      | .error f => .error f
      | .ok (h, rest) => .ok ({ p with headers := some h }, rest), false⟩,
    ⟨"payload", fun p s =>
      match payloadReader s with
      | .error f => .error f
      | .ok (b, rest) => .ok ({ p with payload := some b }, rest), false⟩]

/-- Both parts have to be there. -/
def ofParts? (p : Parts) : Option Envelope := do
  let headers ← p.headers
  let payload ← p.payload
  some ⟨headers, payload⟩

/-- Read an envelope. -/
def reader : Json.Reader Envelope := Json.record fields {} ofParts?

/-- Read an envelope from the wire. -/
def ofBytes (b : Bytes) : Except SerializationFailure Envelope :=
  match Json.parseAs reader b with
  | .ok e => .ok e
  | .error f => .error (.json f)

/-- The envelope with a header set. -/
def setHeader (e : Envelope) (key value : String) : Envelope :=
  { e with headers := e.headers.insert key value }

/-- The value of a header. -/
def header? (e : Envelope) (key : String) : Option String := e.headers.find? key

/-- The instant in the expiry header, if there is one. -/
def expires (e : Envelope) : Except SerializationFailure (Option Instant) :=
  match e.header? expiresHeader with
  | none => .ok none
  | some text =>
    match Instant.read? text with
    | some t => .ok (some t)
    | none => .error (.invalidHeader expiresHeader)

end Envelope
end Courier
