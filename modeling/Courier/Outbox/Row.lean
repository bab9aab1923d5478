import Courier.Json.Printer
import Courier.Json.Record
import Courier.Message.Basic
import Courier.Outbox.RowId
import Courier.Time.Text

/-!
# Outbox rows

A row is a captured message together with the state of its delivery.  It is pending while nobody
holds a lease on it or the lease has run out, leased while an instance holds an unexpired lease, and
sent once it has a delivery time.  A row that an instance gave back stays pending for every other
instance at once, and for the one that gave it back only after its retry time.

`claimableBy` says who may lease a row and `leasedTo` who may forward it.
-/

namespace Courier

/-- A message captured for later delivery. -/
structure Row where
  id : RowId
  /-- The bus to deliver through; none stands for the unnamed bus. -/
  busName : Option String
  path : String
  messageType : MessageType
  payload : Bytes
  headers : Headers
  /-- The instance that holds the lease. -/
  lockInstance : Option String := none
  /-- When the lease runs out, or when the instance that gave the row back may retry. -/
  lockExpires : Option Instant := none
  /-- The instance that last gave the row back without delivering it. -/
  releasedBy : Option String := none
  deliveredOn : Option Instant := none
  /-- When the message was captured. -/
  timestamp : Instant
deriving DecidableEq

namespace Row

/-- Whether the row has been delivered. -/
def isSent (r : Row) : Bool := r.deliveredOn.isSome

/-- Whether an instance may lease the row at a time. -/
def claimableBy (r : Row) (inst : String) (now : Instant) : Bool :=
  if r.isSent then false
  else match r.lockInstance, r.lockExpires with
    | some owner, expires =>
      if owner = inst then true
      else match expires with
        | some e => decide (e < now)
        | none => true
    | none, some retryAfter =>
      if r.releasedBy = some inst then decide (retryAfter < now) else true
    | none, none => true

/-- Whether an instance holds an unexpired lease on the row at a time. -/
def leasedTo (r : Row) (inst : String) (now : Instant) : Bool :=
  !r.isSent && r.lockInstance = some inst &&
    match r.lockExpires with
    | some e => decide (now < e)
    | none => false

/-- The row under a lease. -/
def leased (r : Row) (inst : String) (expires : Instant) : Row :=
  { r with lockInstance := some inst, lockExpires := some expires, releasedBy := none }

/-- The row given back by an instance that may retry later. -/
def released (r : Row) (inst : String) (retryAfter : Instant) : Row :=
  { r with lockInstance := none, lockExpires := some retryAfter, releasedBy := some inst }

/-- The row with a delivery time; the first one stays. -/
def delivered (r : Row) (now : Instant) : Row :=
  match r.deliveredOn with
  | some _ => r
  | none => { r with deliveredOn := some now }

/-! ## Stored form -/

/-- An instant or nothing. -/
def instantJson : Option Instant → Json
  | none => .null
  | some t => .text t.documentText

/-- The row as it is stored: a byte is a number, and an instant is a text. -/
def toJson (r : Row) : Json :=
  .object [
    ("bus_name", .optionalText r.busName),
    ("delivered_on", instantJson r.deliveredOn),
    ("headers", .ofTexts r.headers),
    ("id", .text r.id.text),
    ("lock_expires_on", instantJson r.lockExpires),
    ("lock_instance_id", .optionalText r.lockInstance),
    ("message_type", .text r.messageType.name),
    ("path", .text r.path),
    ("payload", .list (r.payload.map fun b => .nat b.toNat)),
    ("released_by", .optionalText r.releasedBy),
    ("timestamp", .text r.timestamp.documentText)]

/-- The parts of a row found so far. -/
structure Parts where
  id : Option RowId := none
  busName : Option String := none
  path : Option String := none
  messageType : Option String := none
  payload : Option Bytes := none
  headers : Option Headers := none
  lockInstance : Option String := none
  lockExpires : Option Instant := none
  releasedBy : Option String := none
  deliveredOn : Option Instant := none
  timestamp : Option Instant := none

/-- A field of a row. -/
def field {α : Type} (name : String) (read : Json.Reader α) (put : Parts → α → Parts)
    (defaulted : Bool) : Json.Field Parts :=
  ⟨name, fun p s =>
    match read s with
    | .error f => .error f
    | .ok (x, rest) => .ok (put p x, rest), defaulted⟩

/-- An instant in its written form. -/
def instantReader : Json.Reader Instant := Json.textOf Instant.read?

/-- The fields of a row in the order of a list. -/
def fields : List (Json.Field Parts) := [
  field "id" (Json.textOf RowId.read?) (fun p x => { p with id := some x }) false,
  field "bus_name" (Json.optional Json.textValue) (fun p x => { p with busName := x }) false,
  field "path" Json.textValue (fun p x => { p with path := some x }) false,
  field "message_type" Json.textValue (fun p x => { p with messageType := some x }) false,
  field "payload" Json.byteList (fun p x => { p with payload := some x }) false,
  field "headers" Json.texts (fun p x => { p with headers := some x }) false,
  field "lock_instance_id" (Json.optional Json.textValue)
    (fun p x => { p with lockInstance := x }) false,
  field "lock_expires_on" (Json.optional instantReader)
    (fun p x => { p with lockExpires := x }) false,
  field "released_by" (Json.optional Json.textValue) (fun p x => { p with releasedBy := x }) true,
  field "delivered_on" (Json.optional instantReader)
    (fun p x => { p with deliveredOn := x }) false,
  field "timestamp" instantReader (fun p x => { p with timestamp := some x }) false]

/-- The row of its parts; those that may be absent are, the others have to be there. -/
def ofParts? (p : Parts) : Option Row := do
  let id ← p.id
  let path ← p.path
  let messageType ← p.messageType
  let payload ← p.payload
  let headers ← p.headers
  let timestamp ← p.timestamp
  some { id, busName := p.busName, path, messageType := ⟨messageType⟩, payload, headers,
         lockInstance := p.lockInstance, lockExpires := p.lockExpires, releasedBy := p.releasedBy,
         deliveredOn := p.deliveredOn, timestamp }

/-- Read a stored row. -/
def reader : Json.Reader Row := Json.record fields {} ofParts?

/-- Read a stored row from a document. -/
def ofBytes (b : Bytes) : Except SerializationFailure Row :=
  match Json.parseAs reader b with
  | .ok r => .ok r
  | .error f => .error (.json f)

end Row
end Courier
