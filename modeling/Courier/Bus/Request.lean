import Courier.Bus.Publish

/-!
# Requests

A request is registered before it goes to the transport, and its sender then waits for the outcome
of its slot or for its own token, the outcome first.  `Request` says what the sender waits for;
`produced` takes the answer of the transport and `poll` looks at the slot.

The headers of a request are those of the caller, with the three that belong to the bus set over
them: the id, the instant of expiry and the address to reply to.
-/

namespace Courier

/-- What the caller of a request may choose. -/
structure RequestOptions where
  path : Option String := none
  timeout : Option Span := none
  headers : Headers := []
deriving Repr, Inhabited

namespace Request

/-- What the sender of a request waits for. -/
inductive Stage
  /-- The transport. -/
  | producing (message : TransportMessage)
  /-- The outcome. -/
  | waiting
  | ended (result : Except Failure Json)
deriving Inhabited

end Request

/-- A request under way. -/
structure Request where
  id : RequestId
  slot : SlotIndex
  token : Token
  /-- What the response has to be. -/
  response : Contract
  stage : Request.Stage

/-- What is needed to make a request. -/
structure RequestDraft where
  token : Token
  request : Contract
  response : Contract
  message : Json
  options : RequestOptions

namespace Bus

variable {τ ι κ : Type}

/-- Whether a request may be made at all: the bus has to be active and to await responses, and the
token must not be cancelled. -/
def admitRequest (b : Bus τ ι κ) (isCancelled : Bool) :
    Except Failure RequestResponseSettings := do
  b.requireActive
  match b.requestResponse with
  | none => throw (.configuration .requestResponseNotConfigured)
  | some settings => if isCancelled then throw .cancelled else return settings

/-- How long a request waits: as the caller, the producer or the bus says, in this order. -/
def requestTimeout (settings : RequestResponseSettings) (p : Producer) (o : RequestOptions) :
    Span :=
  (o.timeout <|> p.timeout).getD settings.timeout

/-- The headers of a request as they go out. -/
def requestHeaders (settings : RequestResponseSettings) (headers : Headers) (id : RequestId)
    (expires : Instant) : Headers :=
  ((headers.insert requestIdHeader id.text).insert expiresHeader expires.headerText).insert
    replyToHeader settings.path

/-- Register a request and make it ready for the transport. -/
def openRequest (b : Bus τ ι κ) (nativeHeaders : Bool) (settings : RequestResponseSettings)
    (store : PendingStore) (id : RequestId) (now : Instant) (d : RequestDraft) :
    Except Failure (PendingStore × Request) := do
  let producer ← b.producer d.request.type
  let path ← producer.path d.options.path
  let expires := now.add (requestTimeout settings producer d.options)
  let write : Except SerializationFailure (Json × Bytes) := do
    let value ← d.request.write d.message
    let payload ← b.serializer.serialize value d.request.type
    return (value, payload)
  match write with
  | .error cause => throw (.serialization cause)
  | .ok (value, payload) =>
    let (store, slot) := store.newSlot
    let store ← store.add {
      id, request := value, requestType := d.request.type, responseType := d.response.type
      created := now, expires, token := d.token, slot, keptBySender := true }
    let message : TransportMessage := {
      messageType := d.request.type, path, payload
      headers := requestHeaders settings d.options.headers id expires }
    return (store, { id, slot, token := d.token, response := d.response,
                     stage := .producing (message.wrap nativeHeaders) })

end Bus

namespace Request

/-- The result of a request with this outcome. -/
def resultOf (r : Request) : Received → Except Failure Json
  | .outcome (.response value) =>
    match r.response.read value with
    | .ok message => .ok message
    | .error cause => .error (.serialization cause)
  | .outcome (.fault message) => .error (.requestFaulted message)
  | .outcome (.cancelled .timedOut) => .error (.requestTimeout r.id.text)
  | .outcome (.cancelled .cancelled) => .error .cancelled
  | .outcome (.failed cause) => .error cause
  | .closed | .empty | .dropped => .error .cancelled

/-- The transport has answered; a request that did not go out is no longer pending. -/
def produced (r : Request) (store : PendingStore) (message : TransportMessage) :
    Except Failure Unit → PendingStore × Request
  | .ok () => (store, { r with stage := .waiting })
  | .error cause =>
    (store.remove r.id, { r with stage := .ended (.error (message.reported cause)) })

/-- Look at the slot.  Without an outcome a cancelled token resolves the slot and ends the
request. -/
def poll (r : Request) (store : PendingStore) (isCancelled : Bool) : PendingStore × Request :=
  match store.receive r.slot with
  | (store, .empty) =>
    if isCancelled then
      let (store, _) := store.resolve r.slot (.cancelled .cancelled)
      let (store, received) := (store.remove r.id).receive r.slot
      (store, { r with stage := .ended (r.resultOf received) })
    else (store, r)
  | (store, received) => (store, { r with stage := .ended (r.resultOf received) })

end Request
end Courier
