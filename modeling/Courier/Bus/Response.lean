import Courier.Bus.Publish

/-!
# Responses

A responder answers a request by its headers: the response goes to the address to reply to and
carries the id of the request.  An error travels in a header beside an empty payload.

A response that arrives resolves the slot of its request and ends the wait.  Nothing happens for a
request that is not pending, and for a response that does not name one.
-/

namespace Courier.Bus

variable {τ ι κ : Type}

/-- The header of a request that its response depends on. -/
def requiredHeader (headers : Headers) (name : String) : Except Failure String :=
  match headers.find? name with
  | some value => .ok value
  | none => .error (.validation (.required name))

/-- The response to a request with these headers, ready for the transport. -/
def responseTo (b : Bus τ ι κ) (nativeHeaders : Bool) (requestHeaders : Headers)
    (type : MessageType) (response : Except String Json) : Except Failure TransportMessage := do
  b.requireActive
  let id ← requiredHeader requestHeaders requestIdHeader
  let path ← requiredHeader requestHeaders replyToHeader
  let headers : Headers := Dictionary.insert requestIdHeader id []
  match response with
  | .error message =>
    let m : TransportMessage := {
      messageType := type, path, payload := [], headers := headers.insert errorHeader message }
    return m.wrap nativeHeaders
  | .ok value =>
    match b.serializer.serialize value type with
    | .error cause => throw (.serialization cause)
    | .ok payload =>
      let m : TransportMessage := { messageType := type, path, payload, headers }
      return m.wrap nativeHeaders

/-- The outcome that a response brings. -/
def outcomeOf (b : Bus τ ι κ) (responseType : MessageType) (payload : Bytes)
    (error : Option String) : Outcome :=
  match error with
  | some message => .fault message
  | none =>
    match b.serializer.deserialize responseType payload with
    | .ok value => .response value
    | .error cause => .failed (.serialization cause)

/-- A response for a request has arrived. -/
def onResponse (b : Bus τ ι κ) (store : PendingStore) (id : RequestId) (payload : Bytes)
    (error : Option String) : PendingStore :=
  match store.find? id with
  | none => store
  | some r =>
    let (store, _) := store.resolve r.slot (b.outcomeOf r.responseType payload error)
    store.remove id

/-- A response has arrived with its headers beside it. -/
def onResponseMessage (b : Bus τ ι κ) (store : PendingStore) (payload : Bytes)
    (headers : Headers) : PendingStore :=
  match headers.find? requestIdHeader with
  | none => store
  | some text =>
    match RequestId.ofText text with
    | .ok id => b.onResponse store id payload (headers.find? errorHeader)
    | .error _ => store

/-- A response has arrived in an envelope. -/
def onResponseEnvelope (b : Bus τ ι κ) (store : PendingStore) (envelope : Bytes) :
    Except Failure PendingStore :=
  match Envelope.ofBytes envelope with
  | .error cause => .error (.serialization cause)
  | .ok e => .ok (b.onResponseMessage store e.payload e.headers)

end Courier.Bus
