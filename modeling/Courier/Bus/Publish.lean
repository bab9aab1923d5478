import Courier.Bus.Basic
import Courier.Message.Contract

/-!
# Publishing

A publish checks what it needs, writes the message, shows it to every interceptor in turn and hands
it to the transport.  An interceptor may change what it is shown, take the message over, or fail;
the last two end the publish.

`Publish` says what a publish under way waits for, so that anything may happen between two steps;
`run` carries a publish to its end with given interceptors and a given transport.

Main statements: `run_intercepting` and `run_producing` (a run is made of the answers one by one).
-/

namespace Courier

/-- A message on its way through the interceptors of a bus. -/
structure Publication where
  busName : Option String
  messageType : MessageType
  path : String
  payload : Bytes
  headers : Headers
deriving DecidableEq, Repr, Inhabited

/-- What an interceptor wants to happen next. -/
inductive Decision
  /-- The message goes on. -/
  | proceed
  /-- The interceptor has taken the message over. -/
  | handled
deriving DecidableEq, Repr, Inhabited

/-- The publication as a message for a transport. -/
def Publication.toMessage (p : Publication) : TransportMessage :=
  { messageType := p.messageType, path := p.path, payload := p.payload, headers := p.headers }

/-- A publish under way. -/
inductive Publish (ι : Type)
  /-- It waits for an interceptor; others follow. -/
  | intercepting (p : Publication) (next : ι) (rest : List ι)
  /-- It waits for the transport. -/
  | producing (m : TransportMessage)
  | ended (result : Except Failure Unit)

namespace Publish

variable {ι : Type}

/-- Offer a publication to interceptors, and then to the transport. -/
def offer (packing : Packing) (p : Publication) : List ι → Publish ι
  | [] => .producing (p.toMessage.wrap packing)
  | i :: rest => .intercepting p i rest

/-- An interceptor has answered. -/
def intercepted (packing : Packing) (p : Publication) (rest : List ι) :
    Except Failure Decision → Publish ι
  | .ok .proceed => offer packing p rest
  | .ok .handled => .ended (.ok ())
  | .error cause => .ended (.error cause)

/-- The transport has answered. -/
def produced (m : TransportMessage) (result : Except Failure Unit) : Publish ι :=
  .ended (result.mapError m.reported)

/-- Show a publication to interceptors until it is ended or may go to the transport. -/
def intercept {f : Type → Type} [Monad f]
    (ask : ι → Publication → f (Except Failure Decision × Publication)) (packing : Packing)
    (p : Publication) : List ι → f (Except (Except Failure Unit) TransportMessage)
  | [] => pure (.ok (p.toMessage.wrap packing))
  | i :: rest => do
    match ← ask i p with
    | (.ok .proceed, p) => intercept ask packing p rest
    | (.ok .handled, _) => pure (.error (.ok ()))
    | (.error cause, _) => pure (.error (.error cause))

/-- Carry a publish to its end. -/
def run {f : Type → Type} [Monad f]
    (ask : ι → Publication → f (Except Failure Decision × Publication))
    (produce : TransportMessage → f (Except Failure Unit)) (packing : Packing) :
    Publish ι → f (Except Failure Unit)
  | .ended result => pure result
  | .producing m => do return (← produce m).mapError m.reported
  | .intercepting p next rest => do
    match ← intercept ask packing p (next :: rest) with
    | .error result => pure result
    | .ok m => do return (← produce m).mapError m.reported

/-- A publish that waits for an interceptor goes on with its answer. -/
theorem run_intercepting {f : Type → Type} [Monad f] [LawfulMonad f]
    (ask : ι → Publication → f (Except Failure Decision × Publication))
    (produce : TransportMessage → f (Except Failure Unit)) (packing : Packing)
    (p : Publication) (next : ι) (rest : List ι) :
    run ask produce packing (.intercepting p next rest) = (do
      let answer ← ask next p
      run ask produce packing (intercepted packing answer.2 rest answer.1)) := by
  rw [run, intercept, bind_assoc]
  congr 1
  funext answer
  obtain ⟨answer, p⟩ := answer
  match answer, rest with
  | .ok .proceed, [] => simp [intercepted, offer, intercept, run]
  | .ok .proceed, _ :: _ => rfl
  | .ok .handled, _ => simp [intercepted, run]
  | .error _, _ => simp [intercepted, run]

/-- A publish that waits for the transport ends with its answer. -/
theorem run_producing {f : Type → Type} [Monad f] [LawfulMonad f]
    (ask : ι → Publication → f (Except Failure Decision × Publication))
    (produce : TransportMessage → f (Except Failure Unit)) (packing : Packing)
    (m : TransportMessage) :
    run ask produce packing (.producing m) = (do
      let answer ← produce m
      run ask produce packing (produced m answer)) := rfl

end Publish

/-- Begin to publish a message: the bus has to be active, the token not cancelled, the type declared
and the path known, and the message has to be writable. -/
def Bus.publication {τ ι κ : Type} (b : Bus τ ι κ) (isCancelled : Bool) (type : MessageType)
    (message : Json) (path : Option String) (headers : Headers) : Except Failure Publication := do
  b.requireActive
  if isCancelled then throw .cancelled
  let producer ← b.producer type
  let path ← producer.path path
  match b.serializer.serialize message type with
  | .error cause => throw (.serialization cause)
  | .ok payload => return { busName := b.name, messageType := type, path, payload, headers }

/-- Publish a message that is given as a value. -/
def Bus.publish {τ ι κ : Type} (b : Bus τ ι κ) (packing : Packing) (isCancelled : Bool)
    (type : MessageType) (message : Json) (path : Option String) (headers : Headers) : Publish ι :=
  match b.publication isCancelled type message path headers with
  | .error cause => .ended (.error cause)
  | .ok p => Publish.offer packing p b.publishInterceptors

/-- Forward a row of an outbox: its payload is read and published again, marked so that no outbox
captures it. -/
def Bus.forward {τ ι κ : Type} (b : Bus τ ι κ) (packing : Packing) (isCancelled : Bool) (r : Row) :
    Publish ι :=
  match b.serializer.deserialize r.messageType r.payload with
  | .error cause => .ended (.error (.serialization cause))
  | .ok message =>
    b.publish packing isCancelled r.messageType message (some r.path)
      (r.headers.insert skipOutboxHeader "")

/-- Publish a typed message. -/
def Bus.publishTyped {τ ι κ : Type} (b : Bus τ ι κ) (packing : Packing) (isCancelled : Bool)
    (contract : Contract) (message : Json) (path : Option String) : Publish ι :=
  match contract.write message with
  | .error cause => .ended (.error (.serialization cause))
  | .ok value => b.publish packing isCancelled contract.type value path []

end Courier
