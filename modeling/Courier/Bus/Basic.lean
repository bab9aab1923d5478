import Courier.Message.Envelope
import Courier.Message.Serializer
import Courier.Outbox.SendingTask
import Courier.Pending.Sweeper
import Courier.Settings
import Courier.Transport.Memory

/-!
# Buses

A bus knows which types of messages it produces and where they go by default, how it writes them,
who looks at a message before it goes out, and who is told when it starts and stops.  It is built
from a plan, which is refused if it is incomplete or contradicts itself.

The parameters stand for ways to refer to things outside a bus: `τ` to a transport, `ι` to a publish
interceptor and `κ` to an observer of its lifecycle.
-/

namespace Courier

/-- A type of messages that a bus produces. -/
structure Producer where
  messageType : MessageType
  /-- Where messages go unless the caller says otherwise. -/
  defaultPath : Option String := none
  /-- How long a request of this type waits for its response unless the caller says otherwise. -/
  timeout : Option Span := none
deriving DecidableEq, Repr, Inhabited

/-- What a bus is to be built from. -/
structure BusPlan (τ ι κ : Type) where
  name : Option String := none
  transport : Option τ := none
  serializer : Serializer := .json
  producers : List Producer := []
  requestResponse : Option RequestResponseSettings := none
  pendingRequests : PendingRequestSettings := {}
  publishInterceptors : List ι := []
  observers : List κ := []

/-- A message bus. -/
structure Bus (τ ι κ : Type) where
  name : Option String
  transport : τ
  serializer : Serializer
  producers : List Producer
  requestResponse : Option RequestResponseSettings
  publishInterceptors : List ι
  observers : List κ
  /-- The sweeps of its pending requests. -/
  sweeper : Sweeper
  started : Bool := false
  disposing : Bool := false
  disposed : Bool := false

namespace BusPlan

variable {τ ι κ : Type}

/-- The plan with the sections of a configuration that concern a bus. -/
def configured (p : BusPlan τ ι κ) (c : RuntimeConfig) : BusPlan τ ι κ :=
  { p with
    pendingRequests := c.pendingRequests
    requestResponse := c.requestResponse <|> p.requestResponse }

/-- The first message type that is declared twice. -/
def duplicate? : List MessageType → List Producer → Option MessageType
  | _, [] => none
  | seen, p :: rest =>
    if seen.contains p.messageType then some p.messageType
    else duplicate? (p.messageType :: seen) rest

/-- Why the settings of a plan are refused, if they are. -/
def validateSettings (p : BusPlan τ ι κ) : Except Failure Unit :=
  match p.requestResponse with
  | none => p.pendingRequests.validate
  | some s =>
    match s.validate with
    | .error cause => .error cause
    | .ok () => p.pendingRequests.validate

/-- Build the bus of a plan; its sweeper is not started yet. -/
def build (p : BusPlan τ ι κ) : Except Failure (Bus τ ι κ) :=
  match p.transport with
  | none => .error (.configuration (.missing "transport"))
  | some transport =>
    match duplicate? [] p.producers with
    | some type => .error (.configuration (.duplicateProducer type.name))
    | none =>
      match p.validateSettings with
      | .error cause => .error cause
      | .ok () =>
        .ok {
          name := p.name, transport, serializer := p.serializer, producers := p.producers
          requestResponse := p.requestResponse, publishInterceptors := p.publishInterceptors
          observers := p.observers, sweeper := { interval := p.pendingRequests.sweepInterval } }

end BusPlan

namespace Bus

variable {τ ι κ : Type}

/-- Whether the bus has neither been disposed nor begun to be. -/
def isActive (b : Bus τ ι κ) : Bool := !b.disposing && !b.disposed

/-- Refuse to work once the bus is being disposed. -/
def requireActive (b : Bus τ ι κ) : Except Failure Unit :=
  if b.isActive then .ok () else .error (.configuration .busNotActive)

/-- What is declared about a message type. -/
def producer? (b : Bus τ ι κ) (type : MessageType) : Option Producer :=
  b.producers.find? fun p => p.messageType == type

/-- Whether a message type is declared as produced. -/
def declares (b : Bus τ ι κ) (type : MessageType) : Bool := (b.producer? type).isSome

/-- What is declared about a message type, which has to be declared. -/
def producer (b : Bus τ ι κ) (type : MessageType) : Except Failure Producer :=
  match b.producer? type with
  | some p => .ok p
  | none => .error (.configuration (.unknownProducer type.name))

end Bus

/-- Where a message goes: to the path that the caller gives, or else to the default one. -/
def Producer.path (p : Producer) : Option String → Except Failure String
  | some path => .ok path
  | none =>
    match p.defaultPath with
    | some path => .ok path
    | none => .error (.configuration (.missingDefaultPath p.messageType.name))

/-- How headers go to a transport: beside the payload, or with it in an envelope.  Headers have no
order of their own, so an envelope lists them as they happen to be found. -/
structure Packing where
  /-- Whether headers travel beside the payload. -/
  nativeHeaders : Bool
  /-- Headers in the order in which an envelope lists them. -/
  listed : Headers → Headers := id
  listed_perm : ∀ h, (listed h).Perm h := by exact fun h => List.Perm.refl h

/-- Headers are listed by name. -/
def Packing.byName (nativeHeaders : Bool) : Packing := { nativeHeaders }

instance : Coe Bool Packing := ⟨Packing.byName⟩

/-- The message as a transport takes it.  A transport that carries no headers gets an envelope in
place of the payload. -/
def TransportMessage.wrap (packing : Packing) (m : TransportMessage) : TransportMessage :=
  if packing.nativeHeaders then m
  else
    { m with
      payload := (Envelope.mk (packing.listed m.headers) m.payload).toBytes, headers := [] }

/-- The failure of a transport as the bus reports it: cancellation and failures to produce stay as
they are, and every other cause becomes a failure to produce. -/
def TransportMessage.reported (m : TransportMessage) : Failure → Failure
  | .cancelled => .cancelled
  | .produceFailed path type message => .produceFailed path type message
  | cause => .produceFailed m.path m.messageType.name cause.message

namespace Text

/-- Settings of request/response in a description. -/
def describedSettings : Option RequestResponseSettings → String
  | none => "None"
  | some s =>
    "Some(" ++ describedRecord "RequestResponseSettings"
      [("path", described s.path), ("timeout", s.timeout.describe)] ++ ")"

end Text

/-- The bus in words. -/
def Bus.describe {τ ι κ : Type} (b : Bus τ ι κ) : String :=
  Text.describedRecord "MessageBus"
    [("name", Text.describedOption b.name), ("producers", toString b.producers.length),
      ("request_response", Text.describedSettings b.requestResponse),
      ("started", toString b.started)]

end Courier
