import Courier.Bus.Publish

/-!
# Capturing messages

An outbox captures what a bus publishes: instead of going to the transport, the message becomes a
row of a repository.  A message that carries the mark of a forwarder loses the mark and goes on, and
so does a message of a type that the outbox does not capture.
-/

namespace Courier

/-- Which messages an outbox captures; `ρ` stands for a way to refer to a repository. -/
structure Capture (ρ : Type) where
  repository : ρ
  /-- The captured types; none stands for all. -/
  types : Option (List MessageType) := none
deriving Repr, Inhabited

/-- The row of a captured message: nobody holds a lease on it. -/
def Publication.toRow (p : Publication) (id : RowId) (now : Instant) : Row :=
  { id, busName := p.busName, path := p.path, messageType := p.messageType, payload := p.payload,
    headers := p.headers, timestamp := now }

namespace Capture

variable {ρ : Type}

/-- Whether messages of a type are captured. -/
def captures (c : Capture ρ) (type : MessageType) : Bool :=
  match c.types with
  | none => true
  | some types => types.contains type

/-- What an outbox does with a message. -/
inductive Choice
  /-- It lets the message go on like this. -/
  | pass (p : Publication)
  /-- It wants the message stored as a row. -/
  | store
deriving Repr, Inhabited

/-- What the outbox does with a message. -/
def choose (c : Capture ρ) (p : Publication) : Choice :=
  if p.headers.contains skipOutboxHeader then
    .pass { p with headers := p.headers.erase skipOutboxHeader }
  else if c.captures p.messageType then .store
  else .pass p

/-- The answer of the outbox to the bus once the row has been stored or not. -/
def stored : Except Failure Unit → Except Failure Decision
  | .ok () => .ok .handled
  | .error cause => .error cause

/-- Ask the outbox about a publication.  What it stores gets an id, and the time at which it was
captured. -/
def ask {f : Type → Type} [Monad f] (save : ρ → Row → f (Except Failure Unit)) (draw : f RowId)
    (clock : f Instant) (c : Capture ρ) (p : Publication) :
    f (Except Failure Decision × Publication) :=
  match c.choose p with
  | .pass p => pure (.ok .proceed, p)
  | .store => do
    let row := p.toRow (← draw) (← clock)
    let result ← save c.repository row
    return (stored result, p)

end Capture
end Courier
