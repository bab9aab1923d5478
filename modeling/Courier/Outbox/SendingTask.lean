import Courier.Outbox.Forwarder
import Courier.Text.Described

/-!
# Sending tasks

A sending task owns the outbox loop of one instance.  It knows the started buses by name, starts a
forwarder when the first of them starts, and stops it when the last one stops.

A stop takes the running forwarder out of the task, cancels its token and waits for its end.  The
task remembers every forwarder it ever started, so that what happens to one that was taken out can
be followed.

Main statements: `register_find?` (a registered bus is found under its name) and
`start_of_current` (while a forwarder is in its place no second one is started).
-/

namespace Courier

/-- What a bus tells about itself. -/
inductive LifecycleEvent
  | started
  | stopping
deriving DecidableEq, Repr, Inhabited

/-- The outbox loop of one instance; `β` stands for a way to refer to a bus. -/
structure SendingTask (β : Type) where
  settings : OutboxSettings
  /-- The owner of the leases. -/
  inst : String
  /-- The buses that can be reached, by name; no name stands for the unnamed bus. -/
  buses : List (Option String × β) := []
  /-- How many buses have started and not stopped. -/
  startCount : Nat := 0
  /-- The earliest time of the next cleanup, after the first one. -/
  cleanupNext : Option Instant := none
  /-- All forwarders so far, oldest first. -/
  forwarders : List (Forwarder β) := []
  /-- The place of the forwarder that a stop would end. -/
  current : Option Nat := none

namespace SendingTask

variable {β : Type}

/-- A task with settings that are in order. -/
def create (settings : OutboxSettings) (inst : String) : Except Failure (SendingTask β) :=
  match settings.validate with
  | .error cause => .error cause
  | .ok () => .ok { settings, inst }

/-! ## Buses -/

/-- Make a bus reachable under its name. -/
def register (t : SendingTask β) (name : Option String) (bus : β) : SendingTask β :=
  { t with buses := t.buses.filter (fun e => e.1 != name) ++ [(name, bus)] }

/-- Make the bus of a name unreachable. -/
def unregister (t : SendingTask β) (name : Option String) : SendingTask β :=
  { t with buses := t.buses.filter fun e => e.1 != name }

/-- The bus under a name, whether it is alive or not. -/
def find? (t : SendingTask β) (name : Option String) : Option β :=
  (t.buses.find? fun e => e.1 == name).map (·.2)

/-- The bus that a row has to be delivered through: the one of its name, and for a row without a
name the unnamed bus or else the only one there is.  A bus that is no longer alive is none. -/
def route (t : SendingTask β) (isAlive : β → Bool) (name : Option String) : Option β :=
  match (t.find? name).filter isAlive with
  | some bus => some bus
  | none =>
    match name, t.buses with
    | none, [(_, only)] => (some only).filter isAlive
    | _, _ => none

/-! ## The loop -/

/-- A forwarder that was started. -/
def forwarder? (t : SendingTask β) (i : Nat) : Option (Forwarder β) := t.forwarders[i]?

/-- A forwarder after a step. -/
def setForwarder (t : SendingTask β) (i : Nat) (f : Forwarder β) : SendingTask β :=
  { t with forwarders := t.forwarders.set i f }

/-- Whether the forwarder that a stop would end is alive. -/
def isRunning (t : SendingTask β) : Bool :=
  match t.current.bind t.forwarder? with
  | some f => !f.isEnded
  | none => false

/-- Start a forwarder under a token of its own, unless one has its place; gives its number. -/
def start (t : SendingTask β) (token : Token) : SendingTask β × Option Nat :=
  match t.current with
  | some _ => (t, none)
  | none =>
    ({ t with forwarders := t.forwarders ++ [{ token }], current := some t.forwarders.length },
      some t.forwarders.length)

/-- Take the forwarder out of its place; its token has to be cancelled and its end awaited. -/
def takeCurrent (t : SendingTask β) : SendingTask β × Option Nat :=
  ({ t with current := none }, t.current)

/-! ## Lifecycle of buses -/

/-- A bus has started; says whether the loop has to be started. -/
def busStarted (t : SendingTask β) (name : Option String) (bus : β) : SendingTask β × Bool :=
  ({ t.register name bus with startCount := t.startCount + 1 }, t.startCount == 0)

/-- A bus is stopping; says whether the loop has to be stopped. -/
def busStopping (t : SendingTask β) (name : Option String) : SendingTask β × Bool :=
  ({ t.unregister name with startCount := t.startCount - 1 }, t.startCount == 1)

/-- The task in words. -/
def describe (t : SendingTask β) : String :=
  Text.describedRecord "OutboxSendingTask"
    [("instance_id", Text.described t.inst), ("bus_start_count", toString t.startCount),
      ("running", toString t.isRunning)]

theorem register_find? (t : SendingTask β) (name : Option String) (bus : β) :
    (t.register name bus).find? name = some bus := by
  have h : List.find? (fun e => e.1 == name) (t.buses.filter fun e => e.1 != name) = none := by
    simp [List.find?_eq_none]
  simp [register, find?, List.find?_append, h]

theorem start_of_current {t : SendingTask β} {i : Nat} (token : Token) (h : t.current = some i) :
    t.start token = (t, none) := by
  simp [start, h]

end SendingTask
end Courier
