import Courier.Failure
import Courier.Json.Basic

/-!
# Completion slots

A slot takes the outcome of one request.  The first resolution wins, later ones change nothing, and
the one who waits takes the outcome once.

Main statements: `resolve_of_resolved` (a resolved slot stays as it is) and
`resolve_of_unresolved` (an unresolved one takes the outcome).
-/

namespace Courier

/-- Why a request was given up without a response. -/
inductive CancelReason
  | timedOut
  | cancelled
deriving DecidableEq, Repr, Inhabited

/-- What becomes of a request. -/
inductive Outcome
  /-- A response arrived. -/
  | response (value : Json)
  /-- The responder reported an error. -/
  | fault (message : String)
  /-- Nobody waits any longer. -/
  | cancelled (reason : CancelReason)
  /-- A response arrived that cannot be read. -/
  | failed (cause : Failure)
deriving Repr, Inhabited

/-- The place of one outcome. -/
structure Slot where
  /-- The outcome, once there is one. -/
  outcome : Option Outcome := none
  /-- Whether the outcome has been taken. -/
  taken : Bool := false
  /-- Whether somebody can still take it. -/
  awaited : Bool := true
  /-- Whether somebody can still resolve the slot. -/
  resolvable : Bool := true
deriving Repr, Inhabited

/-- What the waiting side finds. -/
inductive Received
  /-- There is no outcome yet. -/
  | empty
  /-- There is no outcome left, or there will never be one. -/
  | closed
  /-- Nobody waits. -/
  | dropped
  | outcome (o : Outcome)
deriving Repr, Inhabited

namespace Slot

/-- Whether the slot has an outcome. -/
def isResolved (s : Slot) : Bool := s.outcome.isSome

/-- Resolve the slot unless it has an outcome already; says whether this outcome won. -/
def resolve (s : Slot) (o : Outcome) : Slot × Bool :=
  if s.isResolved then (s, false) else ({ s with outcome := some o }, true)

/-- Take what there is to take. -/
def receive (s : Slot) : Slot × Received :=
  if s.awaited then
    match s.outcome with
    | none => (s, if s.resolvable then .empty else .closed)
    | some o => if s.taken then (s, .closed) else ({ s with taken := true }, .outcome o)
  else (s, .dropped)

/-- The waiting side goes away. -/
def abandon (s : Slot) : Slot := { s with awaited := false }

/-- The resolving side goes away. -/
def close (s : Slot) : Slot := { s with resolvable := false }

theorem resolve_of_resolved {s : Slot} (o : Outcome) (h : s.isResolved = true) :
    s.resolve o = (s, false) := by
  simp [resolve, h]

theorem resolve_of_unresolved {s : Slot} (o : Outcome) (h : s.isResolved = false) :
    s.resolve o = ({ s with outcome := some o }, true) := by
  simp [resolve, h]

end Slot
end Courier
