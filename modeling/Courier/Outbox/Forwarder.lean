import Courier.Cancellation
import Courier.Outbox.Call
import Courier.Settings

/-!
# Forwarders

A forwarder is one run of the loop that delivers the rows of an outbox.  Round after round it leases
a batch, reads what it has leased, forwards each row through the bus that the row names, and
confirms what was delivered.  Rows that it cannot deliver are given back, and what it has forwarded
but not confirmed is kept for the next confirmation.  A round that moved nothing is followed by a
pause, and before the pause old rows are cleaned up when it is time.

The stage of a forwarder says what it does next: it decides something on its own, or it waits for
the answer to one call.  `decide` performs a decision, `call?` gives the call of the repository that
is waited for, and `answered` and `forwarded` take an answer.  The time and the token are looked at
in every decision, so they may change between any two stages.
-/

namespace Courier

/-- How the forwarding of one batch went. -/
inductive BatchResult
  /-- The whole batch was dealt with. -/
  | drained
  /-- The rest of the batch was left for another round. -/
  | stopped
  /-- Forwarding a row failed in a way that may pass. -/
  | failed (cause : Failure)
deriving DecidableEq, Repr, Inhabited

namespace Forwarder

/-- What a forwarder does next; `β` stands for a way to refer to a bus. -/
inductive Stage (β : Type)
  /-- It waits for the repository to be prepared. -/
  | migrating
  /-- It decides whether to begin a round. -/
  | ready
  /-- It waits for a lease up to `expires`. -/
  | locking (expires : Instant)
  /-- It decides whether to read another batch. -/
  | draining (idle : Bool)
  /-- It waits for a batch. -/
  | finding (idle : Bool)
  /-- It decides what becomes of the next row. -/
  | sending (idle : Bool) (rows : List Row)
  /-- It waits for the delivery of a row. -/
  | forwarding (idle : Bool) (bus : β) (row : Row) (rest : List Row)
  /-- It decides what has to be told to the repository after a batch. -/
  | settling (idle : Bool) (result : BatchResult)
  /-- It waits for the confirmation of what was sent. -/
  | confirming (idle : Bool) (result : BatchResult)
  /-- It waits until the rows that it cannot deliver are given back. -/
  | releasing (idle : Bool) (result : BatchResult) (retryAfter : Instant)
  /-- It decides whether to clean up. -/
  | resting
  /-- It waits for the removal of old rows. -/
  | deleting (olderThan : Instant)
  /-- It waits for the end of a pause or for its token. -/
  | pausing
  | ended
deriving Inhabited

end Forwarder

/-- One run of the outbox loop. -/
structure Forwarder (β : Type) where
  token : Token
  stage : Forwarder.Stage β := .migrating
  /-- Rows forwarded and not yet confirmed. -/
  sent : List RowId := []
  /-- Rows that cannot be delivered here and have not been given back yet. -/
  skipped : List RowId := []

namespace Forwarder

variable {β : Type}

/-- What a forwarder sees when it decides. -/
structure View (β : Type) where
  settings : OutboxSettings
  now : Instant
  isCancelled : Bool
  /-- The bus that a row has to be delivered through. -/
  route : Option String → Option β

/-- Whether a forwarder has come to its end. -/
def isEnded (f : Forwarder β) : Bool :=
  match f.stage with
  | .ended => true
  | _ => false

/-- A round has failed: a cancelled one ends the loop, any other failure counts as idle. -/
def roundFailed (f : Forwarder β) (cause : Failure) : Forwarder β :=
  { f with stage := if cause.isCancellation then .ended else .resting }

/-- A round is over. -/
def roundOver (f : Forwarder β) (idle : Bool) : Forwarder β :=
  { f with stage := if idle then .resting else .ready }

/-! ## Decisions -/

/-- Whether the lease of a row lasts long enough to forward the row now. -/
def leaseSuffices (settings : OutboxSettings) (now : Instant) (r : Row) : Bool :=
  match r.lockExpires with
  | none => false
  | some expires => !decide (expires < now.add settings.lockExpirationBuffer)

/-- What becomes of the next row of a batch. -/
def decideRow (v : View β) (f : Forwarder β) (idle : Bool) : List Row → Forwarder β
  | [] => { f with stage := .settling idle .drained }
  | row :: rest =>
    if v.isCancelled || !leaseSuffices v.settings v.now row then
      { f with stage := .settling idle .stopped }
    else match v.route row.busName with
      | none => { f with skipped := f.skipped ++ [row.id], stage := .sending idle rest }
      | some bus => { f with stage := .forwarding idle bus row rest }

/-- What has to be told to the repository after a batch. -/
def decideSettling (v : View β) (f : Forwarder β) (idle : Bool) (result : BatchResult) :
    Forwarder β :=
  if !f.sent.isEmpty then { f with stage := .confirming idle result }
  else if !f.skipped.isEmpty then
    { f with stage := .releasing idle result (v.now.add v.settings.lockExpiration) }
  else match result with
    | .drained => { f with stage := .draining idle }
    | .stopped => f.roundOver idle
    | .failed cause => f.roundFailed cause

/-- Whether it is time to clean up: `next` is the earliest time, if there was a cleanup before. -/
def isCleanupDue (settings : CleanupSettings) (next : Option Instant) (now : Instant) : Bool :=
  settings.enabled && match next with
    | none => true
    | some next => decide (next < now)

/-- One decision.  `cleanupNext` is the mark of the next cleanup, which outlives the forwarder; it
is moved before the removal is attempted. -/
def decide (v : View β) (f : Forwarder β) (cleanupNext : Option Instant) :
    Forwarder β × Option Instant :=
  match f.stage with
  | .ready =>
    if v.isCancelled then ({ f with stage := .ended }, cleanupNext)
    else ({ f with stage := .locking (v.now.add v.settings.lockExpiration) }, cleanupNext)
  | .draining idle =>
    if v.isCancelled then (f.roundOver idle, cleanupNext)
    else ({ f with stage := .finding idle }, cleanupNext)
  | .sending idle rows => (f.decideRow v idle rows, cleanupNext)
  | .settling idle result => (f.decideSettling v idle result, cleanupNext)
  | .resting =>
    if isCleanupDue v.settings.cleanup cleanupNext v.now then
      ({ f with stage := .deleting (v.now.sub v.settings.cleanup.age) },
        some (v.now.add v.settings.cleanup.interval))
    else ({ f with stage := .pausing }, cleanupNext)
  | _ => (f, cleanupNext)

/-! ## Calls and answers -/

/-- The call that a forwarder waits for, if it waits for the repository. -/
def call? (f : Forwarder β) (inst : String) : Option RepositoryCall :=
  match f.stage with
  | .migrating => some .migrate
  | .locking expires => some (.tryToLock inst expires)
  | .finding _ => some (.findNextToSend inst)
  | .confirming .. => some (.updateToSent f.sent)
  | .releasing _ _ retryAfter => some (.release inst f.skipped retryAfter)
  | .deleting olderThan => some (.deleteSent olderThan)
  | _ => none

/-- The repository has answered.  A loop that cannot prepare the repository ends before it began;
what could not be confirmed or given back is kept for another time; and of a cleanup only a
cancellation matters. -/
def answered (f : Forwarder β) (answer : RepositoryAnswer) : Forwarder β :=
  match f.stage, answer with
  | .migrating, .failed _ => { f with stage := .ended }
  | .migrating, _ => { f with stage := .ready }
  | .locking _, .failed cause => f.roundFailed cause
  | .locking _, .count 0 => f.roundOver true
  | .locking _, _ => { f with stage := .draining true }
  | .finding _, .failed cause => f.roundFailed cause
  | .finding idle, .rows (row :: rest) => { f with stage := .sending idle (row :: rest) }
  | .finding idle, _ => f.roundOver idle
  | .confirming .., .failed cause => f.roundFailed cause
  | .confirming _ result, _ => { f with sent := [], stage := .settling false result }
  | .releasing .., .failed cause => f.roundFailed cause
  | .releasing _ result _, _ => { f with skipped := [], stage := .settling false result }
  | .deleting _, .failed cause =>
    { f with stage := if cause.isCancellation then .ended else .pausing }
  | .deleting _, _ => { f with stage := .pausing }
  | _, _ => f

/-- A row has been forwarded or not.  Failures that may pass, and cancellation, end the batch; a row
that fails in any other way cannot be delivered here. -/
def forwarded (f : Forwarder β) (idle : Bool) (row : Row) (rest : List Row) :
    Except Failure Unit → Forwarder β
  | .ok () => { f with sent := f.sent ++ [row.id], stage := .sending idle rest }
  | .error cause =>
    if cause.isTransient || cause.isCancellation then
      { f with stage := .settling idle (.failed cause) }
    else { f with skipped := f.skipped ++ [row.id], stage := .sending idle rest }

/-- A pause is over: it has lasted long enough, or the token is cancelled. -/
def resumed (f : Forwarder β) (isCancelled : Bool) : Forwarder β :=
  { f with stage := if isCancelled then .ended else .ready }

end Forwarder
end Courier
