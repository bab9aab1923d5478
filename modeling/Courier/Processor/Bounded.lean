import Courier.Message.Basic
import Courier.Processor.Result
import Courier.Text.Described
import Courier.Time.Span

/-!
# Processing in the background

A processor that handles up to a fixed number of messages at once.  Every call asks for a permit and
waits until it has one.  A call with a permit first reports the failure of an earlier message, if
one is recorded, in place of handing on its own message; otherwise it hands its message to the
background, and the permit goes with it.

A failure is recorded only while neither the failure nor the message of an earlier one is still
kept; the two halves are given out separately, the failure to the next call with a permit and the
message to whoever takes it.

A permit that is given back goes straight to the call that has waited longest.

Each function is one step of the processor; calls and background tasks may interleave in any way
between them.  `permits_decide` and its companions say that permits are conserved.
-/

namespace Courier

/-- A message whose processing failed. -/
structure FailedMessage (μ : Type) where
  message : μ
  headers : Headers
  consumer : Option String
deriving Repr

/-- Names one call of a processor. -/
abbrev Ticket := Nat

/-- A message in the background. -/
structure Background (μ : Type) where
  ticket : Ticket
  message : μ
  headers : Headers
deriving Repr

/-- How the processing of a message in the background ends. -/
inductive Ending
  | returned (result : ProcessResult)
  /-- The inner processor broke off, with this report. -/
  | brokeOff (report : String)
deriving Repr, Inhabited

/-- A processor of bounded concurrency. -/
structure Bounded (μ : Type) where
  /-- How many messages are handled at once. -/
  concurrency : Nat
  concurrency_gt : 1 < concurrency
  /-- How often a call that waits for the background looks at it. -/
  pollInterval : Span := ⟨200000000⟩
  /-- Permits that nobody holds. -/
  free : Nat
  /-- Calls without a permit, first come first. -/
  waiting : List Ticket := []
  /-- Calls that hold a permit and have not used it yet. -/
  granted : List Ticket := []
  /-- The count of messages in the background. -/
  pending : Nat := 0
  /-- The messages in the background. -/
  background : List (Background μ) := []
  /-- The recorded failure, until a call reports it. -/
  error : Option (Failure × Option String) := none
  /-- The message of the recorded failure, until somebody takes it. -/
  failed : Option (FailedMessage μ) := none

namespace Bounded

variable {μ : Type}

/-- A processor without calls and with all permits free. -/
def create (concurrency : Nat) : Except Failure (Bounded μ) :=
  if h : 1 < concurrency then
    .ok { concurrency, concurrency_gt := h, free := concurrency }
  else
    .error (.invalid ("concurrency must be greater than 1, got " ++ toString concurrency))

/-! ## Permits -/

/-- A call asks for a permit; without a free one it waits. -/
def ask (p : Bounded μ) (t : Ticket) : Bounded μ :=
  match p.free with
  | n + 1 => { p with free := n, granted := p.granted ++ [t] }
  | 0 => { p with waiting := p.waiting ++ [t] }

/-- Whether a call holds a permit that it has not used yet. -/
def isGranted (p : Bounded μ) (t : Ticket) : Bool := p.granted.contains t

/-- A permit comes back; the call that has waited longest gets it. -/
def giveBack (p : Bounded μ) : Bounded μ :=
  match p.waiting with
  | t :: rest => { p with waiting := rest, granted := p.granted ++ [t] }
  | [] => { p with free := p.free + 1 }

/-- A call goes away before it used a permit; one that it holds comes back. -/
def withdraw (p : Bounded μ) (t : Ticket) : Bounded μ :=
  if p.isGranted t then giveBack { p with granted := p.granted.erase t }
  else { p with waiting := p.waiting.erase t }

/-! ## Calls -/

/-- A call uses its permit: it reports a recorded failure and gives the permit back, or it hands its
message to the background. -/
def decide (p : Bounded μ) (t : Ticket) (message : μ) (headers : Headers) :
    Bounded μ × ProcessResult :=
  match p.error with
  | some (cause, consumer) =>
    (giveBack { p with granted := p.granted.erase t, error := none },
      { error := some cause, consumer })
  | none =>
    ({ p with
        granted := p.granted.erase t
        pending := p.pending + 1
        background := p.background ++ [⟨t, message, headers⟩] }, .pending)

/-! ## The background -/

/-- The failure with which a message ended, and its consumer. -/
def Ending.failure? : Ending → Option (Failure × Option String)
  | .returned r => r.error.map fun cause => (cause, r.consumer)
  | .brokeOff report => some (.processingFailed ("message processor panicked: " ++ report), none)

/-- Record the failure of a message, unless an earlier one is still kept. -/
def record (p : Bounded μ) (job : Background μ) (ending : Ending) : Bounded μ :=
  match Ending.failure? ending with
  | none => p
  | some (cause, consumer) =>
    match p.error, p.failed with
    | none, none =>
      { p with
        error := some (cause, consumer)
        failed := some ⟨job.message, job.headers, consumer⟩ }
    | _, _ => p

/-- The message of a call leaves the background. -/
def leave (p : Bounded μ) (t : Ticket) : Bounded μ :=
  { p with
    pending := p.pending - 1
    background := p.background.filter fun job => job.ticket != t }

/-- A message in the background ends: its failure is recorded first, then it is no longer pending,
then its permit comes back. -/
def complete (p : Bounded μ) (job : Background μ) (ending : Ending) : Bounded μ :=
  giveBack (leave (record p job ending) job.ticket)

/-- How long a call that waits for the background sleeps before it looks again; with nothing to wait
for it returns. -/
def pause? (p : Bounded μ) : Option Span :=
  if p.pending = 0 then none else some p.pollInterval

/-! ## Failures -/

/-- Take the message whose processing failed. -/
def takeFailure (p : Bounded μ) : Bounded μ × Option (FailedMessage μ) :=
  ({ p with failed := none }, p.failed)

/-- The processor in words. -/
def describe (p : Bounded μ) : String :=
  Text.describedRecord "ConcurrencyBoundedProcessor"
    [("concurrency", toString p.concurrency), ("available_permits", toString p.free),
      ("pending", toString p.pending)]

/-! ## Conservation of permits -/

/-- Permits wherever they are: free, with calls, or with messages in the background. -/
def permits (p : Bounded μ) : Nat := p.free + p.granted.length + p.background.length

theorem permits_giveBack (p : Bounded μ) : (giveBack p).permits = p.permits + 1 := by
  unfold giveBack permits
  split
  · simp only [List.length_append, List.length_singleton]
    omega
  · simp only
    omega

theorem permits_ask (p : Bounded μ) (t : Ticket) : (p.ask t).permits = p.permits := by
  unfold ask permits
  split
  · simp_all only [List.length_append, List.length_singleton]
    omega
  · rfl

theorem permits_withdraw (p : Bounded μ) (t : Ticket) : (p.withdraw t).permits = p.permits := by
  unfold withdraw isGranted
  split
  · rename_i h
    have h : t ∈ p.granted := by simpa using h
    have := List.length_pos_of_mem h
    rw [permits_giveBack]
    simp [permits, List.length_erase_of_mem h]
    omega
  · rfl

theorem permits_decide (p : Bounded μ) (t : Ticket) (message : μ) (headers : Headers)
    (h : t ∈ p.granted) : (p.decide t message headers).1.permits = p.permits := by
  have := List.length_pos_of_mem h
  unfold decide
  split
  · simp only [permits_giveBack]
    simp [permits, List.length_erase_of_mem h]
    omega
  · simp [permits, List.length_erase_of_mem h]
    omega

end Bounded
end Courier
