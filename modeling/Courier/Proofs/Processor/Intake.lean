import Courier.Cancellation
import Courier.Processor.Bounded
import Courier.Proofs.Run

/-!
# A processor and its callers

Any number of callers use a processor of bounded concurrency at the same time, and its background
works beside them.  An intake is the processor with everybody who takes part: calls that ask for a
permit, that wait for it and go away while they wait, and messages in the background that begin,
end, fail or break off.  Each of them takes its steps in between those of the others.

The steps are those of the processor, cut where somebody else may come in between.  A call with a
permit first takes the recorded failure, and then it either gives its permit back or hands on its
message (`decide_eq`).  A message that ends has its failure recorded, then it leaves the background,
then its permit comes back (`complete_eq`).

An intake remembers what the inner processor was invoked with, and in which order failures were
recorded and calls went on with a permit.
-/

namespace Courier

namespace Bounded

variable {μ : Type}

/-- Take the recorded failure. -/
def takeError (p : Bounded μ) : Bounded μ × Option (Failure × Option String) :=
  ({ p with error := none }, p.error)

/-- A call gives back the permit that it holds. -/
def handBack (p : Bounded μ) (t : Ticket) : Bounded μ :=
  giveBack { p with granted := p.granted.erase t }

/-- A call hands its message to the background, and the permit with it. -/
def dispatch (p : Bounded μ) (t : Ticket) (message : μ) (headers : Headers) : Bounded μ :=
  { p with
    granted := p.granted.erase t
    pending := p.pending + 1
    background := p.background ++ [⟨t, message, headers⟩] }

/-- What a call does with its permit, in two steps. -/
theorem decide_eq (p : Bounded μ) (t : Ticket) (message : μ) (headers : Headers) :
    p.decide t message headers =
      match p.takeError with
      | (q, some (cause, consumer)) => (q.handBack t, { error := some cause, consumer })
      | (q, none) => (q.dispatch t message headers, .pending) := by
  cases h : p.error with
  | none => simp [decide, takeError, dispatch, h]
  | some failure => simp [decide, takeError, handBack, h]

/-- What happens when a message ends, in three steps. -/
theorem complete_eq (p : Bounded μ) (job : Background μ) (ending : Ending) :
    p.complete job ending = ((p.record job ending).leave job.ticket).giveBack := rfl

/-- The failure that is recorded when a message ends, if one is. -/
def recorded? (p : Bounded μ) (ending : Ending) : Option (Failure × Option String) :=
  match p.error, p.failed with
  | none, none => Ending.failure? ending
  | _, _ => none

/-! ## What a step leaves alone -/

variable {p : Bounded μ} {t : Ticket} {job : Background μ} {ending : Ending}

@[simp] theorem error_giveBack : p.giveBack.error = p.error := by
  unfold giveBack
  split <;> rfl

@[simp] theorem background_giveBack : p.giveBack.background = p.background := by
  unfold giveBack
  split <;> rfl

@[simp] theorem error_ask : (p.ask t).error = p.error := by
  unfold ask
  split <;> rfl

@[simp] theorem background_ask : (p.ask t).background = p.background := by
  unfold ask
  split <;> rfl

@[simp] theorem error_withdraw : (p.withdraw t).error = p.error := by
  unfold withdraw
  split <;> simp

@[simp] theorem background_withdraw : (p.withdraw t).background = p.background := by
  unfold withdraw
  split <;> simp

@[simp] theorem error_handBack : (p.handBack t).error = p.error := error_giveBack

@[simp] theorem background_handBack : (p.handBack t).background = p.background :=
  background_giveBack

@[simp] theorem background_record : (p.record job ending).background = p.background := by
  fun_cases p.record job ending <;> rfl

/-- A failure is recorded only if none is kept. -/
theorem error_eq_none_of_recorded? (h : p.recorded? ending ≠ none) : p.error = none := by
  cases herror : p.error with
  | none => rfl
  | some failure => simp [recorded?, herror] at h

/-- Afterwards the recorded failure is kept, or what was kept before. -/
theorem error_record : (p.record job ending).error = (p.recorded? ending).or p.error := by
  cases herror : p.error <;> cases hfailed : p.failed <;>
    cases hending : Ending.failure? ending <;>
      simp [record, recorded?, herror, hfailed, hending]

end Bounded

/-! ## Calls -/

namespace Intake

/-- How far a message has come since its call handed it on. -/
inductive Work
  /-- The inner processor has not been invoked. -/
  | queued
  | running
  /-- It has ended, and its failure is recorded if that is possible. -/
  | settled
  /-- It is not pending any more. -/
  | left
  /-- Its permit has come back. -/
  | finished
deriving DecidableEq

/-- How far a call has come. -/
inductive Stage
  /-- It has not asked for a permit. -/
  | called
  /-- It waits for its permit, or to go on with it. -/
  | asking
  /-- It has gone on with its permit and has taken what was recorded. -/
  | resumed (found : Option (Failure × Option String))
  /-- It has returned the failure that it took. -/
  | reported (cause : Failure) (consumer : Option String)
  /-- It has returned, for its token was cancelled. -/
  | refused
  /-- Its caller has given it up. -/
  | dropped
  /-- It has handed its message on and has returned. -/
  | dispatched (work : Work)

namespace Stage

/-- What the call has returned. -/
def result? : Stage → Option ProcessResult
  | .reported cause consumer => some { error := some cause, consumer }
  | .refused => some (.failed .cancelled)
  | .dispatched _ => some .pending
  | _ => none

/-- What the call has taken, if it has gone on with a permit. -/
def found? : Stage → Option (Option (Failure × Option String))
  | .resumed found => some found
  | .reported cause consumer => some (some (cause, consumer))
  | .dispatched _ => some none
  | _ => none

/-- The call can still go away. -/
def isWaiting : Stage → Bool
  | .called | .asking => true
  | _ => false

/-- The inner processor was invoked with the message of the call. -/
def hasBegun : Stage → Bool
  | .dispatched .queued => false
  | .dispatched _ => true
  | _ => false

/-- The message of the call is in the background. -/
def isPending : Stage → Bool
  | .dispatched .queued | .dispatched .running | .dispatched .settled => true
  | _ => false

end Stage

/-- A call with the message that it was made for. -/
structure Call (μ : Type) where
  message : μ
  headers : Headers
  token : Token
  stage : Stage := .called

/-- The message of a call in the background. -/
def Call.job {μ : Type} (c : Call μ) (t : Ticket) : Background μ := ⟨t, c.message, c.headers⟩

/-- Something that concerns the recorded failure. -/
inductive Moment (μ : Type)
  /-- A failure was recorded. -/
  | recorded (job : Background μ) (cause : Failure) (consumer : Option String)
  /-- A call went on with a permit. -/
  | resumed (t : Ticket)

end Intake

/-- A processor with its callers; the ticket of a call is its number. -/
structure Intake (μ : Type) where
  processor : Bounded μ
  tokens : Tokens := {}
  calls : List (Intake.Call μ) := []
  /-- What the inner processor was invoked with, oldest first. -/
  invoked : List (Background μ) := []
  /-- Recordings and resumptions, latest first. -/
  moments : List (Intake.Moment μ) := []

namespace Intake

variable {μ : Type}

/-- A processor that nobody has called. -/
def initial (p : Bounded μ) : Intake μ := { processor := p }

/-- The call of a ticket has come to a stage. -/
def withStage (s : Intake μ) (t : Ticket) (c : Call μ) (stage : Stage) : Intake μ :=
  { s with calls := s.calls.set t { c with stage } }

/-- The invocations of the inner processor for a ticket. -/
def invocations (s : Intake μ) (t : Ticket) : List (Background μ) :=
  s.invoked.filter fun job => job.ticket == t

/-- What can happen in an intake. -/
inductive Event (μ : Type)
  /-- Somebody cancels a token. -/
  | cancel (token : Token)
  /-- A message is to be processed. -/
  | call (message : μ) (headers : Headers) (token : Token)
  /-- A call asks for a permit. -/
  | ask (t : Ticket)
  /-- A call goes on with its permit and takes what is recorded. -/
  | resume (t : Ticket)
  /-- A call that took a failure gives its permit back and returns the failure. -/
  | report (t : Ticket)
  /-- A call that took nothing hands its message on and returns. -/
  | dispatch (t : Ticket)
  /-- A call that has no permit, or has not gone on with it, sees that its token is cancelled. -/
  | refuse (t : Ticket)
  /-- Such a call is given up by its caller. -/
  | drop (t : Ticket)
  /-- The inner processor is invoked with a message of the background. -/
  | begin (t : Ticket)
  /-- A message ends. -/
  | settle (t : Ticket) (ending : Ending)
  /-- A message leaves the background. -/
  | leave (t : Ticket)
  /-- The permit of a message comes back. -/
  | release (t : Ticket)
  /-- Somebody takes the message whose processing failed. -/
  | take

/-! ## Steps -/

/-- The state after the message `job` ended. -/
def afterEnding (s : Intake μ) (job : Background μ) (ending : Ending) : Intake μ :=
  { s with
    processor := s.processor.record job ending
    moments := match s.processor.recorded? ending with
      | none => s.moments
      | some (cause, consumer) => .recorded job cause consumer :: s.moments }

/-- One step of an intake. -/
inductive Step : Intake μ → Event μ → Intake μ → Prop
  | cancel {s : Intake μ} (token : Token) :
      Step s (.cancel token) { s with tokens := s.tokens.cancel token }
  | call {s : Intake μ} (message : μ) (headers : Headers) (token : Token) :
      Step s (.call message headers token)
        { s with calls := s.calls ++ [{ message, headers, token }] }
  | ask {s : Intake μ} {t : Ticket} {c : Call μ} (hcall : s.calls[t]? = some c)
      (hstage : c.stage = .called) :
      Step s (.ask t) { s.withStage t c .asking with processor := s.processor.ask t }
  | resume {s : Intake μ} {t : Ticket} {c : Call μ} (hcall : s.calls[t]? = some c)
      (hstage : c.stage = .asking) (hgranted : s.processor.isGranted t = true) :
      Step s (.resume t)
        { s.withStage t c (.resumed s.processor.takeError.2) with
          processor := s.processor.takeError.1
          moments := .resumed t :: s.moments }
  | report {s : Intake μ} {t : Ticket} {c : Call μ} {cause : Failure} {consumer : Option String}
      (hcall : s.calls[t]? = some c) (hstage : c.stage = .resumed (some (cause, consumer))) :
      Step s (.report t)
        { s.withStage t c (.reported cause consumer) with processor := s.processor.handBack t }
  | dispatch {s : Intake μ} {t : Ticket} {c : Call μ} (hcall : s.calls[t]? = some c)
      (hstage : c.stage = .resumed none) :
      Step s (.dispatch t)
        { s.withStage t c (.dispatched .queued) with
          processor := s.processor.dispatch t c.message c.headers }
  | refuse {s : Intake μ} {t : Ticket} {c : Call μ} (hcall : s.calls[t]? = some c)
      (hwaiting : c.stage.isWaiting = true) (hcancelled : s.tokens.isCancelled c.token = true) :
      Step s (.refuse t) { s.withStage t c .refused with processor := s.processor.withdraw t }
  | drop {s : Intake μ} {t : Ticket} {c : Call μ} (hcall : s.calls[t]? = some c)
      (hwaiting : c.stage.isWaiting = true) :
      Step s (.drop t) { s.withStage t c .dropped with processor := s.processor.withdraw t }
  | begin {s : Intake μ} {c : Call μ} {job : Background μ}
      (hcall : s.calls[job.ticket]? = some c) (hstage : c.stage = .dispatched .queued)
      (hjob : job ∈ s.processor.background) :
      Step s (.begin job.ticket)
        { s.withStage job.ticket c (.dispatched .running) with invoked := s.invoked ++ [job] }
  | settle {s : Intake μ} {c : Call μ} {job : Background μ}
      (hcall : s.calls[job.ticket]? = some c) (hstage : c.stage = .dispatched .running)
      (hjob : job ∈ s.processor.background) (ending : Ending) :
      Step s (.settle job.ticket ending)
        ((s.withStage job.ticket c (.dispatched .settled)).afterEnding job ending)
  | leave {s : Intake μ} {t : Ticket} {c : Call μ} (hcall : s.calls[t]? = some c)
      (hstage : c.stage = .dispatched .settled) :
      Step s (.leave t)
        { s.withStage t c (.dispatched .left) with processor := s.processor.leave t }
  | release {s : Intake μ} {t : Ticket} {c : Call μ} (hcall : s.calls[t]? = some c)
      (hstage : c.stage = .dispatched .left) :
      Step s (.release t)
        { s.withStage t c (.dispatched .finished) with processor := s.processor.giveBack }
  | take {s : Intake μ} : Step s .take { s with processor := s.processor.takeFailure.1 }

/-- A step as a computation; there is none if the call is not where it would have to be. -/
def step? (s : Intake μ) : Event μ → Option (Intake μ)
  | .cancel token => some { s with tokens := s.tokens.cancel token }
  | .call message headers token =>
    some { s with calls := s.calls ++ [{ message, headers, token }] }
  | .ask t => do
    let c ← s.calls[t]?
    match c.stage with
    | .called => some { s.withStage t c .asking with processor := s.processor.ask t }
    | _ => none
  | .resume t => do
    let c ← s.calls[t]?
    match c.stage, s.processor.isGranted t with
    | .asking, true =>
      some { s.withStage t c (.resumed s.processor.takeError.2) with
        processor := s.processor.takeError.1
        moments := .resumed t :: s.moments }
    | _, _ => none
  | .report t => do
    let c ← s.calls[t]?
    match c.stage with
    | .resumed (some (cause, consumer)) =>
      some { s.withStage t c (.reported cause consumer) with processor := s.processor.handBack t }
    | _ => none
  | .dispatch t => do
    let c ← s.calls[t]?
    match c.stage with
    | .resumed none =>
      some { s.withStage t c (.dispatched .queued) with
        processor := s.processor.dispatch t c.message c.headers }
    | _ => none
  | .refuse t => do
    let c ← s.calls[t]?
    if c.stage.isWaiting && s.tokens.isCancelled c.token then
      some { s.withStage t c .refused with processor := s.processor.withdraw t }
    else none
  | .drop t => do
    let c ← s.calls[t]?
    if c.stage.isWaiting then
      some { s.withStage t c .dropped with processor := s.processor.withdraw t }
    else none
  | .begin t => do
    let c ← s.calls[t]?
    let job ← s.processor.background.find? fun job => job.ticket == t
    match c.stage with
    | .dispatched .queued =>
      some { s.withStage t c (.dispatched .running) with invoked := s.invoked ++ [job] }
    | _ => none
  | .settle t ending => do
    let c ← s.calls[t]?
    let job ← s.processor.background.find? fun job => job.ticket == t
    match c.stage with
    | .dispatched .running =>
      some ((s.withStage t c (.dispatched .settled)).afterEnding job ending)
    | _ => none
  | .leave t => do
    let c ← s.calls[t]?
    match c.stage with
    | .dispatched .settled =>
      some { s.withStage t c (.dispatched .left) with processor := s.processor.leave t }
    | _ => none
  | .release t => do
    let c ← s.calls[t]?
    match c.stage with
    | .dispatched .left =>
      some { s.withStage t c (.dispatched .finished) with processor := s.processor.giveBack }
    | _ => none
  | .take => some { s with processor := s.processor.takeFailure.1 }

/-- The state that a list of events leads to. -/
def run? (s : Intake μ) : List (Event μ) → Option (Intake μ)
  | [] => some s
  | e :: es => (s.step? e).bind fun u => u.run? es

variable {s u : Intake μ} {e : Event μ}

theorem ticket_of_find? {p : Bounded μ} {t : Ticket} {job : Background μ}
    (h : (p.background.find? fun job => job.ticket == t) = some job) :
    job ∈ p.background ∧ job.ticket = t :=
  ⟨List.mem_of_find?_eq_some h, by simpa using List.find?_some h⟩

/-- What is computed as a step is one. -/
theorem Step.of_step? (h : s.step? e = some u) : Step s e u := by
  cases e <;>
    simp only [step?, Option.bind_eq_bind, Option.bind_eq_some_iff, Option.some.injEq] at h
  case cancel token => exact h ▸ .cancel token
  case call message headers token => exact h ▸ .call message headers token
  case ask t =>
    obtain ⟨c, hcall, h⟩ := h
    split at h
    · next hstage => exact Option.some.inj h ▸ .ask hcall hstage
    · cases h
  case resume t =>
    obtain ⟨c, hcall, h⟩ := h
    split at h
    · next hstage hgranted => exact Option.some.inj h ▸ .resume hcall hstage hgranted
    · cases h
  case report t =>
    obtain ⟨c, hcall, h⟩ := h
    split at h
    · next hstage => exact Option.some.inj h ▸ .report hcall hstage
    · cases h
  case dispatch t =>
    obtain ⟨c, hcall, h⟩ := h
    split at h
    · next hstage => exact Option.some.inj h ▸ .dispatch hcall hstage
    · cases h
  case refuse t =>
    obtain ⟨c, hcall, h⟩ := h
    split at h
    · next hboth =>
      obtain ⟨hwaiting, hcancelled⟩ := Bool.and_eq_true_iff.mp hboth
      exact Option.some.inj h ▸ .refuse hcall hwaiting hcancelled
    · cases h
  case drop t =>
    obtain ⟨c, hcall, h⟩ := h
    split at h
    · next hwaiting => exact Option.some.inj h ▸ .drop hcall hwaiting
    · cases h
  case begin t =>
    obtain ⟨c, hcall, job, hfind, h⟩ := h
    obtain ⟨hjob, rfl⟩ := ticket_of_find? hfind
    split at h
    · next hstage => exact Option.some.inj h ▸ .begin hcall hstage hjob
    · cases h
  case settle t ending =>
    obtain ⟨c, hcall, job, hfind, h⟩ := h
    obtain ⟨hjob, rfl⟩ := ticket_of_find? hfind
    split at h
    · next hstage => exact Option.some.inj h ▸ .settle hcall hstage hjob ending
    · cases h
  case leave t =>
    obtain ⟨c, hcall, h⟩ := h
    split at h
    · next hstage => exact Option.some.inj h ▸ .leave hcall hstage
    · cases h
  case release t =>
    obtain ⟨c, hcall, h⟩ := h
    split at h
    · next hstage => exact Option.some.inj h ▸ .release hcall hstage
    · cases h
  case take => exact h ▸ .take

theorem run_of_run? {es : List (Event μ)} (h : s.run? es = some u) : Run Step s es u := by
  induction es generalizing s with
  | nil =>
    obtain rfl := Option.some.inj h
    exact .nil s
  | cons e es ih =>
    obtain ⟨t, hstep, hrest⟩ := Option.bind_eq_some_iff.mp h
    exact .cons (.of_step? hstep) (ih hrest)

end Intake
end Courier
