import Courier.Proofs.Outbox.Fleet
import Courier.Proofs.Outbox.Locking
import Courier.Proofs.Outbox.Settling
import Courier.Proofs.Run

/-!
# One forwarder alone

If nothing moves beside a forwarder, each of its steps is determined (`step?`), and a round ends
when the forwarder is ready for another one or comes to rest.

A drain reads batch after batch until nothing is left or something stops it.  Where the batches
begin and end makes no difference: `exists_run_drain` says that a drain deals with the rows leased
to the instance up to the first one that stops it, each once and in the order of their capture, as
if they were one batch.

What a forwarder does alone it also does in a fleet in which nothing else moves (`In.run`).
-/

namespace Courier

@[simp] theorem Repository.deliverRows_nil (now : Instant) (rows : List Row) :
    deliverRows [] now rows = rows := by
  simp [deliverRows]

@[simp] theorem Repository.releaseRows_nil (inst : String) (retryAfter now : Instant)
    (rows : List Row) : releaseRows inst [] retryAfter now rows = rows := by
  simp [releaseRows]

namespace Surroundings

variable {β : Type} {c : Surroundings β} {r : Row} {rows : List Row} {idle : Bool}

/-! ## Decisions about a row -/

theorem decideRow_of_short (f : Forwarder β) (hshort : c.lasts r = false) :
    f.decideRow c.view idle (r :: rows) = { f with stage := .settling idle .stopped } := by
  have hcheck : Forwarder.leaseSuffices c.settings c.now r = false := hshort
  simp [Forwarder.decideRow, view, hcheck]

theorem decideRow_of_unreached (f : Forwarder β) (hlasts : c.lasts r = true)
    (hbus : c.route r.busName = none) :
    f.decideRow c.view idle (r :: rows) =
      { f with skipped := f.skipped ++ [r.id], stage := .sending idle rows } := by
  have hcheck : Forwarder.leaseSuffices c.settings c.now r = true := hlasts
  simp [Forwarder.decideRow, view, hbus, hcheck]

theorem decideRow_of_reached (f : Forwarder β) (hlasts : c.lasts r = true) {bus : β}
    (hbus : c.route r.busName = some bus) :
    f.decideRow c.view idle (r :: rows) = { f with stage := .forwarding idle bus r rows } := by
  have hcheck : Forwarder.leaseSuffices c.settings c.now r = true := hlasts
  simp [Forwarder.decideRow, view, hbus, hcheck]

end Surroundings

/-- A forwarder that works alone on a repository. -/
structure Solitary (β : Type) where
  forwarder : Forwarder β
  repository : Repository
  /-- The rows that were handed to a bus, oldest first. -/
  attempts : List Row := []

namespace Solitary

variable {β : Type}

/-- The forwarder got the answer to a call. -/
def afterCall (s : Solitary β) (c : Surroundings β) (call : RepositoryCall) : Solitary β :=
  let outcome := s.repository.perform false c.now call
  { s with forwarder := s.forwarder.answered outcome.2, repository := outcome.1 }

/-- The forwarder got the result of forwarding a row. -/
def afterForward (s : Solitary β) (c : Surroundings β) (idle : Bool) (row : Row)
    (rest : List Row) : Solitary β :=
  { s with
    forwarder := s.forwarder.forwarded idle row rest (c.result row.id)
    attempts := s.attempts ++ [row] }

/-- The forwarder has decided. -/
def afterDecision (s : Solitary β) (c : Surroundings β) : Solitary β :=
  { s with forwarder := (s.forwarder.decide c.view none).1 }

/-- The next step of a round; there is none once the forwarder rests. -/
def step? (c : Surroundings β) (s : Solitary β) : Option (Solitary β) :=
  match s.forwarder.stage with
  | .resting | .deleting _ | .pausing | .ended => none
  | .forwarding idle _ row rest => some (s.afterForward c idle row rest)
  | _ =>
    match s.forwarder.call? c.inst with
    | some call => some (s.afterCall c call)
    | none => some (s.afterDecision c)

/-- What a round says when it is over: whether it was idle. -/
def report? (s : Solitary β) : Option Bool :=
  match s.forwarder.stage with
  | .ready => some false
  | .resting => some true
  | _ => none

/-- A step and what is said after it. -/
def Works (c : Surroundings β) (s : Solitary β) (report : Option Bool) (u : Solitary β) : Prop :=
  s.step? c = some u ∧ report = u.report?

/-- Steps after which nothing is said. -/
def Quietly (c : Surroundings β) (s u : Solitary β) : Prop :=
  ∃ n, Run (Works c) s (List.replicate n none) u

variable {c : Surroundings β} {s t u : Solitary β} {idle : Bool} {result : BatchResult}
variable {row : Row} {rows rest : List Row}

theorem Quietly.refl (c : Surroundings β) (s : Solitary β) : Quietly c s s := ⟨0, .nil s⟩

theorem Quietly.trans (h : Quietly c s t) (h' : Quietly c t u) : Quietly c s u := by
  obtain ⟨m, hm⟩ := h
  obtain ⟨n, hn⟩ := h'
  refine ⟨m + n, ?_⟩
  rw [← List.replicate_append_replicate]
  exact hm.append hn

theorem Quietly.step (hstep : s.step? c = some t) (hreport : t.report? = none)
    (h : Quietly c t u) : Quietly c s u := by
  obtain ⟨n, hn⟩ := h
  exact ⟨n + 1, .cons ⟨hstep, hreport.symm⟩ hn⟩

/-- What is said later is said after the quiet steps as well. -/
theorem Quietly.run {k : Nat} {reports : List (Option Bool)} (h : Quietly c s t)
    (hrun : Run (Works c) t (List.replicate k none ++ reports) u) :
    ∃ m, Run (Works c) s (List.replicate m none ++ reports) u := by
  obtain ⟨n, hn⟩ := h
  refine ⟨n + k, ?_⟩
  rw [← List.replicate_append_replicate, List.append_assoc]
  exact hn.append hrun

/-! ## One batch -/

theorem step?_of_sending (hstage : s.forwarder.stage = .sending idle rows) :
    s.step? c = some { s with forwarder := s.forwarder.decideRow c.view idle rows } := by
  simp [step?, hstage, Forwarder.call?, afterDecision, Forwarder.decide]

theorem step?_of_forwarding {bus : β} {row : Row} {rest : List Row}
    (hstage : s.forwarder.stage = .forwarding idle bus row rest) :
    s.step? c = some (s.afterForward c idle row rest) := by
  simp [step?, hstage]

/-- The state after a row that did not stop the batch. -/
def afterRow (s : Solitary β) (c : Surroundings β) (idle : Bool) (row : Row) (rest : List Row) :
    Solitary β :=
  { s with
    forwarder := { s.forwarder with
      stage := .sending idle rest
      sent := s.forwarder.sent ++ if c.delivers row then [row.id] else []
      skipped := s.forwarder.skipped ++ if c.delivers row then [] else [row.id] }
    attempts := s.attempts ++ if c.reaches row then [row] else [] }

/-- The state after a batch: what was forwarded has to be confirmed, and what was skipped has to be
given back. -/
def afterBatch (s : Solitary β) (c : Surroundings β) (idle : Bool) (rows : List Row) :
    Solitary β :=
  { s with
    forwarder := { s.forwarder with
      stage := .settling idle (c.ending rows)
      sent := s.forwarder.sent ++ ((c.handled rows).filter c.delivers).map (·.id)
      skipped := s.forwarder.skipped ++
        ((c.handled rows).filter fun r => !c.delivers r).map (·.id) }
    attempts := s.attempts ++ c.attempted rows }

theorem quietly_row (hstage : s.forwarder.stage = .sending idle (row :: rest))
    (hhandles : c.handles row = true) : Quietly c s (s.afterRow c idle row rest) := by
  obtain ⟨hlasts, hfails⟩ : c.lasts row = true ∧ c.fails row = false := by
    simpa [Surroundings.handles] using hhandles
  cases hbus : c.route row.busName with
  | none =>
    have hstep : s.step? c = some (s.afterRow c idle row rest) := by
      rw [step?_of_sending hstage, c.decideRow_of_unreached _ hlasts hbus]
      simp [afterRow, Surroundings.delivers, Surroundings.reaches, hbus]
    exact .step hstep rfl (.refl c _)
  | some bus =>
    have hdecide := step?_of_sending (c := c) hstage
    rw [c.decideRow_of_reached _ hlasts hbus] at hdecide
    have hforward : step? c { s with forwarder :=
        { s.forwarder with stage := .forwarding idle bus row rest } } =
          some (s.afterRow c idle row rest) := by
      rw [step?_of_forwarding rfl]
      cases hresult : c.result row.id with
      | ok =>
        simp [afterForward, afterRow, Forwarder.forwarded, Surroundings.delivers,
          Surroundings.reaches, hbus, hresult, Except.isOk, Except.toBool]
      | error cause =>
        have hlasting : (cause.isTransient || cause.isCancellation) = false := by
          simpa [Surroundings.fails, Surroundings.reaches, hbus, hresult] using hfails
        simp [afterForward, afterRow, Forwarder.forwarded, Surroundings.delivers,
          Surroundings.reaches, hbus, hresult, hlasting, Except.isOk, Except.toBool]
    exact .step hdecide rfl (.step hforward rfl (.refl c _))

/-- A row that stops the batch. -/
theorem quietly_stop (hstage : s.forwarder.stage = .sending idle (row :: rest))
    (hstops : c.handles row = false) : Quietly c s (s.afterBatch c idle (row :: rest)) := by
  cases hlasts : c.lasts row with
  | false =>
    have hstep : s.step? c = some (s.afterBatch c idle (row :: rest)) := by
      rw [step?_of_sending hstage, Surroundings.decideRow_of_short _ hlasts]
      simp [afterBatch, Surroundings.handled, Surroundings.left, Surroundings.ending,
        Surroundings.stop, Surroundings.attempted, hstops, hlasts]
    exact .step hstep rfl (.refl c _)
  | true =>
    have hfails : c.fails row = true := by simpa [Surroundings.handles, hlasts] using hstops
    obtain ⟨bus, hbus, cause, hresult, hpasses⟩ := Surroundings.fails_iff.mp hfails
    have hdecide := step?_of_sending (c := c) hstage
    rw [Surroundings.decideRow_of_reached _ hlasts hbus] at hdecide
    have hforward : step? c { s with forwarder :=
        { s.forwarder with stage := .forwarding idle bus row rest } } =
          some (s.afterBatch c idle (row :: rest)) := by
      rw [step?_of_forwarding rfl]
      simp [afterForward, Forwarder.forwarded, hresult, hpasses, afterBatch, Surroundings.handled,
        Surroundings.left, Surroundings.ending, Surroundings.stop, Surroundings.attempted, hstops,
        hlasts]
    exact .step hdecide rfl (.step hforward rfl (.refl c _))

/-- **A batch is dealt with** row by row, up to the first row that stops it. -/
theorem quietly_batch (rows : List Row) :
    ∀ s : Solitary β, s.forwarder.stage = .sending idle rows →
      Quietly c s (s.afterBatch c idle rows) := by
  induction rows with
  | nil =>
    intro s hstage
    have hstep : s.step? c = some (s.afterBatch c idle []) := by
      rw [step?_of_sending hstage]
      simp [Forwarder.decideRow, afterBatch, Surroundings.handled, Surroundings.ending,
        Surroundings.left, Surroundings.attempted]
    exact .step hstep rfl (.refl c _)
  | cons row rest ih =>
    intro s hstage
    by_cases hhandles : c.handles row = true
    · have hrest := ih (s.afterRow c idle row rest) rfl
      have hbatch : (s.afterRow c idle row rest).afterBatch c idle rest =
          s.afterBatch c idle (row :: rest) := by
        cases hdelivers : c.delivers row <;> cases hreaches : c.reaches row <;>
          simp [afterRow, afterBatch, Surroundings.handled_cons_of_handles hhandles,
            Surroundings.ending_cons_of_handles hhandles,
            Surroundings.attempted_cons_of_handles hhandles, hdelivers, hreaches]
      exact (quietly_row hstage hhandles).trans (hbatch ▸ hrest)
    · exact quietly_stop hstage (by simpa using hhandles)

/-! ## After a batch -/

theorem step?_of_settling (hstage : s.forwarder.stage = .settling idle result) :
    s.step? c = some { s with forwarder := s.forwarder.decideSettling c.view idle result } := by
  simp [step?, hstage, Forwarder.call?, afterDecision, Forwarder.decide]

theorem step?_of_confirming (hstage : s.forwarder.stage = .confirming idle result) :
    s.step? c = some (s.afterCall c (.updateToSent s.forwarder.sent)) := by
  simp [step?, hstage, Forwarder.call?]

theorem step?_of_releasing {retryAfter : Instant}
    (hstage : s.forwarder.stage = .releasing idle result retryAfter) :
    s.step? c = some (s.afterCall c (.release c.inst s.forwarder.skipped retryAfter)) := by
  simp [step?, hstage, Forwarder.call?]

/-- The state after what was forwarded has been confirmed. -/
def afterConfirmation (s : Solitary β) (c : Surroundings β) (idle : Bool) (result : BatchResult) :
    Solitary β :=
  { s with
    forwarder := { s.forwarder with
      stage := .settling (idle && s.forwarder.sent.isEmpty) result, sent := [] }
    repository := { s.repository with
      rows := Repository.deliverRows s.forwarder.sent c.now s.repository.rows } }

/-- The state after what was skipped has been given back. -/
def afterReturn (s : Solitary β) (c : Surroundings β) (idle : Bool) (result : BatchResult) :
    Solitary β :=
  { s with
    forwarder := { s.forwarder with
      stage := .settling (idle && s.forwarder.skipped.isEmpty) result, skipped := [] }
    repository := { s.repository with
      rows := Repository.releaseRows c.inst s.forwarder.skipped c.deadline c.now
        s.repository.rows } }

theorem quietly_confirmation (hstage : s.forwarder.stage = .settling idle result) :
    Quietly c s (s.afterConfirmation c idle result) := by
  obtain ⟨⟨token, stage, sent, skipped⟩, ⟨rows, size, hsize⟩, attempts⟩ := s
  subst hstage
  cases sent with
  | nil =>
    simp only [afterConfirmation, List.isEmpty_nil, Bool.and_true, Repository.deliverRows_nil]
    exact .refl c _
  | cons id ids =>
    simp only [afterConfirmation, List.isEmpty_cons, Bool.and_false]
    exact .step (step?_of_settling rfl) rfl (.step (step?_of_confirming rfl) rfl (.refl c _))

theorem quietly_return (hstage : s.forwarder.stage = .settling idle result)
    (hsent : s.forwarder.sent = []) : Quietly c s (s.afterReturn c idle result) := by
  obtain ⟨⟨token, stage, sent, skipped⟩, ⟨rows, size, hsize⟩, attempts⟩ := s
  subst hstage hsent
  cases skipped with
  | nil =>
    simp only [afterReturn, List.isEmpty_nil, Bool.and_true, Repository.releaseRows_nil]
    exact .refl c _
  | cons id ids =>
    simp only [afterReturn, List.isEmpty_cons, Bool.and_false]
    exact .step (step?_of_settling rfl) rfl (.step (step?_of_releasing rfl) rfl (.refl c _))

/-- The state after the repository has been told what became of a batch. -/
def afterSettling (s : Solitary β) (c : Surroundings β) (idle : Bool) (result : BatchResult) :
    Solitary β :=
  (s.afterConfirmation c idle result).afterReturn c (idle && s.forwarder.sent.isEmpty) result

theorem quietly_settling (hstage : s.forwarder.stage = .settling idle result) :
    Quietly c s (s.afterSettling c idle result) :=
  (quietly_confirmation hstage).trans (quietly_return rfl rfl)

/-! ## A drain -/

theorem step?_of_draining (hstage : s.forwarder.stage = .draining idle) :
    s.step? c = some { s with forwarder := { s.forwarder with stage := .finding idle } } := by
  simp [step?, hstage, Forwarder.call?, afterDecision, Forwarder.decide, Surroundings.view]

theorem step?_of_finding (hstage : s.forwarder.stage = .finding idle) :
    s.step? c = some (s.afterCall c (.findNextToSend c.inst)) := by
  simp [step?, hstage, Forwarder.call?]

/-- The batch that is read next. -/
def nextBatch (s : Solitary β) (c : Surroundings β) : List Row :=
  (c.leases s.repository.rows).take s.repository.batchSize

/-- The state after the next batch has been read and dealt with. -/
def afterPass (s : Solitary β) (c : Surroundings β) (idle : Bool) : Solitary β :=
  { s with
    forwarder := { s.forwarder with
      stage := .settling (idle && (c.handled (s.nextBatch c)).isEmpty) (c.ending (s.nextBatch c)) }
    repository := { s.repository with
      rows := c.settleAll ((c.handled (s.nextBatch c)).map (·.id)) s.repository.rows }
    attempts := s.attempts ++ c.attempted (s.nextBatch c) }

/-- A forwarder between two batches: nothing has to be confirmed or given back. -/
structure Clear (s : Solitary β) : Prop where
  sent : s.forwarder.sent = []
  skipped : s.forwarder.skipped = []
  ids : (s.repository.rows.map (·.id)).Nodup

theorem handled_nextBatch_subset : c.handled (s.nextBatch c) ⊆ c.leases s.repository.rows :=
  List.Subset.trans (List.takeWhile_sublist _).subset (List.take_subset _ _)

/-- Neither delivered nor skipped is no row at all. -/
theorem isEmpty_parts (p : Row → Bool) (rows : List Row) :
    (((rows.filter p).map (·.id)).isEmpty &&
      ((rows.filter fun r => !p r).map (·.id)).isEmpty) = rows.isEmpty := by
  cases rows with
  | nil => rfl
  | cons r rows => cases h : p r <;> simp [h]

/-- The state after the next batch has been read. -/
def afterReading (s : Solitary β) (c : Surroundings β) (idle : Bool) : Solitary β :=
  { s with forwarder := { s.forwarder with stage := .sending idle (s.nextBatch c) } }

theorem quietly_reading (hstage : s.forwarder.stage = .draining idle)
    (hsome : s.nextBatch c ≠ []) : Quietly c s (s.afterReading c idle) := by
  obtain ⟨row, rest, hbatch⟩ := List.exists_cons_of_ne_nil hsome
  have hfound : Repository.leasedRows c.inst c.now s.repository.batchSize s.repository.rows =
      row :: rest := hbatch
  refine .step (step?_of_draining hstage) rfl ?_
  refine .step (t := s.afterReading c idle) ?_ rfl (.refl c _)
  rw [step?_of_finding rfl]
  simp [afterCall, Repository.perform, Repository.settle, Repository.findNextToSend,
    Repository.unlessCancelled, Forwarder.answered, afterReading, hfound, hbatch]

/-- **A batch is read and dealt with**, if there is one. -/
theorem quietly_pass (hclear : s.Clear) (hstage : s.forwarder.stage = .draining idle)
    (hsome : s.nextBatch c ≠ []) : Quietly c s (s.afterPass c idle) := by
  have hleases := handled_nextBatch_subset (c := c) (s := s)
  have hleased : ∀ r ∈ c.handled (s.nextBatch c), r.leasedTo c.inst c.now = true :=
    fun r hr => (List.mem_filter.mp (hleases hr)).2
  have hrows := Surroundings.releaseRows_deliverRows (c := c) hclear.ids
    (List.Subset.trans hleases List.filter_sublist.subset) hleased
  have hempty := isEmpty_parts c.delivers (c.handled (s.nextBatch c))
  have hread := quietly_reading hstage hsome
  have hdeal := quietly_batch (c := c) (s.nextBatch c) (s.afterReading c idle) rfl
  have hsettle := quietly_settling (c := c)
    (s := (s.afterReading c idle).afterBatch c idle (s.nextBatch c)) rfl
  have hpass : ((s.afterReading c idle).afterBatch c idle (s.nextBatch c)).afterSettling c idle
      (c.ending (s.nextBatch c)) = s.afterPass c idle := by
    simp only [afterReading, afterBatch, afterSettling, afterConfirmation, afterReturn, afterPass,
      hclear.sent, hclear.skipped, List.nil_append, hrows]
    rw [Bool.and_assoc, hempty]
  exact hread.trans (hdeal.trans (hpass ▸ hsettle))

/-- The end of a round. -/
def closed (f : Forwarder β) (idle : Bool) : BatchResult → Forwarder β
  | .failed cause => f.roundFailed cause
  | _ => f.roundOver idle

@[simp] theorem sent_closed (f : Forwarder β) (idle : Bool) (result : BatchResult) :
    (closed f idle result).sent = f.sent := by
  cases result <;> rfl

@[simp] theorem skipped_closed (f : Forwarder β) (idle : Bool) (result : BatchResult) :
    (closed f idle result).skipped = f.skipped := by
  cases result <;> rfl

/-- What a drain comes back with in its next step, if that is its last one: whether it was idle, or
the failure that has stopped it. -/
def verdict? (c : Surroundings β) (s : Solitary β) : Option (Except Failure Bool) :=
  match s.forwarder.stage with
  | .finding idle => if (s.nextBatch c).isEmpty then some (.ok idle) else none
  | .settling idle result =>
    if s.forwarder.sent.isEmpty && s.forwarder.skipped.isEmpty then
      match result with
      | .drained => none
      | .stopped => some (.ok idle)
      | .failed cause => some (.error cause)
    else none
  | _ => none

/-- The end of a round that was a drain. -/
def concluded (f : Forwarder β) : Except Failure Bool → Forwarder β
  | .ok idle => f.roundOver idle
  | .error cause => f.roundFailed cause

/-- A drain that finds nothing is over. -/
theorem step?_of_nothing (hstage : s.forwarder.stage = .finding idle)
    (hnone : s.nextBatch c = []) :
    s.step? c = some { s with forwarder := s.forwarder.roundOver idle } := by
  have hfound :
      Repository.leasedRows c.inst c.now s.repository.batchSize s.repository.rows = [] := hnone
  rw [step?_of_finding hstage]
  simp [afterCall, Repository.perform, Repository.settle, Repository.findNextToSend,
    Repository.unlessCancelled, Forwarder.answered, hstage, hfound]

/-- **A drain that comes back ends its round.** -/
theorem step?_of_verdict? {verdict : Except Failure Bool} (h : s.verdict? c = some verdict) :
    s.step? c = some { s with forwarder := concluded s.forwarder verdict } := by
  unfold verdict? at h
  split at h
  · next idle hstage =>
    split at h
    · next hnone =>
      obtain rfl := Option.some.inj h
      exact step?_of_nothing hstage (List.isEmpty_iff.mp hnone)
    · cases h
  · next idle result hstage =>
    split at h
    · next hnothing =>
      obtain ⟨hsent, hskipped⟩ : s.forwarder.sent = [] ∧ s.forwarder.skipped = [] := by
        simpa using hnothing
      rw [step?_of_settling hstage]
      cases result with
      | drained => cases h
      | stopped =>
        obtain rfl := Option.some.inj h
        simp [Forwarder.decideSettling, hsent, hskipped, concluded]
      | failed cause =>
        obtain rfl := Option.some.inj h
        simp [Forwarder.decideSettling, hsent, hskipped, concluded]
    · cases h
  · cases h

/-- The state after a drain.  Batches do not occur in it. -/
def afterDrain (s : Solitary β) (c : Surroundings β) (idle : Bool) : Solitary β :=
  let rows := c.leases s.repository.rows
  { forwarder := closed s.forwarder (idle && (c.handled rows).isEmpty) (c.ending rows)
    repository := { s.repository with
      rows := c.settleAll ((c.handled rows).map (·.id)) s.repository.rows }
    attempts := s.attempts ++ c.attempted rows }

theorem Clear.afterDrain (hclear : s.Clear) (idle : Bool) : (s.afterDrain c idle).Clear where
  sent := by rw [Solitary.afterDrain, sent_closed, hclear.sent]
  skipped := by rw [Solitary.afterDrain, skipped_closed, hclear.skipped]
  ids := by simpa only [Solitary.afterDrain, Surroundings.ids_settleAll] using hclear.ids

/-- What a drain comes back with after a batch that has ended it. -/
def verdictOf (idle : Bool) : BatchResult → Except Failure Bool
  | .failed cause => .error cause
  | _ => .ok idle

theorem concluded_verdictOf (f : Forwarder β) (idle : Bool) (result : BatchResult) :
    concluded f (verdictOf idle result) = closed f idle result := by
  cases result <;> rfl

/-- There is nothing to read. -/
theorem quietly_nothing (hstage : s.forwarder.stage = .draining idle)
    (hnone : c.leases s.repository.rows = []) :
    ∃ t : Solitary β, Quietly c s t ∧ t.verdict? c = some (.ok idle) ∧
      t.step? c = some (s.afterDrain c idle) := by
  have hbatch : s.nextBatch c = [] := by rw [nextBatch, hnone, List.take_nil]
  have hverdict : verdict? c { s with forwarder := { s.forwarder with stage := .finding idle } } =
      some (.ok idle) := if_pos (List.isEmpty_iff.mpr hbatch)
  refine ⟨_, .step (step?_of_draining hstage) rfl (.refl c _), hverdict, ?_⟩
  · rw [step?_of_verdict? hverdict]
    simp [concluded, afterDrain, hnone, Surroundings.handled, Surroundings.ending, Surroundings.left,
      Surroundings.attempted, closed, Forwarder.roundOver]

theorem isEmpty_append (rows rows' : List Row) :
    (rows ++ rows').isEmpty = (rows.isEmpty && rows'.isEmpty) := by
  cases rows <;> rfl

theorem leases_eq_append (c : Surroundings β) (s : Solitary β) :
    c.leases s.repository.rows =
      s.nextBatch c ++ (c.leases s.repository.rows).drop s.repository.batchSize :=
  (List.take_append_drop _ _).symm

/-- A batch that something stops ends the drain. -/
theorem verdict?_of_pass_stopped (hclear : s.Clear) (hstops : c.left (s.nextBatch c) ≠ []) :
    (s.afterPass c idle).verdict? c =
      some (verdictOf (idle && (c.handled (c.leases s.repository.rows)).isEmpty)
        (c.ending (c.leases s.repository.rows))) := by
  rw [leases_eq_append c s, (Surroundings.split_of_stopped hstops _).1,
    Surroundings.ending_of_stopped hstops]
  have hends := Surroundings.ending_ne_drained hstops
  simp only [verdict?, afterPass, hclear.sent, hclear.skipped, List.isEmpty_nil, Bool.and_self,
    if_true]
  cases hresult : c.ending (s.nextBatch c) with
  | drained => exact absurd hresult hends
  | stopped => rfl
  | failed cause => rfl

/-- A drain ends in the middle of a batch if something stops it there. -/
theorem step?_of_pass_stopped (hclear : s.Clear) (hstops : c.left (s.nextBatch c) ≠ []) :
    step? c (s.afterPass c idle) = some (s.afterDrain c idle) := by
  have hhandled := (Surroundings.split_of_stopped hstops
    ((c.leases s.repository.rows).drop s.repository.batchSize)).1
  have hattempted := Surroundings.attempted_of_stopped hstops
    ((c.leases s.repository.rows).drop s.repository.batchSize)
  rw [← leases_eq_append] at hhandled hattempted
  rw [step?_of_verdict? (verdict?_of_pass_stopped hclear hstops), concluded_verdictOf]
  simp only [afterDrain, afterPass, hhandled, hattempted]
  cases c.ending (c.leases s.repository.rows) <;> rfl

/-- The state that reads on behind a batch. -/
def afterWholePass (s : Solitary β) (c : Surroundings β) (idle : Bool) : Solitary β :=
  { s.afterPass c idle with forwarder :=
    { (s.afterPass c idle).forwarder with stage := .draining (idle && (s.nextBatch c).isEmpty) } }

/-- A drain reads on behind a batch that nothing has stopped. -/
theorem step?_of_pass_drained (hclear : s.Clear) (hdrained : c.left (s.nextBatch c) = []) :
    step? c (s.afterPass c idle) = some (s.afterWholePass c idle) := by
  rw [step?_of_settling rfl]
  simp [Forwarder.decideSettling, afterPass, afterWholePass, hclear.sent, hclear.skipped,
    Surroundings.ending_of_drained hdrained, Surroundings.handled_of_drained hdrained]

theorem Clear.afterWholePass (hclear : s.Clear) : (s.afterWholePass c idle).Clear where
  sent := hclear.sent
  skipped := hclear.skipped
  ids := by
    simpa only [Solitary.afterWholePass, afterPass, Surroundings.ids_settleAll] using hclear.ids

theorem leases_afterWholePass (hclear : s.Clear) (hdrained : c.left (s.nextBatch c) = [])
    (idle : Bool) :
    c.leases (s.afterWholePass c idle).repository.rows =
      (c.leases s.repository.rows).drop s.repository.batchSize := by
  simp only [afterWholePass, afterPass, Surroundings.handled_of_drained hdrained]
  exact Surroundings.leases_settleAll hclear.ids (leases_eq_append c s)

/-- Reading on ends where a drain from the start would have ended. -/
theorem afterDrain_afterWholePass (hclear : s.Clear) (hdrained : c.left (s.nextBatch c) = []) :
    (s.afterWholePass c idle).afterDrain c (idle && (s.nextBatch c).isEmpty) =
      s.afterDrain c idle := by
  have hleases := leases_eq_append c s
  have hbehind := leases_afterWholePass hclear hdrained idle
  generalize (c.leases s.repository.rows).drop s.repository.batchSize = rest at hleases hbehind
  obtain ⟨hhandled, hleft⟩ := Surroundings.split_of_drained hdrained rest
  have hends : c.ending (s.nextBatch c ++ rest) = c.ending rest := by
    simp only [Surroundings.ending, hleft]
  have hdisjoint : ∀ i ∈ (s.nextBatch c).map (·.id), i ∉ (c.handled rest).map (·.id) := by
    have hids : ((c.leases s.repository.rows).map (·.id)).Nodup :=
      hclear.ids.sublist (List.filter_sublist.map _)
    rw [hleases, List.map_append] at hids
    intro i hi hi'
    have hlater : i ∈ rest.map (·.id) := ((List.takeWhile_sublist _).map _).subset hi'
    exact (List.nodup_append.mp hids).2.2 i hi i hlater rfl
  have hrows : (s.afterWholePass c idle).repository.rows =
      c.settleAll ((s.nextBatch c).map (·.id)) s.repository.rows := by
    simp only [afterWholePass, afterPass, Surroundings.handled_of_drained hdrained]
  have hclosed : ∀ (i : Bool) (r : BatchResult),
      closed (s.afterWholePass c idle).forwarder i r = closed s.forwarder i r := by
    intro i r
    cases r <;> rfl
  have hattempts : (s.afterWholePass c idle).attempts =
      s.attempts ++ c.attempted (s.nextBatch c) := rfl
  rw [hrows] at hbehind
  simp only [afterDrain, hclosed, hrows, hattempts, hbehind,
    Surroundings.settleAll_settleAll hdisjoint]
  rw [hleases, hhandled, hends, Surroundings.attempted_of_drained hdrained, isEmpty_append, Bool.and_assoc,
    List.map_append, List.append_assoc]
  rfl

/-- **A drain** deals with the leased rows in the order of their capture, up to the first one that
stops it, and comes back. -/
theorem quietly_drain (n : Nat) : ∀ (s : Solitary β) (idle : Bool),
    (c.leases s.repository.rows).length ≤ n → s.Clear → s.forwarder.stage = .draining idle →
      ∃ t, Quietly c s t ∧
        t.verdict? c = some (verdictOf (idle && (c.handled (c.leases s.repository.rows)).isEmpty)
          (c.ending (c.leases s.repository.rows))) ∧
        t.step? c = some (s.afterDrain c idle) := by
  induction n with
  | zero =>
    intro s idle hlength hclear hstage
    have hnone : c.leases s.repository.rows = [] := List.length_eq_zero_iff.mp (by omega)
    obtain ⟨t, hreads, hverdict, hstep⟩ := quietly_nothing hstage hnone
    exact ⟨t, hreads, by simpa [hnone, Surroundings.handled, Surroundings.ending,
      Surroundings.left, verdictOf] using hverdict, hstep⟩
  | succ n ih =>
    intro s idle hlength hclear hstage
    by_cases hnone : c.leases s.repository.rows = []
    · exact ih s idle (by simp [hnone]) hclear hstage
    have hsize := s.repository.batchSize_pos
    have hsome : s.nextBatch c ≠ [] := by
      simp only [nextBatch, ne_eq, List.take_eq_nil_iff, not_or]
      exact ⟨by omega, hnone⟩
    have hpass := quietly_pass hclear hstage hsome
    -- Behind a batch that nothing has stopped fewer rows are leased, for the batch was not empty.
    by_cases hdrained : c.left (s.nextBatch c) = []
    · have hbehind := leases_afterWholePass hclear hdrained idle
      have hshort : (c.leases (s.afterWholePass c idle).repository.rows).length ≤ n := by
        rw [hbehind, List.length_drop]
        omega
      obtain ⟨t, hrest, hverdict, hstep⟩ :=
        ih _ (idle && (s.nextBatch c).isEmpty) hshort hclear.afterWholePass rfl
      rw [afterDrain_afterWholePass hclear hdrained] at hstep
      have hreads : Quietly c s (s.afterWholePass c idle) :=
        hpass.trans (.step (step?_of_pass_drained hclear hdrained) rfl (.refl c _))
      refine ⟨t, hreads.trans hrest, ?_, hstep⟩
      obtain ⟨hhandled, hleft⟩ := Surroundings.split_of_drained hdrained
        ((c.leases s.repository.rows).drop s.repository.batchSize)
      rw [← leases_eq_append] at hhandled hleft
      have hends : c.ending (c.leases s.repository.rows) =
          c.ending ((c.leases s.repository.rows).drop s.repository.batchSize) := by
        simp only [Surroundings.ending, hleft]
      rw [hverdict, hbehind, hhandled, hends, isEmpty_append, Bool.and_assoc]
    · exact ⟨s.afterPass c idle, hpass, verdict?_of_pass_stopped hclear hdrained,
        step?_of_pass_stopped hclear hdrained⟩

/-- A drain is a run that ends a round. -/
theorem exists_run_drain (n : Nat) (s : Solitary β) (idle : Bool)
    (hlength : (c.leases s.repository.rows).length ≤ n) (hclear : s.Clear)
    (hstage : s.forwarder.stage = .draining idle) :
    ∃ m, Run (Works c) s (List.replicate m none ++ [(s.afterDrain c idle).report?])
      (s.afterDrain c idle) := by
  obtain ⟨t, hreads, -, hstep⟩ := quietly_drain n s idle hlength hclear hstage
  exact hreads.run (k := 0) (.cons ⟨hstep, rfl⟩ (.nil _))

/-! ## Alone in a fleet -/

/-- What `s` is to the forwarder at a place of a fleet, if nothing else moves. -/
structure In (s : Solitary β) (c : Surroundings β) (l : Place) (w : Fleet β) : Prop where
  clock : w.clock = c.now
  repository : w.repository = s.repository
  task : ∃ t, w.tasks[l.task]? = some t ∧ t.settings = c.settings ∧ t.inst = c.inst ∧
    t.forwarder? l.number = some s.forwarder
  live : w.tokens.isCancelled s.forwarder.token = false

variable {l : Place} {w w' : Fleet β} {task : SendingTask β}

theorem In.of_withForwarder (h : s.In c l w) (htask : w.tasks[l.task]? = some task)
    (hsettings : task.settings = c.settings) (hinst : task.inst = c.inst)
    (hforwarder : task.forwarder? l.number = some s.forwarder)
    (htoken : u.forwarder.token = s.forwarder.token) (hclock : w'.clock = w.clock)
    (htokens : w'.tokens = w.tokens) (hrepository : w'.repository = u.repository)
    (hset : w'.tasks = (w.withForwarder l task u.forwarder task.cleanupNext).tasks) :
    u.In c l w' where
  clock := hclock.trans h.clock
  repository := hrepository
  task := by
    obtain ⟨hi, -⟩ := List.getElem?_eq_some_iff.mp htask
    obtain ⟨hn, -⟩ := List.getElem?_eq_some_iff.mp hforwarder
    refine ⟨{ task.setForwarder l.number u.forwarder with cleanupNext := task.cleanupNext }, ?_,
      hsettings, hinst, ?_⟩
    · simp [hset, Fleet.withForwarder, hi]
    · simp [SendingTask.forwarder?, SendingTask.setForwarder, hn]
  live := by rw [htokens, htoken, h.live]

/-- Only at rest a decision looks at the time of the next cleanup, or changes it. -/
theorem decide_of_ne_resting {f : Forwarder β} (hstage : f.stage = .resting → False)
    (v : Forwarder.View β) (next : Option Instant) :
    f.decide v next = ((f.decide v none).1, next) := by
  cases h : f.stage with
  | resting => exact absurd h hstage
  | ready => cases hv : v.isCancelled <;> simp [Forwarder.decide, h, hv]
  | draining => cases hv : v.isCancelled <;> simp [Forwarder.decide, h, hv]
  | _ => simp [Forwarder.decide, h]

/-- **What a forwarder does alone it does in a fleet** in which nothing else moves. -/
theorem In.step (h : s.In c l w) (hstep : s.step? c = some u) :
    ∃ e w', Fleet.Step w e w' ∧ u.In c l w' := by
  obtain ⟨task, htask, hsettings, hinst, hforwarder⟩ := h.task
  simp only [step?] at hstep
  split at hstep
  · cases hstep
  · cases hstep
  · cases hstep
  · cases hstep
  · next idle bus row rest hstage =>
    obtain rfl := Option.some.inj hstep
    refine ⟨_, _, .forward htask hforwarder hstage (c.result row.id), ?_⟩
    exact h.of_withForwarder htask hsettings hinst hforwarder (Forwarder.token_forwarded _) rfl rfl
      h.repository rfl
  -- Either the forwarder waits for an answer of the repository, or it decides what to do next.
  · next hresting _ _ _ _ =>
    split at hstep
    · next call hcall =>
      obtain rfl := Option.some.inj hstep
      refine ⟨_, _, .call htask hforwarder (hinst ▸ hcall) none, ?_⟩
      have houtcome : w.carryOut s.forwarder.token call none =
          s.repository.perform false c.now call := by
        rw [Fleet.carryOut, h.live, h.clock, h.repository]
      refine h.of_withForwarder htask hsettings hinst hforwarder
        Forwarder.token_answered rfl rfl ?_ ?_
      · simp only [Fleet.afterCall, houtcome, afterCall]
      · simp only [Fleet.afterCall, houtcome, afterCall, Fleet.withForwarder]
    · obtain rfl := Option.some.inj hstep
      refine ⟨_, _, .decide htask hforwarder c.route, ?_⟩
      have hview : w.view task s.forwarder c.route = c.view := by
        rw [Fleet.view, h.live, h.clock, hsettings, Surroundings.view]
      have hdecide := decide_of_ne_resting hresting c.view task.cleanupNext
      refine h.of_withForwarder htask hsettings hinst hforwarder
        Forwarder.token_decide rfl rfl h.repository ?_
      simp only [Fleet.afterDecision, hview, hdecide, afterDecision, Fleet.withForwarder]

/-- What a forwarder does alone in any number of steps it does in a fleet. -/
theorem In.run (h : s.In c l w) {reports : List (Option Bool)} (hrun : Run (Works c) s reports u) :
    ∃ es w', Run Fleet.Step w es w' ∧ u.In c l w' := by
  induction hrun generalizing w with
  | nil s => exact ⟨[], w, .nil w, h⟩
  | cons head tail ih =>
    obtain ⟨e, v, hstep, hin⟩ := h.step head.1
    obtain ⟨es, w', hrun, hin'⟩ := ih hin
    exact ⟨e :: es, w', .cons hstep hrun, hin'⟩

end Solitary
end Courier
