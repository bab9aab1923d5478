import Courier.Proofs.Processor.Intake
import Mathlib.Data.List.Nodup

/-!
# What becomes of messages and failures

A message whose call returns without an error goes to the inner processor exactly once, and no other
message does.  A failure that was recorded is kept until a call goes on with a permit; the first
such call takes it and returns it, whatever happened to the calls that went away in between.

Both are read off the invariant `Accounted`, which ties the calls to what the processor keeps and to
what the intake remembers.  Most steps only move a call (`Accounted.moved`); the others concern one
field each.
-/

namespace Courier

namespace Intake

variable {μ : Type}

/-! ## Recordings and resumptions -/

/-- The call that went on. -/
def Moment.ticket? : Moment μ → Option Ticket
  | .resumed t => some t
  | .recorded .. => none

/-- The calls that went on, latest first. -/
def resumptions (moments : List (Moment μ)) : List Ticket := moments.filterMap Moment.ticket?

/-- The failure of the last moment, if that was a recording. -/
def lastRecorded : List (Moment μ) → Option (Failure × Option String)
  | .recorded _ cause consumer :: _ => some (cause, consumer)
  | _ => none

/-- What was kept when a call went on. -/
def keptFor (t : Ticket) : List (Moment μ) → Option (Option (Failure × Option String))
  | [] => none
  | .resumed u :: earlier => if u = t then some (lastRecorded earlier) else keptFor t earlier
  | .recorded .. :: earlier => keptFor t earlier

/-- Between two recordings a call goes on. -/
def OneAtATime : List (Moment μ) → Prop
  | [] => True
  | .resumed _ :: earlier => OneAtATime earlier
  | .recorded .. :: earlier => lastRecorded earlier = none ∧ OneAtATime earlier

variable {moments later earlier : List (Moment μ)} {m : Moment μ} {t : Ticket}

theorem keptFor_eq_none (h : keptFor t moments = none) : t ∉ resumptions moments := by
  induction moments with
  | nil => exact List.not_mem_nil
  | cons m earlier ih =>
    cases m with
    | recorded job cause consumer => exact ih h
    | resumed u =>
      by_cases hu : u = t
      · simp [keptFor, hu] at h
      · simp only [keptFor, if_neg hu] at h
        simpa [resumptions, Moment.ticket?, Ne.symm hu] using ih h

/-- A call that found a failure went on right after it was recorded. -/
theorem split_of_keptFor {cause : Failure} {consumer : Option String}
    (h : keptFor t moments = some (some (cause, consumer))) :
    ∃ later job earlier,
      moments = later ++ .resumed t :: .recorded job cause consumer :: earlier := by
  induction moments with
  | nil => cases h
  | cons m moments ih =>
    cases m with
    | recorded job cause' consumer' =>
      obtain ⟨later, job', earlier, rfl⟩ := ih h
      exact ⟨_ :: later, job', earlier, rfl⟩
    | resumed u =>
      by_cases hu : u = t
      · subst hu
        simp only [keptFor, if_true, Option.some.injEq] at h
        cases moments with
        | nil => cases h
        | cons m' earlier =>
          cases m' with
          | resumed t' => cases h
          | recorded job cause' consumer' =>
            obtain ⟨rfl, rfl⟩ := Prod.mk.inj (Option.some.inj h)
            exact ⟨[], job, earlier, rfl⟩
      · simp only [keptFor, if_neg hu] at h
        obtain ⟨later, job', earlier, rfl⟩ := ih h
        exact ⟨_ :: later, job', earlier, rfl⟩

/-- A call that goes on once finds what was kept then. -/
theorem keptFor_of_split (hmoments : moments = later ++ .resumed t :: earlier)
    (honce : (resumptions moments).Nodup) : keptFor t moments = some (lastRecorded earlier) := by
  subst hmoments
  induction later with
  | nil => simp [keptFor]
  | cons m later ih =>
    cases m with
    | recorded job cause consumer => exact ih honce
    | resumed u =>
      -- The ticket occurs once, so a later call that went on is another one.
      obtain ⟨hnew, honce⟩ := List.nodup_cons.mp honce
      have hu : u ≠ t := by
        rintro rfl
        exact hnew (by simp [Moment.ticket?])
      rw [List.cons_append, keptFor, if_neg hu]
      exact ih honce

theorem OneAtATime.of_append (later : List (Moment μ)) (h : OneAtATime (later ++ earlier)) :
    OneAtATime earlier := by
  induction later with
  | nil => exact h
  | cons m later ih =>
    cases m with
    | recorded job cause consumer => exact ih h.2
    | resumed u => exact ih h

/-- **After a recording a call goes on**, if anything happens. -/
theorem OneAtATime.next {job : Background μ} {cause : Failure} {consumer : Option String}
    (h : OneAtATime (later ++ .recorded job cause consumer :: earlier)) :
    later = [] ∨ ∃ rest t, later = rest ++ [.resumed t] := by
  rcases List.eq_nil_or_concat later with rfl | ⟨rest, m, rfl⟩
  · exact .inl rfl
  cases m with
  | resumed t => exact .inr ⟨rest, t, by simp⟩
  | recorded job' cause' consumer' =>
    have hadjacent : OneAtATime (.recorded job' cause' consumer' ::
        .recorded job cause consumer :: earlier) := by
      rw [List.concat_eq_append, List.append_assoc] at h
      exact .of_append rest h
    simp [OneAtATime, lastRecorded] at hadjacent

/-! ## The invariant -/

variable {s u : Intake μ} {c : Call μ} {stage : Stage} {k : Ticket} {p : Bounded μ}

/-- What the call of a ticket took when it went on with a permit. -/
def found? (s : Intake μ) (t : Ticket) : Option (Option (Failure × Option String)) :=
  (s.calls[t]?).bind (·.stage.found?)

/-- The message of a ticket, if the inner processor was invoked with it. -/
def begun? (s : Intake μ) (t : Ticket) : Option (Background μ) :=
  (s.calls[t]?).bind fun c => if c.stage.hasBegun then some (c.job t) else none

/-- The message of a ticket, if it is in the background. -/
def pending? (s : Intake μ) (t : Ticket) : Option (Background μ) :=
  (s.calls[t]?).bind fun c => if c.stage.isPending then some (c.job t) else none

/-- Calls, processor and history of an intake agree. -/
structure Accounted (s : Intake μ) : Prop where
  /-- What is kept is the last recording, if no call went on since. -/
  kept : s.processor.error = lastRecorded s.moments
  /-- A call goes on at most once. -/
  once : (resumptions s.moments).Nodup
  single : OneAtATime s.moments
  /-- A call took what was kept when it went on. -/
  found : ∀ t, s.found? t = keptFor t s.moments
  /-- The inner processor was invoked once with what has begun, and with nothing else. -/
  invoked : ∀ t, s.invocations t = (s.begun? t).toList
  /-- What is pending is in the background once, and nothing else is. -/
  background : ∀ t, (s.processor.background.filter fun job => job.ticket == t) =
    (s.pending? t).toList

theorem Accounted.initial {n : Nat} (hcreate : Bounded.create n = .ok p) :
    Accounted (initial p) := by
  unfold Bounded.create at hcreate
  split at hcreate
  · obtain rfl := Except.ok.inj hcreate
    exact ⟨rfl, .nil, trivial, fun _ => rfl, fun _ => rfl, fun _ => rfl⟩
  · cases hcreate

theorem getElem?_withStage (hcall : s.calls[t]? = some c) (stage : Stage) (k : Ticket) :
    (s.withStage t c stage).calls[k]? =
      if k = t then some { c with stage } else s.calls[k]? := by
  obtain ⟨ht, -⟩ := List.getElem?_eq_some_iff.mp hcall
  by_cases hk : k = t
  · subst hk
    simp [withStage, ht]
  · simp [withStage, hk, List.getElem?_set_ne (Ne.symm hk)]

theorem found?_withStage (hcall : s.calls[t]? = some c) (stage : Stage) (k : Ticket) :
    (s.withStage t c stage).found? k = if k = t then stage.found? else s.found? k := by
  rw [found?, getElem?_withStage hcall]
  split <;> rfl

theorem begun?_withStage (hcall : s.calls[t]? = some c) (stage : Stage) (k : Ticket) :
    (s.withStage t c stage).begun? k =
      if k = t then (if stage.hasBegun then some (c.job t) else none) else s.begun? k := by
  rw [begun?, getElem?_withStage hcall]
  split
  · next hk => rw [hk]; rfl
  · rfl

theorem pending?_withStage (hcall : s.calls[t]? = some c) (stage : Stage) (k : Ticket) :
    (s.withStage t c stage).pending? k =
      if k = t then (if stage.isPending then some (c.job t) else none) else s.pending? k := by
  rw [pending?, getElem?_withStage hcall]
  split
  · next hk => rw [hk]; rfl
  · rfl

theorem found?_eq (hcall : s.calls[t]? = some c) : s.found? t = c.stage.found? := by
  simp [found?, hcall]

theorem begun?_eq (hcall : s.calls[t]? = some c) :
    s.begun? t = if c.stage.hasBegun then some (c.job t) else none := by
  simp [begun?, hcall]

theorem pending?_eq (hcall : s.calls[t]? = some c) :
    s.pending? t = if c.stage.isPending then some (c.job t) else none := by
  simp [pending?, hcall]

/-- A call that moves between stages that count as one has taken nothing new. -/
theorem Accounted.found_moved (h : Accounted s) (hcall : s.calls[t]? = some c)
    (hfound : stage.found? = c.stage.found?) (k : Ticket) :
    (s.withStage t c stage).found? k = keptFor k s.moments := by
  rw [found?_withStage hcall, ← h.found k]
  split
  · next hk => rw [hk, found?_eq hcall, hfound]
  · rfl

theorem Accounted.invoked_moved (h : Accounted s) (hcall : s.calls[t]? = some c)
    (hbegun : stage.hasBegun = c.stage.hasBegun) (k : Ticket) :
    s.invocations k = ((s.withStage t c stage).begun? k).toList := by
  rw [begun?_withStage hcall, h.invoked k]
  split
  · next hk => rw [hk, begun?_eq hcall, hbegun]
  · rfl

theorem Accounted.background_moved (h : Accounted s) (hcall : s.calls[t]? = some c)
    (hpending : stage.isPending = c.stage.isPending) (k : Ticket) :
    (s.processor.background.filter fun job => job.ticket == k) =
      ((s.withStage t c stage).pending? k).toList := by
  rw [pending?_withStage hcall, h.background k]
  split
  · next hk => rw [hk, pending?_eq hcall, hpending]
  · rfl

/-! ## Steps -/

/-- A call that waits has nothing to show. -/
theorem Stage.quiet_of_isWaiting (h : stage.isWaiting = true) :
    stage.found? = none ∧ stage.hasBegun = false ∧ stage.isPending = false := by
  cases stage <;> simp_all [Stage.isWaiting, Stage.found?, Stage.hasBegun, Stage.isPending]

/-- Most steps move a call between stages that count as one, and leave alone what is kept and what
is in the background. -/
theorem Accounted.moved (h : Accounted s) (hcall : s.calls[t]? = some c)
    (hfound : stage.found? = c.stage.found?) (hbegun : stage.hasBegun = c.stage.hasBegun)
    (hpending : stage.isPending = c.stage.isPending) (herror : p.error = s.processor.error)
    (hback : p.background = s.processor.background) :
    Accounted { s.withStage t c stage with processor := p } where
  kept := herror.trans h.kept
  once := h.once
  single := h.single
  found := h.found_moved hcall hfound
  invoked := h.invoked_moved hcall hbegun
  background k := (congrArg _ hback).trans (h.background_moved hcall hpending k)

/-- Steps that move no call. -/
theorem Accounted.of_processor (h : Accounted s) (herror : p.error = s.processor.error)
    (hback : p.background = s.processor.background) :
    Accounted { s with processor := p } where
  kept := herror.trans h.kept
  once := h.once
  single := h.single
  found := h.found
  invoked := h.invoked
  background k := (congrArg _ hback).trans (h.background k)

/-- A new call that has nothing to show changes nothing. -/
theorem bind_getElem?_append {α : Type} {f : Call μ → Option α} (hf : f c = none) (k : Ticket) :
    ((s.calls ++ [c])[k]?).bind f = (s.calls[k]?).bind f := by
  by_cases hk : k < s.calls.length
  · rw [List.getElem?_append_left hk]
  · have hbehind : s.calls.length ≤ k := Nat.le_of_not_lt hk
    rw [List.getElem?_append_right hbehind, List.getElem?_eq_none hbehind]
    cases hone : [c][k - s.calls.length]? with
    | none => rfl
    | some c' =>
      obtain rfl : c' = c := List.mem_singleton.mp (List.mem_of_getElem? hone)
      exact hf

/-- A new call has not gone on. -/
theorem Accounted.called (h : Accounted s) (message : μ) (headers : Headers) (token : Token) :
    Accounted { s with calls := s.calls ++ [{ message, headers, token }] } where
  kept := h.kept
  once := h.once
  single := h.single
  found k := (bind_getElem?_append rfl k).trans (h.found k)
  invoked k := (h.invoked k).trans (congrArg Option.toList (bind_getElem?_append rfl k).symm)
  background k :=
    (h.background k).trans (congrArg Option.toList (bind_getElem?_append rfl k).symm)

/-- A call goes on with its permit. -/
theorem Accounted.resumed (h : Accounted s) (hcall : s.calls[t]? = some c)
    (hstage : c.stage = .asking) :
    Accounted { s.withStage t c (.resumed s.processor.takeError.2) with
      processor := s.processor.takeError.1, moments := .resumed t :: s.moments } where
  kept := rfl
  once := by
    have hnew : keptFor t s.moments = none := by
      rw [← h.found t, found?_eq hcall, hstage]
      rfl
    exact List.nodup_cons.mpr ⟨keptFor_eq_none hnew, h.once⟩
  single := h.single
  found k := by
    refine (found?_withStage hcall _ k).trans ?_
    by_cases hk : k = t
    · rw [if_pos hk, keptFor, if_pos hk.symm, ← h.kept]
      rfl
    · rw [if_neg hk, keptFor, if_neg (Ne.symm hk), h.found k]
  invoked := h.invoked_moved hcall (by rw [hstage]; rfl)
  background := h.background_moved hcall (by rw [hstage]; rfl)

/-- A call hands its message on. -/
theorem Accounted.dispatched (h : Accounted s) (hcall : s.calls[t]? = some c)
    (hstage : c.stage = .resumed none) :
    Accounted { s.withStage t c (.dispatched .queued) with
      processor := s.processor.dispatch t c.message c.headers } where
  kept := h.kept
  once := h.once
  single := h.single
  found := h.found_moved hcall (by rw [hstage]; rfl)
  invoked := h.invoked_moved hcall (by rw [hstage]; rfl)
  background k := by
    refine Eq.trans ?_ (congrArg Option.toList (pending?_withStage hcall _ k).symm)
    have hbefore := h.background k
    by_cases hk : k = t
    · subst hk
      have hnone : s.pending? k = none := by
        rw [pending?_eq hcall, hstage]
        rfl
      rw [hnone] at hbefore
      simp [Bounded.dispatch, List.filter_append, hbefore, Stage.isPending, Call.job]
    · simp [Bounded.dispatch, List.filter_append, hbefore, hk, Ne.symm hk]

/-- What a ticket has in the background is its message. -/
theorem Accounted.eq_job (h : Accounted s) {job : Background μ}
    (hcall : s.calls[job.ticket]? = some c) (hjob : job ∈ s.processor.background) :
    job = c.job job.ticket := by
  have hmem : job ∈ s.processor.background.filter fun j => j.ticket == job.ticket :=
    List.mem_filter.mpr ⟨hjob, by simp⟩
  rw [h.background, pending?_eq hcall] at hmem
  split at hmem
  · exact List.mem_singleton.mp hmem
  · cases hmem

/-- One more invocation. -/
theorem invocations_invoke (s : Intake μ) (calls : List (Call μ)) (job : Background μ)
    (k : Ticket) :
    ({ s with calls, invoked := s.invoked ++ [job] } : Intake μ).invocations k =
      s.invocations k ++ if job.ticket = k then [job] else [] := by
  by_cases hk : job.ticket = k <;> simp [invocations, List.filter_append, hk]

/-- The inner processor is invoked. -/
theorem Accounted.begun (h : Accounted s) {job : Background μ}
    (hcall : s.calls[job.ticket]? = some c) (hstage : c.stage = .dispatched .queued)
    (hjob : job ∈ s.processor.background) :
    Accounted { s.withStage job.ticket c (.dispatched .running) with
      invoked := s.invoked ++ [job] } where
  kept := h.kept
  once := h.once
  single := h.single
  found := h.found_moved hcall (by rw [hstage]; rfl)
  invoked k := by
    refine (invocations_invoke s _ job k).trans
      (Eq.trans ?_ (congrArg Option.toList (begun?_withStage hcall _ k).symm))
    rw [h.invoked k]
    by_cases hk : k = job.ticket
    · subst hk
      have hnone : s.begun? job.ticket = none := by
        rw [begun?_eq hcall, hstage]
        rfl
      rw [hnone, if_pos rfl, ← h.eq_job hcall hjob]
      simp [Stage.hasBegun]
    · simp [hk, Ne.symm hk]
  background := h.background_moved hcall (by rw [hstage]; rfl)

/-- A message ends. -/
theorem Accounted.settled (h : Accounted s) {job : Background μ} (ending : Ending)
    (hcall : s.calls[job.ticket]? = some c) (hstage : c.stage = .dispatched .running) :
    Accounted ((s.withStage job.ticket c (.dispatched .settled)).afterEnding job ending) := by
  have hfound : Stage.found? (.dispatched .settled) = c.stage.found? := by rw [hstage]; rfl
  have hbegun : Stage.hasBegun (.dispatched .settled) = c.stage.hasBegun := by rw [hstage]; rfl
  have hpending : Stage.isPending (.dispatched .settled) = c.stage.isPending := by
    rw [hstage]
    rfl
  -- Only an ending that is recorded is a moment to remember.
  cases hrecorded : s.processor.recorded? ending with
  | none =>
    have herror : (s.processor.record job ending).error = s.processor.error := by
      rw [Bounded.error_record, hrecorded, Option.none_or]
    have hend : (s.withStage job.ticket c (.dispatched .settled)).afterEnding job ending =
        { s.withStage job.ticket c (.dispatched .settled) with
          processor := s.processor.record job ending } := by
      simp [afterEnding, withStage, hrecorded]
    rw [hend]
    exact h.moved hcall hfound hbegun hpending herror Bounded.background_record
  | some failure =>
    obtain ⟨cause, consumer⟩ := failure
    have herror : (s.processor.record job ending).error = some (cause, consumer) := by
      rw [Bounded.error_record, hrecorded, Option.some_or]
    have hend : (s.withStage job.ticket c (.dispatched .settled)).afterEnding job ending =
        { s.withStage job.ticket c (.dispatched .settled) with
          processor := s.processor.record job ending
          moments := .recorded job cause consumer :: s.moments } := by
      simp [afterEnding, withStage, hrecorded]
    have hsome : s.processor.recorded? ending ≠ none := by simp [hrecorded]
    have hempty : lastRecorded s.moments = none := by
      rw [← h.kept, Bounded.error_eq_none_of_recorded? hsome]
    rw [hend]
    refine ⟨herror, h.once, ⟨hempty, h.single⟩, h.found_moved hcall hfound,
      h.invoked_moved hcall hbegun, fun k => ?_⟩
    exact (congrArg _ Bounded.background_record).trans (h.background_moved hcall hpending k)

/-- A message leaves the background. -/
theorem Accounted.left (h : Accounted s) (hcall : s.calls[t]? = some c)
    (hstage : c.stage = .dispatched .settled) :
    Accounted { s.withStage t c (.dispatched .left) with processor := s.processor.leave t } where
  kept := h.kept
  once := h.once
  single := h.single
  found := h.found_moved hcall (by rw [hstage]; rfl)
  invoked := h.invoked_moved hcall (by rw [hstage]; rfl)
  background k := by
    refine Eq.trans ?_ (congrArg Option.toList (pending?_withStage hcall _ k).symm)
    by_cases hk : k = t
    · subst hk
      simp [Bounded.leave, List.filter_filter, Stage.isPending]
    · rw [if_neg hk, ← h.background k]
      simp only [Bounded.leave, List.filter_filter]
      refine List.filter_congr fun job _ => ?_
      by_cases hjob : job.ticket = k <;> simp [hjob, hk]

/-- **Every step keeps the accounts.** -/
theorem Accounted.step {e : Event μ} (h : Accounted s) (hstep : Step s e u) : Accounted u := by
  cases hstep with
  | cancel token => exact ⟨h.kept, h.once, h.single, h.found, h.invoked, h.background⟩
  | call message headers token => exact h.called message headers token
  | ask hcall hstage =>
    refine h.moved hcall ?_ ?_ ?_ Bounded.error_ask Bounded.background_ask <;> rw [hstage] <;> rfl
  | resume hcall hstage hgranted => exact h.resumed hcall hstage
  | report hcall hstage =>
    refine h.moved hcall ?_ ?_ ?_ Bounded.error_handBack Bounded.background_handBack <;>
      rw [hstage] <;> rfl
  | dispatch hcall hstage => exact h.dispatched hcall hstage
  | refuse hcall hwaiting hcancelled =>
    obtain ⟨hfound, hbegun, hpending⟩ := Stage.quiet_of_isWaiting hwaiting
    exact h.moved hcall hfound.symm hbegun.symm hpending.symm Bounded.error_withdraw
      Bounded.background_withdraw
  | drop hcall hwaiting =>
    obtain ⟨hfound, hbegun, hpending⟩ := Stage.quiet_of_isWaiting hwaiting
    exact h.moved hcall hfound.symm hbegun.symm hpending.symm Bounded.error_withdraw
      Bounded.background_withdraw
  | begin hcall hstage hjob => exact h.begun hcall hstage hjob
  | settle hcall hstage hjob ending => exact h.settled ending hcall hstage
  | leave hcall hstage => exact h.left hcall hstage
  | release hcall hstage =>
    refine h.moved hcall ?_ ?_ ?_ Bounded.error_giveBack Bounded.background_giveBack <;>
      rw [hstage] <;> rfl
  | take => exact h.of_processor rfl rfl

/-! ## Messages and failures -/

/-- The call has returned without an error. -/
def Stage.succeeded (stage : Stage) : Bool := stage.result?.any (·.isOk)

/-- The call returns this failure, or has returned it. -/
def Stage.Reports (stage : Stage) (cause : Failure) (consumer : Option String) : Prop :=
  stage = .resumed (some (cause, consumer)) ∨ stage = .reported cause consumer

theorem Stage.reports_of_found? {cause : Failure} {consumer : Option String}
    (h : stage.found? = some (some (cause, consumer))) : stage.Reports cause consumer := by
  cases stage <;> simp_all [Stage.found?, Stage.Reports]

/-- Only a call that has handed its message on returns without an error. -/
theorem Stage.succeeded_iff : stage.succeeded = true ↔ ∃ work, stage = .dispatched work := by
  cases stage <;> simp [Stage.succeeded, Stage.result?, ProcessResult.isOk, ProcessResult.failed,
    ProcessResult.pending]

theorem Stage.succeeded_of_hasBegun (h : stage.hasBegun = true) : stage.succeeded = true := by
  cases stage with
  | dispatched work => rfl
  | _ => cases h

/-- The message of a call that has returned without an error was processed, or it still can be. -/
theorem Accounted.invoked_of_succeeded (h : Accounted s) (hcall : s.calls[t]? = some c)
    (hsucceeded : c.stage.succeeded = true) :
    s.invocations t = [c.job t] ∨
      (c.stage = .dispatched .queued ∧ s.invocations t = [] ∧
        ∃ u, Step s (.begin t) u ∧ u.invocations t = [c.job t]) := by
  have hinvoked := h.invoked t
  rw [begun?_eq hcall] at hinvoked
  by_cases hbegun : c.stage.hasBegun = true
  · rw [if_pos hbegun] at hinvoked
    exact .inl hinvoked
  obtain ⟨work, hstage⟩ := Stage.succeeded_iff.mp hsucceeded
  have hqueued : c.stage = .dispatched .queued := by
    rw [hstage] at hbegun ⊢
    cases work <;> simp_all [Stage.hasBegun]
  rw [if_neg hbegun] at hinvoked
  have hmem : c.job t ∈ s.processor.background := by
    have hback := h.background t
    rw [pending?_eq hcall, hqueued] at hback
    refine List.mem_of_mem_filter (p := fun job => job.ticket == t) ?_
    rw [hback]
    exact List.mem_singleton_self _
  have hbegin : Step s (.begin (c.job t).ticket) _ := .begin hcall hqueued hmem
  refine .inr ⟨hqueued, hinvoked, _, hbegin, ?_⟩
  refine (invocations_invoke s _ (c.job t) t).trans ?_
  rw [hinvoked]
  simp [Call.job]

theorem Accounted.not_invoked (h : Accounted s)
    (hfailed : ∀ c, s.calls[t]? = some c → c.stage.succeeded = false) :
    s.invocations t = [] := by
  rw [h.invoked t]
  cases hcall : s.calls[t]? with
  | none => simp [begun?, hcall]
  | some c =>
    have hbegun : ¬ c.stage.hasBegun = true := by
      intro hbegun
      have hsucceeded := Stage.succeeded_of_hasBegun hbegun
      rw [hfailed c hcall] at hsucceeded
      cases hsucceeded
    rw [begun?_eq hcall, if_neg hbegun]
    rfl

/-- What was recorded is kept, or the next call that went on has taken it. -/
theorem Accounted.reported_of_recorded (h : Accounted s) {job : Background μ} {cause : Failure}
    {consumer : Option String}
    (hmoments : s.moments = later ++ .recorded job cause consumer :: earlier) :
    (later = [] ∧ s.processor.error = some (cause, consumer)) ∨
      ∃ rest t c, later = rest ++ [.resumed t] ∧ s.calls[t]? = some c ∧
        c.stage.Reports cause consumer := by
  have hsingle := h.single
  rw [hmoments] at hsingle
  rcases hsingle.next with rfl | ⟨rest, t, rfl⟩
  · refine .inl ⟨rfl, ?_⟩
    rw [h.kept, hmoments]
    rfl
  · have hsplit : s.moments = rest ++ .resumed t :: .recorded job cause consumer :: earlier := by
      rw [hmoments, List.append_assoc]
      rfl
    have hfound := h.found t
    rw [keptFor_of_split hsplit h.once] at hfound
    obtain ⟨c, hcall, hstage⟩ := Option.bind_eq_some_iff.mp hfound
    exact .inr ⟨rest, t, c, rfl, hcall, Stage.reports_of_found? hstage⟩

/-- **Messages and failures are accounted for.**  Whatever callers and background do in between, the
inner processor is invoked once with the message of a call that returned without an error, or the
message still is in the background and the invocation is to come; it is invoked with no other
message.  A recorded failure is kept until a call goes on with a permit, and the first such call
returns it.  A call returns only a failure that was recorded right before it went on, and it goes on
once, so no failure is returned twice. -/
theorem accounted {n : Nat} {events : List (Event μ)} (hcreate : Bounded.create n = .ok p)
    (hrun : Run Step (initial p) events s) :
    (∀ t c, s.calls[t]? = some c → c.stage.succeeded = true →
      s.invocations t = [c.job t] ∨
        (c.stage = .dispatched .queued ∧ s.invocations t = [] ∧
          ∃ u, Step s (.begin t) u ∧ u.invocations t = [c.job t])) ∧
    (∀ t, (∀ c, s.calls[t]? = some c → c.stage.succeeded = false) → s.invocations t = []) ∧
    (∀ later job cause consumer earlier,
      s.moments = later ++ .recorded job cause consumer :: earlier →
        (later = [] ∧ s.processor.error = some (cause, consumer)) ∨
          ∃ rest t c, later = rest ++ [.resumed t] ∧ s.calls[t]? = some c ∧
            c.stage.Reports cause consumer) ∧
    (∀ t c cause consumer, s.calls[t]? = some c → c.stage = .reported cause consumer →
      ∃ later job earlier,
        s.moments = later ++ .resumed t :: .recorded job cause consumer :: earlier) ∧
    (s.moments.filterMap Moment.ticket?).Nodup := by
  have h : Accounted s :=
    hrun.invariant Accounted (.initial hcreate) fun _ _ _ h hstep => h.step hstep
  refine ⟨?_, ?_, ?_, ?_, h.once⟩
  · intro t c hcall hsucceeded
    exact h.invoked_of_succeeded hcall hsucceeded
  · intro t hfailed
    exact h.not_invoked hfailed
  · intro later job cause consumer earlier hmoments
    exact h.reported_of_recorded hmoments
  · intro t c cause consumer hcall hstage
    have hfound : s.found? t = some (some (cause, consumer)) := by
      rw [found?_eq hcall, hstage]
      rfl
    exact split_of_keptFor ((h.found t).symm.trans hfound)

/-- A processor of two messages at once. -/
def two : Bounded Nat := { concurrency := 2, concurrency_gt := Nat.one_lt_two, free := 2 }

/-- A message fails while the second call waits; the second call is cancelled before it goes on. -/
def failing : List (Event Nat) :=
  [.call 1 [] ⟨0⟩, .ask 0, .resume 0, .dispatch 0, .begin 0, .call 2 [] ⟨1⟩, .ask 1,
    .settle 0 (.returned (.failed (.repository "down"))), .cancel ⟨1⟩, .refuse 1, .call 3 [] ⟨2⟩,
    .ask 2, .resume 2, .report 2]

/-- The first message went to the inner processor once, the second one never did, and the third call
returns the failure. -/
theorem accounted_failing : ∃ s c, (initial two).run? failing = some s ∧
    s.invocations 0 = [⟨0, 1, []⟩] ∧ s.invocations 1 = [] ∧ s.calls[2]? = some c ∧
    c.stage.Reports (.repository "down") none := by
  generalize hrun : (initial two).run? failing = end?
  have hend : end?.map (fun s => (s.moments, s.calls)) =
      some ([.resumed 2, .recorded ⟨0, 1, []⟩ (.repository "down") none, .resumed 0],
        [⟨1, [], ⟨0⟩, .dispatched .settled⟩, ⟨2, [], ⟨1⟩, .refused⟩,
          ⟨3, [], ⟨2⟩, .reported (.repository "down") none⟩]) := by
    subst hrun
    rfl
  obtain ⟨s, rfl, hparts⟩ := Option.map_eq_some_iff.mp hend
  obtain ⟨hmoments, hcalls⟩ := Prod.mk.inj hparts
  obtain ⟨hinvoked, hnot, hreported, -, -⟩ := accounted (n := 2) rfl (run_of_run? hrun)
  have hfirst := hinvoked 0 ⟨1, [], ⟨0⟩, .dispatched .settled⟩ (by rw [hcalls]; rfl) rfl
  have hsecond := hnot 1 fun c hcall => by
    rw [hcalls] at hcall
    obtain rfl := Option.some.inj hcall
    rfl
  rcases hreported [.resumed 2] _ _ _ [.resumed 0] hmoments with
    ⟨hnil, -⟩ | ⟨rest, t, c, hlater, hcall, hreports⟩
  · cases hnil
  have hlast := congrArg List.getLast? hlater
  obtain rfl : 2 = t := by simpa using hlast
  exact ⟨s, c, rfl, hfirst.resolve_right nofun, hsecond, hcall, hreports⟩

end Intake
end Courier
