import Courier.Proofs.Processor.Accounting
import Mathlib.Data.List.Count

/-!
# Conservation of permits

Each permit of a processor is free, held by a call that has not decided yet, or held by a message
from the moment at which its call hands it on until it is finished.  Messages in the background are
those that have not left it, so there are never more of them than permits.

Main statement: `Conserved.step`.
-/

namespace Courier

namespace Bounded

variable {μ : Type} {p : Bounded μ} {t : Ticket} {job : Background μ} {ending : Ending}
variable {message : μ} {headers : Headers}

/-- The calls that hold a permit or wait for one. -/
def queue (p : Bounded μ) : List Ticket := p.granted ++ p.waiting

/-! ## The queue -/

theorem queue_ask : (p.ask t).queue.Perm (t :: p.queue) := by
  unfold ask
  split
  · simp only [queue, List.append_assoc, List.singleton_append]
    exact List.perm_middle
  · simp only [queue, ← List.append_assoc]
    exact List.perm_append_singleton t _

theorem queue_giveBack : p.giveBack.queue = p.queue := by
  unfold giveBack
  split
  · next hwaiting => simp [queue, hwaiting]
  · rfl

theorem queue_withdraw : (p.withdraw t).queue = p.queue.erase t := by
  unfold withdraw
  split
  · next hgranted =>
    have hmem : t ∈ p.granted := by simpa [isGranted] using hgranted
    rw [queue_giveBack, queue, queue, List.erase_append_left _ hmem]
  · next hgranted =>
    have hmem : t ∉ p.granted := by simpa [isGranted] using hgranted
    rw [queue, queue, List.erase_append_right _ hmem]

theorem queue_handBack (h : t ∈ p.granted) : (p.handBack t).queue = p.queue.erase t := by
  rw [handBack, queue_giveBack, queue, queue, List.erase_append_left _ h]

theorem queue_dispatch (h : t ∈ p.granted) :
    (p.dispatch t message headers).queue = p.queue.erase t := by
  rw [queue, queue, List.erase_append_left _ h]
  rfl

/-! ## Permits that calls hold -/

theorem granted_ask (h : t ∈ p.granted) (k : Ticket) : t ∈ (p.ask k).granted := by
  unfold ask
  split
  · exact List.mem_append_left _ h
  · exact h

theorem granted_giveBack (h : t ∈ p.granted) : t ∈ p.giveBack.granted := by
  unfold giveBack
  split
  · exact List.mem_append_left _ h
  · exact h

theorem granted_withdraw {k : Ticket} (h : t ∈ p.granted) (hne : t ≠ k) :
    t ∈ (p.withdraw k).granted := by
  unfold withdraw
  split
  · exact granted_giveBack ((List.mem_erase_of_ne hne).mpr h)
  · exact h

theorem granted_handBack {k : Ticket} (h : t ∈ p.granted) (hne : t ≠ k) :
    t ∈ (p.handBack k).granted :=
  granted_giveBack ((List.mem_erase_of_ne hne).mpr h)

theorem granted_dispatch {k : Ticket} (h : t ∈ p.granted) (hne : t ≠ k) :
    t ∈ (p.dispatch k message headers).granted :=
  (List.mem_erase_of_ne hne).mpr h

/-! ## Counts -/

theorem permits_handBack (h : t ∈ p.granted) : (p.handBack t).permits = p.permits := by
  have hpos := List.length_pos_of_mem h
  rw [handBack, permits_giveBack]
  simp only [permits, List.length_erase_of_mem h]
  omega

theorem permits_dispatch (h : t ∈ p.granted) :
    (p.dispatch t message headers).permits = p.permits := by
  have hpos := List.length_pos_of_mem h
  simp only [dispatch, permits, List.length_erase_of_mem h, List.length_append,
    List.length_singleton]
  omega

@[simp] theorem pending_ask : (p.ask t).pending = p.pending := by
  unfold ask
  split <;> rfl

@[simp] theorem pending_giveBack : p.giveBack.pending = p.pending := by
  unfold giveBack
  split <;> rfl

@[simp] theorem pending_withdraw : (p.withdraw t).pending = p.pending := by
  unfold withdraw
  split <;> simp

@[simp] theorem pending_handBack : (p.handBack t).pending = p.pending := pending_giveBack

/-- An ending touches nothing but the recorded failure. -/
theorem record_eq (p : Bounded μ) (job : Background μ) (ending : Ending) :
    ∃ error failed, p.record job ending = { p with error, failed } := by
  fun_cases p.record job ending <;> exact ⟨_, _, rfl⟩

end Bounded

namespace Intake

variable {μ : Type} {n : Nat} {s u : Intake μ} {c : Call μ} {stage : Stage} {t : Ticket}
variable {p : Bounded μ}

/-! ## Permits of calls and messages -/

/-- The call has asked for a permit and not decided yet what to do with it. -/
def Stage.isUndecided : Stage → Bool
  | .asking | .resumed _ => true
  | _ => false

/-- The call goes on with its permit. -/
def Stage.isResumed : Stage → Bool
  | .resumed _ => true
  | _ => false

/-- The message of the call has left the background with its permit. -/
def Stage.isLeaving : Stage → Bool
  | .dispatched .left => true
  | _ => false

/-- The message of the call holds a permit. -/
def Stage.isCarried : Stage → Bool
  | .dispatched .finished => false
  | .dispatched _ => true
  | _ => false

/-- How many calls are at stages of a kind. -/
def count (s : Intake μ) (kind : Stage → Bool) : Nat := s.calls.countP fun c => kind c.stage

/-- Whether the call of a ticket is at a stage of a kind. -/
def isAt (s : Intake μ) (kind : Stage → Bool) (t : Ticket) : Bool :=
  (s.calls[t]?).any fun c => kind c.stage

theorem isAt_iff {kind : Stage → Bool} :
    s.isAt kind t = true ↔ ∃ c, s.calls[t]? = some c ∧ kind c.stage = true := by
  simp [isAt, Option.any_eq_true]

theorem isAt_eq (hcall : s.calls[t]? = some c) (kind : Stage → Bool) :
    s.isAt kind t = kind c.stage := by
  simp [isAt, hcall]

/-- A message with a permit is in the background or has just left it. -/
theorem count_carried (s : Intake μ) :
    s.count Stage.isCarried = s.count Stage.isPending + s.count Stage.isLeaving := by
  unfold count
  induction s.calls with
  | nil => rfl
  | cons c calls ih =>
    have hone : (if c.stage.isCarried = true then 1 else 0) =
        (if c.stage.isPending = true then 1 else 0) +
          if c.stage.isLeaving = true then 1 else 0 := by
      cases c.stage with
      | dispatched work => cases work <;> rfl
      | _ => rfl
    simp only [List.countP_cons, ih]
    omega

/-- A call that moves is counted at its new stage. -/
theorem count_withStage (hcall : s.calls[t]? = some c) (stage : Stage) (kind : Stage → Bool) :
    (s.withStage t c stage).count kind + (kind c.stage).toNat =
      s.count kind + (kind stage).toNat := by
  obtain ⟨ht, hc⟩ := List.getElem?_eq_some_iff.mp hcall
  have hpos : kind c.stage = true → 0 < s.count kind := by
    intro hkind
    exact List.countP_pos_iff.mpr ⟨c, List.mem_of_getElem? hcall, hkind⟩
  have hset : (s.withStage t c stage).count kind =
      s.count kind - (kind c.stage).toNat + (kind stage).toNat := by
    rw [count, withStage, List.countP_set ht, hc]
    cases kind c.stage <;> cases kind stage <;> rfl
  rw [hset]
  cases hold : kind c.stage with
  | false => rfl
  | true =>
    have hone := hpos hold
    simp only [Bool.toNat_true]
    omega

theorem isAt_withStage (hcall : s.calls[t]? = some c) (stage : Stage) (kind : Stage → Bool)
    (k : Ticket) :
    (s.withStage t c stage).isAt kind k = if k = t then kind stage else s.isAt kind k := by
  rw [isAt, getElem?_withStage hcall]
  split <;> rfl

/-- The permits of a processor with `n` of them, wherever they are. -/
structure Conserved (n : Nat) (s : Intake μ) : Prop where
  permits : s.processor.permits + s.count Stage.isLeaving = n
  background : s.processor.background.length = s.count Stage.isPending
  pending : s.processor.pending = s.processor.background.length
  nodup : s.processor.queue.Nodup
  /-- Who has or wants a permit has not decided yet. -/
  queued : ∀ t, t ∈ s.processor.queue ↔ s.isAt Stage.isUndecided t = true
  /-- Who goes on has a permit. -/
  granted : ∀ t, s.isAt Stage.isResumed t = true → t ∈ s.processor.granted

theorem Conserved.initial (hcreate : Bounded.create n = .ok p) : Conserved n (initial p) := by
  unfold Bounded.create at hcreate
  split at hcreate
  · obtain rfl := Except.ok.inj hcreate
    exact ⟨rfl, rfl, rfl, .nil, fun t => by simp [Intake.initial, Bounded.queue, isAt],
      fun t h => by simp [Intake.initial, isAt] at h⟩
  · cases hcreate

/-- One call moves, and the processor changes with it. -/
theorem Conserved.moved (h : Conserved n s) (hcall : s.calls[t]? = some c)
    (hpermits : p.permits + stage.isLeaving.toNat =
      s.processor.permits + c.stage.isLeaving.toNat)
    (hbackground : p.background.length + c.stage.isPending.toNat =
      s.processor.background.length + stage.isPending.toNat)
    (hpending : p.pending = p.background.length) (hnodup : p.queue.Nodup)
    (hqueued : ∀ k, k ∈ p.queue ↔ if k = t then stage.isUndecided = true else k ∈ s.processor.queue)
    (hresumed : stage.isResumed = true → t ∈ p.granted)
    (hgranted : ∀ k ≠ t, k ∈ s.processor.granted → k ∈ p.granted) :
    Conserved n { s.withStage t c stage with processor := p } where
  permits := by
    have hcount := count_withStage hcall stage Stage.isLeaving
    have hbefore := h.permits
    change p.permits + (s.withStage t c stage).count Stage.isLeaving = n
    omega
  background := by
    have hcount := count_withStage hcall stage Stage.isPending
    have hbefore := h.background
    change p.background.length = (s.withStage t c stage).count Stage.isPending
    omega
  pending := hpending
  nodup := hnodup
  queued k := by
    change k ∈ p.queue ↔ (s.withStage t c stage).isAt Stage.isUndecided k = true
    rw [hqueued, isAt_withStage hcall, h.queued]
    split <;> rfl
  granted k := by
    change (s.withStage t c stage).isAt Stage.isResumed k = true → k ∈ p.granted
    rw [isAt_withStage hcall]
    split
    · next hk => exact hk ▸ hresumed
    · next hk => exact fun hbefore => hgranted k hk (h.granted k hbefore)

/-- Tokens, recorded failures and history have no permits. -/
theorem Conserved.same (h : Conserved n s) (hcalls : u.calls = s.calls)
    {error : Option (Failure × Option String)} {failed : Option (FailedMessage μ)}
    (hprocessor : u.processor = { s.processor with error, failed }) : Conserved n u := by
  obtain ⟨processor, tokens, calls, invoked, moments⟩ := u
  dsimp only at hcalls hprocessor
  subst hcalls hprocessor
  exact ⟨h.permits, h.background, h.pending, h.nodup, h.queued, h.granted⟩

/-- A call that moves while the processor stays as it is. -/
theorem Conserved.worked (h : Conserved n s) (hcall : s.calls[t]? = some c)
    (hleaving : stage.isLeaving = c.stage.isLeaving) (hpending : stage.isPending = c.stage.isPending)
    (hundecided : stage.isUndecided = c.stage.isUndecided)
    (hresumed : stage.isResumed = true → t ∈ s.processor.granted) :
    Conserved n (s.withStage t c stage) := by
  refine h.moved hcall (by rw [hleaving]) (by rw [hpending]) h.pending h.nodup ?_ hresumed
    fun _ _ hk => hk
  intro k
  split
  · next hk => rw [hk, hundecided, h.queued, isAt_eq hcall]
  · rfl

/-! ## Steps -/

theorem Conserved.called (h : Conserved n s) (message : μ) (headers : Headers) (token : Token) :
    Conserved n { s with calls := s.calls ++ [{ message, headers, token }] } := by
  have hcount : ∀ kind : Stage → Bool, kind .called = false →
      Intake.count { s with calls := s.calls ++ [{ message, headers, token }] } kind =
        s.count kind := by
    intro kind hkind
    simp [count, hkind]
  have hat : ∀ kind : Stage → Bool, kind .called = false → ∀ t,
      Intake.isAt { s with calls := s.calls ++ [{ message, headers, token }] } kind t =
        s.isAt kind t := by
    intro kind hkind t
    by_cases ht : t < s.calls.length
    · simp [isAt, List.getElem?_append_left ht]
    · have hbehind := Nat.le_of_not_lt ht
      rcases Nat.eq_or_lt_of_le hbehind with rfl | hlt
      · simp [isAt, hkind]
      · have hold : s.calls[t]? = none := List.getElem?_eq_none hbehind
        have hnew : ∀ c : Call μ, (s.calls ++ [c])[t]? = none := by
          intro c
          refine List.getElem?_eq_none ?_
          rw [List.length_append]
          exact hlt
        simp only [isAt, hold, hnew]
  refine ⟨?_, ?_, h.pending, h.nodup, fun t => ?_, fun t => ?_⟩
  · rw [hcount _ rfl]
    exact h.permits
  · rw [hcount _ rfl]
    exact h.background
  · rw [hat _ rfl]
    exact h.queued t
  · rw [hat _ rfl]
    exact h.granted t

theorem Conserved.asked (h : Conserved n s) (hcall : s.calls[t]? = some c)
    (hstage : c.stage = .called) :
    Conserved n { s.withStage t c .asking with processor := s.processor.ask t } := by
  have hnew : t ∉ s.processor.queue := by
    rw [h.queued, isAt_eq hcall, hstage]
    exact Bool.false_ne_true
  have hback : (s.processor.ask t).background = s.processor.background := Bounded.background_ask
  refine h.moved hcall ?_ ?_ ?_ ?_ ?_ nofun fun k _ hk => Bounded.granted_ask hk t
  · rw [Bounded.permits_ask, hstage]
    rfl
  · rw [hback, hstage]
    rfl
  · rw [Bounded.pending_ask, hback, h.pending]
  · exact Bounded.queue_ask.nodup_iff.mpr (List.nodup_cons.mpr ⟨hnew, h.nodup⟩)
  · intro k
    rw [Bounded.queue_ask.mem_iff, List.mem_cons]
    split <;> simp_all [Stage.isUndecided]

/-- A call that does not go on, or gives its permit back, is not in the queue any more. -/
theorem Conserved.mem_erase (h : Conserved n s) (hdecided : stage.isUndecided = false)
    (k : Ticket) :
    k ∈ s.processor.queue.erase t ↔
      if k = t then stage.isUndecided = true else k ∈ s.processor.queue := by
  rw [h.nodup.mem_erase_iff]
  split <;> simp_all

/-- A call goes away, and so does what it has or wants. -/
theorem Conserved.withdrawn (h : Conserved n s) (hcall : s.calls[t]? = some c)
    (hwaiting : c.stage.isWaiting = true) (hdecided : stage.isUndecided = false)
    (hpending : stage.isPending = false) (hleaving : stage.isLeaving = false) :
    Conserved n { s.withStage t c stage with processor := s.processor.withdraw t } := by
  have hback : (s.processor.withdraw t).background = s.processor.background :=
    Bounded.background_withdraw
  have hold : c.stage.isPending = false ∧ c.stage.isLeaving = false := by
    cases hc : c.stage <;> simp_all [Stage.isWaiting, Stage.isPending, Stage.isLeaving]
  refine h.moved hcall ?_ ?_ ?_ ?_ ?_ ?_ fun k hk hmem => Bounded.granted_withdraw hmem hk
  · rw [Bounded.permits_withdraw, hold.2, hleaving]
  · rw [hback, hold.1, hpending]
  · rw [Bounded.pending_withdraw, hback, h.pending]
  · rw [Bounded.queue_withdraw]
    exact h.nodup.erase t
  · rw [Bounded.queue_withdraw]
    exact h.mem_erase hdecided
  · cases stage <;> simp_all [Stage.isResumed, Stage.isUndecided]

theorem Conserved.handedBack (h : Conserved n s) (hcall : s.calls[t]? = some c)
    {cause : Failure} {consumer : Option String}
    (hstage : c.stage = .resumed (some (cause, consumer))) :
    Conserved n { s.withStage t c (.reported cause consumer) with
      processor := s.processor.handBack t } := by
  have hmem : t ∈ s.processor.granted := by
    refine h.granted t ?_
    rw [isAt_eq hcall, hstage]
    rfl
  have hback : (s.processor.handBack t).background = s.processor.background :=
    Bounded.background_handBack
  refine h.moved hcall ?_ ?_ ?_ ?_ ?_ nofun fun k hk hother => Bounded.granted_handBack hother hk
  · rw [Bounded.permits_handBack hmem, hstage]
    rfl
  · rw [hback, hstage]
    rfl
  · rw [Bounded.pending_handBack, hback, h.pending]
  · rw [Bounded.queue_handBack hmem]
    exact h.nodup.erase t
  · rw [Bounded.queue_handBack hmem]
    exact h.mem_erase rfl

theorem Conserved.dispatched (h : Conserved n s) (hcall : s.calls[t]? = some c)
    (hstage : c.stage = .resumed none) :
    Conserved n { s.withStage t c (.dispatched .queued) with
      processor := s.processor.dispatch t c.message c.headers } := by
  have hmem : t ∈ s.processor.granted := by
    refine h.granted t ?_
    rw [isAt_eq hcall, hstage]
    rfl
  have hlength : (s.processor.dispatch t c.message c.headers).background.length =
      s.processor.background.length + 1 := List.length_append
  refine h.moved hcall ?_ ?_ ?_ ?_ ?_ nofun fun k hk hother => Bounded.granted_dispatch hother hk
  · rw [Bounded.permits_dispatch hmem, hstage]
    rfl
  · rw [hlength, hstage]
    rfl
  · rw [hlength, ← h.pending]
    rfl
  · rw [Bounded.queue_dispatch hmem]
    exact h.nodup.erase t
  · rw [Bounded.queue_dispatch hmem]
    exact h.mem_erase rfl

/-- A message that leaves the background keeps its permit for the time being. -/
theorem Conserved.left (h : Conserved n s) (haccounted : Accounted s)
    (hcall : s.calls[t]? = some c) (hstage : c.stage = .dispatched .settled) :
    Conserved n { s.withStage t c (.dispatched .left) with processor := s.processor.leave t } := by
  -- The message is in the background exactly once.
  have hone : (s.processor.background.filter fun job => job.ticket == t).length = 1 := by
    rw [haccounted.background, pending?_eq hcall, hstage]
    rfl
  have hlength : (s.processor.leave t).background.length + 1 = s.processor.background.length := by
    have hsplit := List.length_eq_length_filter_add (l := s.processor.background)
      fun job => job.ticket == t
    have hsame : (s.processor.leave t).background =
        s.processor.background.filter fun job => !(job.ticket == t) := rfl
    rw [hsame]
    omega
  have hpermits : (s.processor.leave t).permits + 1 = s.processor.permits := by
    have hfree : (s.processor.leave t).free = s.processor.free := rfl
    have hgranted : (s.processor.leave t).granted = s.processor.granted := rfl
    rw [Bounded.permits, Bounded.permits, hfree, hgranted]
    omega
  refine h.moved hcall ?_ ?_ ?_ h.nodup ?_ ?_ fun _ _ hk => hk
  · rw [hstage]
    exact hpermits
  · rw [hstage]
    exact hlength
  · have hpending : (s.processor.leave t).pending = s.processor.pending - 1 := rfl
    have hbefore := h.pending
    omega
  · intro k
    split
    · next hk =>
      have hqueued := h.queued k
      rw [hk, isAt_eq hcall, hstage] at hqueued
      rw [hk]
      exact hqueued
    · rfl
  · intro hresumed
    cases hresumed

/-- A permit that comes back from a message. -/
theorem Conserved.released (h : Conserved n s) (hcall : s.calls[t]? = some c)
    (hstage : c.stage = .dispatched .left) :
    Conserved n { s.withStage t c (.dispatched .finished) with
      processor := s.processor.giveBack } := by
  have hback : s.processor.giveBack.background = s.processor.background :=
    Bounded.background_giveBack
  refine h.moved hcall ?_ ?_ ?_ ?_ ?_ nofun fun _ _ hk => Bounded.granted_giveBack hk
  · rw [Bounded.permits_giveBack, hstage]
    rfl
  · rw [hback, hstage]
    rfl
  · rw [Bounded.pending_giveBack, hback, h.pending]
  · rw [Bounded.queue_giveBack]
    exact h.nodup
  · intro k
    rw [Bounded.queue_giveBack]
    split
    · next hk =>
      have hqueued := h.queued k
      rw [hk, isAt_eq hcall, hstage] at hqueued
      rw [hk]
      exact hqueued
    · rfl

/-- **Every step conserves the permits.** -/
theorem Conserved.step {e : Event μ} (h : Conserved n s) (haccounted : Accounted s)
    (hstep : Step s e u) : Conserved n u := by
  cases hstep with
  | cancel token => exact h.same rfl rfl
  | call message headers token => exact h.called message headers token
  | ask hcall hstage => exact h.asked hcall hstage
  | @resume t c hcall hstage hgranted =>
    have hmem : t ∈ s.processor.granted := by simpa [Bounded.isGranted] using hgranted
    have hworked : Conserved n (s.withStage t c (.resumed s.processor.takeError.2)) :=
      h.worked hcall (by rw [hstage]; rfl) (by rw [hstage]; rfl) (by rw [hstage]; rfl) fun _ => hmem
    exact hworked.same rfl rfl
  | report hcall hstage => exact h.handedBack hcall hstage
  | dispatch hcall hstage => exact h.dispatched hcall hstage
  | refuse hcall hwaiting hcancelled => exact h.withdrawn hcall hwaiting rfl rfl rfl
  | drop hcall hwaiting => exact h.withdrawn hcall hwaiting rfl rfl rfl
  | @begin c job hcall hstage hjob =>
    have hworked : Conserved n (s.withStage job.ticket c (.dispatched .running)) :=
      h.worked hcall (by rw [hstage]; rfl) (by rw [hstage]; rfl) (by rw [hstage]; rfl) nofun
    exact hworked.same rfl rfl
  | @settle c job hcall hstage hjob ending =>
    have hworked : Conserved n (s.withStage job.ticket c (.dispatched .settled)) :=
      h.worked hcall (by rw [hstage]; rfl) (by rw [hstage]; rfl) (by rw [hstage]; rfl) nofun
    obtain ⟨error, failed, hrecord⟩ := s.processor.record_eq job ending
    exact hworked.same rfl hrecord
  | leave hcall hstage => exact h.left haccounted hcall hstage
  | release hcall hstage => exact h.released hcall hstage
  | take => exact h.same rfl rfl

end Intake
end Courier
