import Courier.Proofs.Outbox.Accounting
import Courier.Proofs.Outbox.Holding

/-!
# No row is delivered twice

Instances share a repository, each leases rows and forwards them, and what one has forwarded it
confirms only at the end of its batch.  If nothing fails and the clock does not run away between two
lease checks, no row is delivered twice all the same, in any order of the steps of all instances.

Rows in hand stay with their holder: a row that is in flight or waits for its confirmation is held
under a lease that has not run out (`Holding`), and a lease that has not run out is exclusive.  A
delivered row waits for the confirmation of exactly one forwarder or is sent for good, so whoever
delivers a row that he holds is the first one.

All this rests on leases that end in the order in which they were asked for.  A clock that never
moves back is not enough for that: a lease of a leap second may end before one that was asked for
just before it, and then a row is delivered twice (`delivered_twice_at_leap_second`).  So `Steady`
asks for both, and outside leap seconds one follows from the other (`Orderly.steady`).
-/

namespace Courier

namespace Fleet

variable {β : Type} {s u t : Fleet β} {e : Event β} {es : List (Event β)} {l k : Place}
variable {f f' g : Forwarder β} {task : SendingTask β} {i j : Nat}
variable {settings settings' : OutboxSettings} {a b : String}

/-! ## Undisturbed runs -/

/-- Nothing is stopped, nothing fails for a cause of its own, and what is captured is not leased. -/
def Event.IsUndisturbed : Event β → Prop
  | .capture row => row.lockInstance = none
  | .stop _ | .cancel _ => False
  | .call _ failure => failure = none
  | _ => True

instance Event.decidableIsUndisturbed : (e : Event β) → Decidable e.IsUndisturbed
  | .clock _ | .start _ | .decide .. | .forward .. | .resume .. => .isTrue trivial
  | .stop _ | .cancel _ => .isFalse not_false
  | .capture row => inferInstanceAs (Decidable (row.lockInstance = none))
  | .call _ failure => inferInstanceAs (Decidable (failure = none))

/-- While a forwarder has something to confirm, the last lease check is not older than its
buffer. -/
def Punctual (s : Fleet β) : Prop :=
  ∀ l f settings a, s.forwarder? l = some f → s.member? l.task = some (settings, a) →
    f.sent ≠ [] → s.clock ≤ (s.checkedAt l).add settings.lockExpirationBuffer

/-- A step of an undisturbed fleet: the clock never moves back, and every forwarder is punctual. -/
structure Orderly (s : Fleet β) (e : Event β) (u : Fleet β) : Prop where
  step : Step s e u
  undisturbed : e.IsUndisturbed
  clock : s.clock ≤ u.clock
  punctual : u.Punctual

/-- A lease that somebody would get in the second state ends no earlier than one that he would get
in the first. -/
def LeasesLast (s u : Fleet β) : Prop :=
  ∀ i settings a, s.member? i = some (settings, a) →
    s.clock.add settings.lockExpiration ≤ u.clock.add settings.lockExpiration

/-- An orderly step that moves no end of a lease back either. -/
structure Steady (s : Fleet β) (e : Event β) (u : Fleet β) : Prop extends Orderly s e u where
  leases : s.LeasesLast u

/-- A clock that shows no leap second does not move the end of a lease back. -/
theorem Orderly.steady (h : Orderly s e u) (hs : s.clock.isLeap = false)
    (hu : u.clock.isLeap = false) : Steady s e u :=
  ⟨h, fun _ settings _ _ => Instant.add_le_add hs hu h.clock settings.lockExpiration⟩

/-! ## Members -/

theorem member?_eq (htask : s.tasks[i]? = some task) :
    s.member? i = some (task.settings, task.inst) := by
  simp [member?, htask]

theorem member?_of_set {task' : SendingTask β} (htask : s.tasks[i]? = some task)
    (hset : u.tasks = s.tasks.set i task') (hsettings : task'.settings = task.settings)
    (hinst : task'.inst = task.inst) : u.member? j = s.member? j := by
  obtain ⟨hi, -⟩ := List.getElem?_eq_some_iff.mp htask
  by_cases hj : j = i
  · subst hj
    rw [member?_eq htask]
    simp [member?, hset, hi, hsettings, hinst]
  · simp [member?, hset, List.getElem?_set_ne (Ne.symm hj)]

/-- The members of a fleet stay the same. -/
theorem Step.member? (hstep : Step s e u) (j : Nat) : u.member? j = s.member? j := by
  cases hstep with
  | clock => rfl
  | capture => rfl
  | @start i task htask =>
    refine member?_of_set htask rfl ?_ ?_ <;>
      cases h : task.current <;> simp [SendingTask.start, h]
  | stop htask => exact member?_of_set htask rfl rfl rfl
  | cancel => rfl
  | decide htask => exact member?_of_set htask rfl rfl rfl
  | call htask => exact member?_of_set htask rfl rfl rfl
  | forward htask => exact member?_of_set htask rfl rfl rfl
  | resume htask => exact member?_of_set htask rfl rfl rfl

/-- Every instance belongs to one task. -/
def Distinct (s : Fleet β) : Prop :=
  ∀ i j settings settings' a, s.member? i = some (settings, a) →
    s.member? j = some (settings', a) → i = j

/-- No task has started a second loop, and none could. -/
def Solo (s : Fleet β) : Prop :=
  ∀ (i : Nat) (task : SendingTask β), s.tasks[i]? = some task →
    task.forwarders.length ≤ 1 ∧ (task.current = none → task.forwarders = [])

theorem Solo.of_set {task' : SendingTask β} (h : Solo s) (hset : u.tasks = s.tasks.set i task')
    (hone : task'.forwarders.length ≤ 1 ∧ (task'.current = none → task'.forwarders = [])) :
    Solo u := by
  intro j other hother
  rw [hset, List.getElem?_set] at hother
  split at hother
  · split at hother
    · exact Option.some.inj hother ▸ hone
    · exact absurd hother nofun
  · exact h j other hother

/-- Without a stop no task starts a second loop. -/
theorem Solo.step (h : Solo s) (hstep : Step s e u) (hundisturbed : e.IsUndisturbed) : Solo u := by
  have hmoved : ∀ {l task f next} (f' : Forwarder β), s.tasks[l.task]? = some task →
      task.forwarder? l.number = some f → Solo (s.withForwarder l task f' next) :=
    fun {l task f next} f' htask hforwarder => by
      obtain ⟨hone, hnone⟩ := h l.task task htask
      refine h.of_set rfl ⟨by simpa [SendingTask.setForwarder] using hone, fun hcurrent => ?_⟩
      simp [SendingTask.setForwarder, hnone hcurrent]
  cases hstep with
  | clock => exact h
  | capture => exact h
  | @start i task htask =>
    obtain ⟨hone, hnone⟩ := h i task htask
    refine h.of_set rfl ?_
    cases hcurrent : task.current with
    | some n => simp [SendingTask.start, hcurrent, hone]
    | none => simp [SendingTask.start, hcurrent, hnone hcurrent]
  | stop => exact hundisturbed.elim
  | cancel => exact hundisturbed.elim
  | decide htask hforwarder => exact hmoved _ htask hforwarder
  | call htask hforwarder => exact hmoved _ htask hforwarder
  | forward htask hforwarder => exact hmoved _ htask hforwarder
  | resume htask hforwarder => exact hmoved _ htask hforwarder

/-- **An instance has at most one forwarder.** -/
theorem Solo.place_eq (h : Solo s) (hdistinct : Distinct s) (hf : s.forwarder? l = some f)
    (hg : s.forwarder? k = some g) (hl : s.member? l.task = some (settings, a))
    (hk : s.member? k.task = some (settings', a)) : l = k := by
  have hnumber : ∀ {l : Place} {f : Forwarder β}, s.forwarder? l = some f → l.number = 0 :=
    fun {l f} hf => by
      obtain ⟨task, htask, hforwarder⟩ := Option.bind_eq_some_iff.mp hf
      obtain ⟨hn, -⟩ := List.getElem?_eq_some_iff.mp hforwarder
      have hone := (h l.task task htask).1
      omega
  have htask := hdistinct _ _ _ _ _ hl hk
  have hlnumber := hnumber hf
  have hknumber := hnumber hg
  cases l
  cases k
  simp_all

theorem exists_member? (hf : s.forwarder? l = some f) :
    ∃ settings a, s.member? l.task = some (settings, a) := by
  obtain ⟨task, htask, -⟩ := Option.bind_eq_some_iff.mp hf
  exact ⟨task.settings, task.inst, member?_eq htask⟩

/-! ## Leases of all instances -/

/-- The leases of all instances are in order. -/
structure Leased (s : Fleet β) : Prop where
  order : ∀ a, Repository.LeaseOrder a s.repository.rows
  /-- No lease is longer than one that would be asked for now. -/
  horizon : ∀ i settings a, s.member? i = some (settings, a) →
    ∀ r ∈ s.repository.rows, ∀ e, r.Held a e → e ≤ s.clock.add settings.lockExpiration
  holding : ∀ l f settings a, s.forwarder? l = some f → s.member? l.task = some (settings, a) →
    Holding s.repository.rows s.clock settings a (s.checkedAt l) f

/-- A move of one forwarder that leaves the rows and the clock alone. -/
theorem Leased.of_moves (h : Leased s) (hmoves : Moves s u l f f')
    (hmember : ∀ j, u.member? j = s.member? j)
    (hrows : u.repository.rows = s.repository.rows) (hclock : u.clock = s.clock)
    (hchecked : ∀ k, k ≠ l → u.checkedAt k = s.checkedAt k)
    (hholding : ∀ settings a, s.member? l.task = some (settings, a) →
      Holding s.repository.rows s.clock settings a (u.checkedAt l) f') : Leased u where
  order := hrows ▸ h.order
  horizon i settings a hi := by
    rw [hrows, hclock]
    exact h.horizon i settings a (hmember i ▸ hi)
  holding k g settings a hg hk := by
    rw [hrows, hclock]
    rw [hmember] at hk
    rcases hmoves.eq_or_stayed hg with ⟨rfl, rfl⟩ | ⟨hkl, hg⟩
    · exact hholding settings a hk
    · rw [hchecked k hkl]
      exact h.holding k g settings a hg hk

/-! ## Calls that are carried out -/

section Call

variable {call : RepositoryCall} {answer : RepositoryAnswer}

/-- A lease that a forwarder asks for is for its instance, and it is the longest one. -/
theorem Leased.asking {expires : Instant} (h : Leased s) (hf : s.forwarder? l = some f)
    (hl : s.member? l.task = some (settings, a)) (hcall : f.call? a = some (.tryToLock b expires)) :
    b = a ∧ (∀ r ∈ s.repository.rows, ∀ e, r.Held a e → e ≤ expires) ∧
      expires ≤ s.clock.add settings.lockExpiration :=
  ⟨Forwarder.instance_of_call? hcall b rfl,
    (h.holding l f settings a hf hl).asking expires (Forwarder.call?_tryToLock hcall)⟩

theorem Leased.order_call (h : Leased s) (hf : s.forwarder? l = some f)
    (hl : s.member? l.task = some (settings, a)) (hcall : f.call? a = some call)
    (hupdates : Repository.Updates call s.clock s.repository.rows u.repository.rows)
    (hlock : ∀ expires, call = .tryToLock a expires → u.repository.rows =
      (Repository.lockRows a expires s.clock s.repository.batchSize s.repository.rows).1) :
    ∀ b, Repository.LeaseOrder b u.repository.rows := by
  intro b
  by_cases hb : ∃ e, call = .tryToLock b e
  · obtain ⟨e, rfl⟩ := hb
    obtain ⟨rfl, hlongest, -⟩ := h.asking hf hl hcall
    rw [hlock e rfl]
    exact (h.order b).lockRows hlongest s.repository.batchSize
  · exact (h.order b).of_updates hupdates fun e he => hb ⟨e, he⟩

/-- A lease was there before, or it has just been asked for. -/
theorem Leased.horizon_call (h : Leased s) (hdistinct : Distinct s) (hf : s.forwarder? l = some f)
    (hl : s.member? l.task = some (settings, a)) (hcall : f.call? a = some call)
    (hupdates : Repository.Updates call s.clock s.repository.rows u.repository.rows)
    (hi : s.member? i = some (settings', b)) :
    ∀ r ∈ u.repository.rows, ∀ e, r.Held b e → e ≤ s.clock.add settings'.lockExpiration := by
  intro r' hr' e hheld
  obtain ⟨r, hr, hchange⟩ := hupdates.source hr'
  rcases hchange.held_before hheld with hold | rfl
  · exact h.horizon i settings' b hi r hr e hold
  · obtain ⟨rfl, -, hle⟩ := h.asking hf hl hcall
    obtain rfl := hdistinct i l.task settings' settings b hi hl
    obtain ⟨rfl, -⟩ := Prod.mk.inj (Option.some.inj (hi.symm.trans hl))
    exact hle

/-- **A call does not touch what another instance has in hand**: what is confirmed is held by the
instance that confirms it. -/
theorem Leased.holding_call_of_other (h : Leased s)
    (hids : (s.repository.rows.map (·.id)).Nodup) (hf : s.forwarder? l = some f)
    (hl : s.member? l.task = some (settings, a)) (hcall : f.call? a = some call)
    (hupdates : Repository.Updates call s.clock s.repository.rows u.repository.rows)
    (hconfirms : ∀ ids, call = .updateToSent ids → ids = f.sent)
    (hg : s.forwarder? k = some g) (hk : s.member? k.task = some (settings', b)) (hne : b ≠ a)
    (hpunctual : g.sent ≠ [] → s.clock ≤ (s.checkedAt k).add settings'.lockExpirationBuffer) :
    Holding u.repository.rows s.clock settings' b (s.checkedAt k) g := by
  have hfor := Forwarder.instance_of_call? hcall
  refine (h.holding k g settings' b hg hk).call_of_other hupdates (fun c hc => hfor c hc ▸ hne) ?_
    hpunctual
  intro ids hconfirm r hr e hheld hmem
  obtain rfl := hconfirms ids hconfirm
  obtain ⟨q, hq, hid, d, hd, -⟩ := (h.holding l f settings a hf hl).sent_held r.id hmem
  obtain rfl := eq_of_id_eq hids hq hr hid
  exact hne (hheld.unique hd).1

/-- A call of one forwarder that is carried out. -/
theorem Leased.carriedOut (h : Leased s) (hdistinct : Distinct s) (hsolo : Solo s)
    (hpunctual : s.Punctual) (hids : (s.repository.rows.map (·.id)).Nodup)
    (hl : s.member? l.task = some (settings, a)) (hmoves : Moves s u l f (f.answered answer))
    (hcall : f.call? a = some call) (hmember : ∀ j, u.member? j = s.member? j)
    (hclock : u.clock = s.clock) (hchecked : u.checkedAt = s.checkedAt)
    (hupdates : Repository.Updates call s.clock s.repository.rows u.repository.rows)
    (hlock : ∀ expires, call = .tryToLock a expires → u.repository.rows =
      (Repository.lockRows a expires s.clock s.repository.batchSize s.repository.rows).1)
    (hsent : (f.answered answer).sent = f.sent ∧ (∀ ids, call ≠ .updateToSent ids) ∨
      (f.answered answer).sent = [] ∧ call = .updateToSent f.sent)
    (hread : (f.answered answer).batch = [] ∨ u.repository.rows = s.repository.rows ∧
      (f.answered answer).batch =
        Repository.leasedRows a s.clock s.repository.batchSize s.repository.rows) : Leased u := by
  have hconfirms : ∀ ids, call = .updateToSent ids → ids = f.sent := fun ids hconfirm =>
    (eq_sent_of_confirmation hsent hconfirm).1
  refine ⟨h.order_call hmoves.before hl hcall hupdates hlock, fun i settings' b hi => ?_,
    fun k g settings' b hg hk => ?_⟩
  · rw [hmember] at hi
    rw [hclock]
    exact h.horizon_call hdistinct hmoves.before hl hcall hupdates hi
  · rw [hmember] at hk
    rw [hclock, hchecked]
    rcases hmoves.eq_or_stayed hg with ⟨rfl, rfl⟩ | ⟨hkl, hg⟩
    · obtain ⟨rfl, rfl⟩ := Prod.mk.inj (Option.some.inj (hk.symm.trans hl))
      exact ((h.holding k f settings' b hmoves.before hk).call_of_self hcall (h.order b) hids hsent
        hread).2
    · have hne : b ≠ a := fun hba => hkl (hsolo.place_eq hdistinct hg hmoves.before hk (hba ▸ hl))
      exact h.holding_call_of_other hids hmoves.before hl hcall hupdates hconfirms hg hk hne
        (hpunctual k g settings' b hg hk)

end Call

/-! ## Steps -/

theorem Leased.clock {now : Instant} (h : Leased s) (hclock : s.clock ≤ now)
    (hleases : ∀ i settings a, s.member? i = some (settings, a) →
      s.clock.add settings.lockExpiration ≤ now.add settings.lockExpiration) :
    Leased { s with clock := now } where
  order := h.order
  horizon i settings a hi r hr e hheld :=
    (h.horizon i settings a hi r hr e hheld).trans (hleases i settings a hi)
  holding l f settings a hf hl :=
    (h.holding l f settings a hf hl).later hclock (hleases l.task settings a hl)

theorem Leased.capture {row : Row} (h : Leased s) (hfree : row.lockInstance = none) :
    Leased (s.afterCapture row) := by
  have hnone : ∀ a e, ¬row.Held a e := fun a e hheld =>
    absurd (hfree.symm.trans hheld.2.1) nofun
  refine ⟨fun a => ?_, fun i settings a hi r hr e hheld => ?_, fun l f settings a hf hl => ?_⟩
  · refine List.pairwise_append.mpr ⟨h.order a, List.pairwise_singleton _ _, ?_⟩
    intro r hr q hq d e hd he
    exact absurd (List.mem_singleton.mp hq ▸ he) (hnone a e)
  · rcases List.mem_append.mp hr with hr | hr
    · exact h.horizon i settings a hi r hr e hheld
    · exact absurd (List.mem_singleton.mp hr ▸ hheld) (hnone a e)
  · exact (h.holding l f settings a hf hl).capture hfree

/-- A forwarder that has just come holds nothing. -/
theorem Leased.start (h : Leased s) (htask : s.tasks[i]? = some task)
    (hmember : ∀ j, (s.afterStart i task).member? j = s.member? j) :
    Leased (s.afterStart i task) where
  order := h.order
  horizon j settings a hj := h.horizon j settings a (hmember j ▸ hj)
  holding l f settings a hf hl := by
    rw [hmember] at hl
    rw [forwarder?_start htask rfl] at hf
    split at hf
    · obtain rfl := Option.some.inj hf
      exact .of_idle rfl rfl rfl
    · exact h.holding l f settings a hf hl

theorem Leased.decide (h : Leased s) (htask : s.tasks[l.task]? = some task)
    (hforwarder : task.forwarder? l.number = some f) (route : Option String → Option β)
    (hmember : ∀ j, (s.afterDecision l task f route).member? j = s.member? j) :
    Leased (s.afterDecision l task f route) := by
  have hmoves : Moves s (s.afterDecision l task f route) l f _ :=
    .of_withForwarder htask hforwarder Forwarder.token_decide rfl
  refine h.of_moves hmoves hmember rfl rfl (fun k hk => by simp [afterDecision, hk]) ?_
  intro settings a hl
  obtain ⟨rfl, rfl⟩ := Prod.mk.inj (Option.some.inj (hl.symm.trans (member?_eq htask)))
  have hchecked : (s.afterDecision l task f route).checkedAt l =
      if f.passesCheck (s.view task f route) then s.clock else s.checkedAt l := by
    simp [afterDecision]
  rw [hchecked]
  exact (h.holding l f _ _ hmoves.before hl).decide (v := s.view task f route) (h.horizon _ _ _ hl)

/-- Without a failure and a cancelled token the call of a forwarder is carried out. -/
theorem Leased.afterCall {call : RepositoryCall} (h : Leased s) (hsourced : Sourced s)
    (hdistinct : Distinct s) (hsolo : Solo s) (hlive : s.tokens.cancelled = [])
    (hpunctual : s.Punctual) (htask : s.tasks[l.task]? = some task)
    (hforwarder : task.forwarder? l.number = some f) (hcall : f.call? task.inst = some call)
    (hmember : ∀ j, (s.afterCall l task f call none).member? j = s.member? j) :
    Leased (s.afterCall l task f call none) := by
  have houtcome : s.carryOut f.token call none = s.repository.perform false s.clock call := by
    simp [carryOut, Tokens.isCancelled, hlive]
  refine h.carriedOut hdistinct hsolo hpunctual hsourced.rows_distinct (member?_eq htask)
    (.of_withForwarder htask hforwarder Forwarder.token_answered rfl) hcall hmember rfl rfl ?_ ?_
    (Forwarder.sent_answered hcall fun cause => ?_) ?_
  · simp only [Fleet.afterCall, houtcome]
    exact s.repository.perform_updates s.clock call (Forwarder.call?_ne_save hcall)
  · rintro expires rfl
    simp only [Fleet.afterCall, houtcome]
    exact s.repository.perform_tryToLock_rows s.clock task.inst expires
  · rw [houtcome]
    exact s.repository.perform_ne_failed s.clock call cause
  · refine (Forwarder.batch_answered hcall _).imp_right fun hrows => ?_
    simp only [Fleet.afterCall, houtcome] at hrows ⊢
    obtain ⟨inst, rfl, hsame, hfound⟩ := Repository.perform_answer_rows hrows
    obtain rfl := Forwarder.instance_of_call? hcall inst rfl
    exact ⟨by rw [hsame], hfound⟩

theorem Leased.forward {idle : Bool} {bus : β} {row : Row} {rest : List Row} (h : Leased s)
    (htask : s.tasks[l.task]? = some task) (hforwarder : task.forwarder? l.number = some f)
    (hstage : f.stage = .forwarding idle bus row rest) (result : Except Failure Unit)
    (hmember : ∀ j, (s.afterForward l task f idle row rest result).member? j = s.member? j)
    (hpunctual : (s.afterForward l task f idle row rest result).Punctual) :
    Leased (s.afterForward l task f idle row rest result) := by
  have hmoves : Moves s (s.afterForward l task f idle row rest result) l f _ :=
    .of_withForwarder htask hforwarder (Forwarder.token_forwarded _) rfl
  refine h.of_moves hmoves hmember rfl rfl (fun _ _ => rfl) fun settings a hl => ?_
  have hholding := h.holding l f settings a hmoves.before hl
  cases result with
  | ok x =>
    have hnow := hpunctual l _ settings a hmoves.moved (hmember _ ▸ hl)
      (by simp [Forwarder.forwarded])
    exact (hholding.forward_succeeded hstage hnow).2.2.2
  | error cause => exact hholding.forward_failed hstage cause

theorem Leased.resume {early : Bool} {next : Option Instant} (h : Leased s)
    (htask : s.tasks[l.task]? = some task) (hforwarder : task.forwarder? l.number = some f)
    (hstage : f.stage = .pausing)
    (hmember : ∀ j, (s.withForwarder l task (f.resumed early) next).member? j = s.member? j) :
    Leased (s.withForwarder l task (f.resumed early) next) := by
  have hmoves : Moves s (s.withForwarder l task (f.resumed early) next) l f _ :=
    .of_withForwarder htask hforwarder (Forwarder.token_resumed _) rfl
  refine h.of_moves hmoves hmember rfl rfl (fun _ _ => rfl) fun settings a hl => ?_
  have hholding := h.holding l f settings a hmoves.before hl
  refine hholding.of_suffix rfl ?_ ?_ (Forwarder.isWaiting_resumed _)
  · rw [Forwarder.batch_resumed]
    exact List.nil_suffix
  · intro hne
    have hbusy := hholding.busy hne
    simp [Forwarder.isBusy, hstage] at hbusy

/-- **Every step of an undisturbed fleet keeps the leases in order.** -/
theorem Leased.step (h : Leased s) (hsourced : Sourced s) (hdistinct : Distinct s) (hsolo : Solo s)
    (hlive : s.tokens.cancelled = []) (hpunctual : s.Punctual) (hstep : Steady s e u) :
    Leased u := by
  have hmember := hstep.step.member?
  have hundisturbed := hstep.undisturbed
  cases hstep.step with
  | clock now => exact h.clock hstep.clock hstep.leases
  | capture row => exact h.capture hundisturbed
  | start htask => exact h.start htask hmember
  | stop => exact hundisturbed.elim
  | cancel => exact hundisturbed.elim
  | decide htask hforwarder route => exact h.decide htask hforwarder route hmember
  | call htask hforwarder hcall failure =>
    obtain rfl : failure = none := hundisturbed
    exact h.afterCall hsourced hdistinct hsolo hlive hpunctual htask hforwarder hcall hmember
  | forward htask hforwarder hstage result =>
    exact h.forward htask hforwarder hstage result hmember hstep.punctual
  | resume htask hforwarder hstage hearly => exact h.resume htask hforwarder hstage hmember

/-! ## Deliveries -/

/-- No row was delivered twice so far, and none that was delivered is still due for good. -/
structure DeliveredOnce (s : Fleet β) : Prop where
  once : (s.delivered.map (·.row.id)).Nodup
  settled : ∀ d ∈ s.delivered,
    (∀ r ∈ s.repository.rows, r.id = d.row.id → r.isSent = true) ∨
      ∃ l f, s.forwarder? l = some f ∧ d.row.id ∈ f.sent

/-- A row that is held was not delivered, unless its holder waits for the confirmation. -/
theorem DeliveredOnce.ne_of_held {row : Row} {expires : Instant} (h : DeliveredOnce s)
    (hleased : Leased s) (hdistinct : Distinct s) (hsolo : Solo s)
    (hids : (s.repository.rows.map (·.id)).Nodup) (hf : s.forwarder? l = some f)
    (hl : s.member? l.task = some (settings, a)) (hrow : row ∈ s.repository.rows)
    (hheld : row.Held a expires) (hdue : row.id ∉ f.sent) :
    ∀ d ∈ s.delivered, d.row.id ≠ row.id := by
  intro d hd hid
  rcases h.settled d hd with hmarked | ⟨k, g, hg, hmem⟩
  · have hsent := hmarked row hrow hid.symm
    simp [hheld.1] at hsent
  · -- Whoever waits for the confirmation of this row holds it, so it is this forwarder.
    obtain ⟨settings', b, hk⟩ := exists_member? hg
    obtain ⟨q, hq, hqid, d', hd', -⟩ := (hleased.holding k g settings' b hg hk).sent_held _ hmem
    obtain rfl := eq_of_id_eq hids hq hrow (hqid.trans hid)
    obtain ⟨rfl, -⟩ := hd'.unique hheld
    obtain rfl := hsolo.place_eq hdistinct hf hg hl hk
    obtain rfl := Option.some.inj (hf.symm.trans hg)
    exact hdue (hid ▸ hmem)

/-- **Whoever delivers a row for the first time, delivers it once.** -/
theorem DeliveredOnce.deliver {row : Row} (h : DeliveredOnce s) (hmoves : Moves s u l f f')
    (hrows : u.repository.rows = s.repository.rows)
    (hdelivered : u.delivered = s.delivered ++ [⟨l, row⟩]) (hsent : f'.sent = f.sent ++ [row.id])
    (hfirst : ∀ d ∈ s.delivered, d.row.id ≠ row.id) : DeliveredOnce u := by
  constructor
  · have hnew : row.id ∉ s.delivered.map (·.row.id) := fun hmem => by
      obtain ⟨d, hd, hid⟩ := List.mem_map.mp hmem
      exact hfirst d hd hid
    rw [hdelivered, List.map_append, List.map_singleton, ← List.concat_eq_append]
    exact h.once.concat hnew
  · intro d hd
    rw [hrows]
    rw [hdelivered, List.mem_append, List.mem_singleton] at hd
    rcases hd with hd | rfl
    · refine (h.settled d hd).imp_right fun ⟨k, hwaits⟩ => ⟨k, hmoves.keeps ?_ hwaits⟩
      exact fun _ hmem => hsent ▸ List.mem_append_left _ hmem
    · exact .inr ⟨l, f', hmoves.moved, by simp [hsent]⟩

theorem DeliveredOnce.quiet (h : DeliveredOnce s) (hquiet : Quiet s u) : DeliveredOnce u := by
  refine ⟨hquiet.delivered ▸ h.once, fun d hd => ?_⟩
  rw [hquiet.rows]
  refine (h.settled d (hquiet.delivered ▸ hd)).imp_right ?_
  rintro ⟨l, f, hf, hmem⟩
  obtain ⟨f', hf', hsent, -⟩ := hquiet.keeps l f hf
  exact ⟨l, f', hf', hsent ▸ hmem⟩

/-- A row that is captured has an id that was not delivered yet. -/
theorem DeliveredOnce.capture {row : Row} (h : DeliveredOnce s) (hsourced : Sourced s)
    (hdistinct : ((s.captured ++ [row]).map (·.id)).Nodup)
    (hrows : u.repository.rows = s.repository.rows ++ [row])
    (hdelivered : u.delivered = s.delivered)
    (hforwarder : ∀ k, u.forwarder? k = s.forwarder? k) : DeliveredOnce u := by
  refine ⟨hdelivered ▸ h.once, fun d hd => ?_⟩
  rw [hdelivered] at hd
  refine (h.settled d hd).imp ?_ ?_
  · intro hmarked r hr hid
    rw [hrows, List.mem_append, List.mem_singleton] at hr
    rcases hr with hr | rfl
    · exact hmarked r hr hid
    · exact absurd hid.symm ((hsourced.delivered_captured d hd).id_ne hdistinct)
  · rintro ⟨l, f, hf, hmem⟩
    exact ⟨l, f, (hforwarder l).trans hf, hmem⟩

/-- A confirmation settles the rows that wait for it; every other call leaves them waiting. -/
theorem DeliveredOnce.call {call : RepositoryCall} (h : DeliveredOnce s) (hmoves : Moves s u l f f')
    (hupdates : Repository.Updates call s.clock s.repository.rows u.repository.rows)
    (hdelivered : u.delivered = s.delivered)
    (hsent : f'.sent = f.sent ∧ (∀ ids, call ≠ .updateToSent ids) ∨
      f'.sent = [] ∧ call = .updateToSent f.sent) : DeliveredOnce u := by
  refine ⟨hdelivered ▸ h.once, fun d hd => ?_⟩
  rw [hdelivered] at hd
  rcases h.settled d hd with hmarked | ⟨k, g, hg, hmem⟩
  · refine .inl fun r' hr' hid => ?_
    obtain ⟨r, hr, hchange⟩ := hupdates.source hr'
    exact hchange.isSent_of_isSent (hmarked r hr (hchange.id_eq.symm.trans hid))
  · by_cases hk : k = l
    · subst hk
      obtain rfl := Option.some.inj (hmoves.before.symm.trans hg)
      rcases hsent with ⟨hsame, -⟩ | ⟨-, rfl⟩
      · exact .inr ⟨k, f', hmoves.moved, hsame ▸ hmem⟩
      · refine .inl fun r' hr' hid => ?_
        obtain ⟨r, hr, hchange⟩ := hupdates.source hr'
        exact hchange.isSent_of_mem (by rwa [← hchange.id_eq, hid])
    · exact .inr ⟨k, g, hmoves.stayed hk hg, hmem⟩

/-- **Every step of an undisturbed fleet delivers a row that was not delivered yet, or none.** -/
theorem DeliveredOnce.step (h : DeliveredOnce s) (hsourced : Sourced s)
    (hunique : (u.captured.map (·.id)).Nodup) (hleased : Leased s) (hdistinct : Distinct s)
    (hsolo : Solo s) (hstep : Orderly s e u) : DeliveredOnce u := by
  cases hstep.step.effect with
  | quiet hquiet => exact h.quiet hquiet
  | captured row hrows hcaptured hdelivered hremoved hforwarder =>
    exact h.capture hsourced (hcaptured ▸ hunique) hrows hdelivered hforwarder
  | called l f f' call hmoves hlive hupdates hcaptured hdelivered hremoved hread hsent =>
    exact h.call hmoves hupdates hdelivered hsent
  | delivered l f f' row hmoves hrows hcaptured hdelivered hremoved hclock hstage hrow hbatch
      hsent =>
    obtain ⟨settings, a, hl⟩ := exists_member? hmoves.before
    obtain ⟨idle, bus, rest, hstage⟩ := hstage
    have hnow := hstep.punctual l f' settings a hmoves.moved ((hstep.step.member? _).trans hl)
      (by simp [hsent])
    rw [hclock.1, hclock.2] at hnow
    obtain ⟨hthere, ⟨expires, hheld⟩, hdue, -⟩ :=
      (hleased.holding l f settings a hmoves.before hl).forward_succeeded hstage hnow
    exact h.deliver hmoves hrows hdelivered hsent
      (h.ne_of_held hleased hdistinct hsolo hsourced.rows_distinct hmoves.before hl hthere hheld hdue)

/-! ## Runs -/

/-- What holds in every state of an undisturbed run. -/
structure Exclusive (s : Fleet β) : Prop extends Sourced s, Leased s, DeliveredOnce s where
  distinct : Distinct s
  solo : Solo s
  live : s.tokens.cancelled = []
  punctual : s.Punctual

theorem Exclusive.step (h : Exclusive s) (hunique : (u.captured.map (·.id)).Nodup)
    (hstep : Steady s e u) : Exclusive u where
  toSourced := h.toSourced.step hunique hstep.step
  toLeased := h.toLeased.step h.toSourced h.distinct h.solo h.live h.punctual hstep
  toDeliveredOnce :=
    h.toDeliveredOnce.step h.toSourced hunique h.toLeased h.distinct h.solo hstep.toOrderly
  distinct i j settings settings' a hi hj := by
    rw [hstep.step.member?] at hi hj
    exact h.distinct i j settings settings' a hi hj
  solo := h.solo.step hstep.step hstep.undisturbed
  live := by
    have hundisturbed := hstep.undisturbed
    cases hstep.step with
    | stop => exact hundisturbed.elim
    | cancel => exact hundisturbed.elim
    | _ => exact h.live
  punctual := hstep.punctual

variable {clock : Instant} {repository : Repository} {members : List (OutboxSettings × String)}

theorem Exclusive.initial (hmembers : (members.map (·.2)).Nodup)
    (hids : (repository.rows.map (·.id)).Nodup)
    (hfree : ∀ r ∈ repository.rows, r.lockInstance = none) :
    Exclusive (Fleet.initial clock repository members : Fleet β) where
  toSourced := (Accounted.initial hids).toSourced
  toLeased := by
    have hnone : ∀ r ∈ repository.rows, ∀ a e, ¬r.Held a e := fun r hr a e hheld =>
      absurd ((hfree r hr).symm.trans hheld.2.1) nofun
    refine ⟨fun a => ?_, fun i settings a _ r hr e hheld => ?_, fun l f settings a hf => ?_⟩
    · refine (List.pairwise_of_forall_mem_list fun r hr q hq d e hd => ?_)
      exact absurd hd (hnone r hr a d)
    · exact absurd hheld (hnone r hr a e)
    · simp [forwarder?_initial] at hf
  toDeliveredOnce := ⟨List.nodup_nil, fun d hd => absurd hd List.not_mem_nil⟩
  distinct i j settings settings' a hi hj := by
    simp only [Fleet.member?, Fleet.initial, List.getElem?_map, Option.map_map,
      Option.map_eq_some_iff, Function.comp_apply] at hi hj
    obtain ⟨m, hm, hi⟩ := hi
    obtain ⟨m', hm', hj⟩ := hj
    have hsame : (members.map (·.2))[i]? = (members.map (·.2))[j]? := by
      simp [hm, hm', (Prod.mk.inj hi).2, (Prod.mk.inj hj).2]
    exact (List.getElem?_inj (by simpa using (List.getElem?_eq_some_iff.mp hm).1) hmembers).mp hsame
  solo i task htask := by
    simp only [Fleet.initial, List.getElem?_map, Option.map_eq_some_iff] at htask
    obtain ⟨m, -, rfl⟩ := htask
    exact ⟨Nat.zero_le 1, fun _ => rfl⟩
  live := rfl
  punctual l f settings a hf := by simp [forwarder?_initial] at hf

/-! ## Runs that are computed -/

theorem punctual_iff : s.Punctual ↔ ∀ x ∈ s.tasks.zipIdx, ∀ y ∈ x.1.forwarders.zipIdx,
    y.1.sent ≠ [] →
      s.clock ≤ (s.checkedAt ⟨x.2, y.2⟩).add x.1.settings.lockExpirationBuffer := by
  constructor
  · rintro h ⟨task, i⟩ htask ⟨f, n⟩ hf hsent
    rw [List.mem_zipIdx_iff_getElem?] at htask hf
    exact h ⟨i, n⟩ f task.settings task.inst ((forwarder?_eq htask).trans hf) (member?_eq htask)
      hsent
  · intro h l f settings a hf hl hsent
    obtain ⟨task, htask, hforwarder⟩ := Option.bind_eq_some_iff.mp hf
    obtain ⟨rfl, -⟩ := Prod.mk.inj (Option.some.inj ((member?_eq htask).symm.trans hl))
    exact h (task, l.task) (List.mem_zipIdx_iff_getElem?.mpr htask) (f, l.number)
      (List.mem_zipIdx_iff_getElem?.mpr hforwarder) hsent

instance : Decidable s.Punctual := decidable_of_iff' _ punctual_iff

theorem leasesLast_iff : s.LeasesLast u ↔ ∀ task ∈ s.tasks,
    s.clock.add task.settings.lockExpiration ≤ u.clock.add task.settings.lockExpiration := by
  constructor
  · intro h task htask
    obtain ⟨i, hi⟩ := List.mem_iff_getElem?.mp htask
    exact h i task.settings task.inst (member?_eq hi)
  · intro h i settings a hi
    obtain ⟨task, htask, hmember⟩ := Option.map_eq_some_iff.mp hi
    obtain ⟨rfl, -⟩ := Prod.mk.inj hmember
    exact h task (List.mem_of_getElem? htask)

instance : Decidable (s.LeasesLast u) := decidable_of_iff' _ leasesLast_iff

/-- The state that a list of events leads to, if every step is orderly and `P` holds of it. -/
def orderly? (P : Fleet β → Fleet β → Bool) (s : Fleet β) : List (Event β) → Option (Fleet β)
  | [] => some s
  | e :: es =>
    ((s.step? e).filter fun u =>
      decide (e.IsUndisturbed ∧ s.clock ≤ u.clock ∧ u.Punctual) && P s u).bind fun u =>
        u.orderly? P es

theorem run_of_orderly? {P : Fleet β → Fleet β → Bool} (h : s.orderly? P es = some t) :
    Run (fun s e u => Orderly s e u ∧ P s u = true) s es t := by
  induction es generalizing s with
  | nil => exact Option.some.inj h ▸ .nil s
  | cons e es ih =>
      obtain ⟨u, hu, htail⟩ := Option.bind_eq_some_iff.mp h
      simp only [Option.filter_eq_some_iff, Bool.and_eq_true, decide_eq_true_eq] at hu
      obtain ⟨hstep, ⟨hundisturbed, hclock, hpunctual⟩, hP⟩ := hu
      exact .cons ⟨⟨.of_step? hstep, hundisturbed, hclock, hpunctual⟩, hP⟩ (ih htail)

/-- What is computed as an orderly run is one that can be computed without looking at the order. -/
theorem run?_of_orderly? {P : Fleet β → Fleet β → Bool} (h : s.orderly? P es = some t) :
    s.run? es = some t := by
  induction es generalizing s with
  | nil => exact h
  | cons e es ih =>
      obtain ⟨u, hu, htail⟩ := Option.bind_eq_some_iff.mp h
      exact Option.bind_eq_some_iff.mpr ⟨u, (Option.filter_eq_some_iff.mp hu).1, ih htail⟩

theorem exists_run_of_orderly? {P : Fleet β → Fleet β → Bool} {Q : Fleet β → Prop}
    [DecidablePred Q] (h : (s.orderly? P es).any (fun t => decide (Q t)) = true) :
    ∃ t, Run (fun s e u => Orderly s e u ∧ P s u = true) s es t ∧ s.run? es = some t ∧ Q t := by
  simp only [Option.any_eq_true, decide_eq_true_eq] at h
  obtain ⟨t, ht, hend⟩ := h
  exact ⟨t, run_of_orderly? ht, run?_of_orderly? ht, hend⟩

/-- Two tasks over a repository that holds one row. -/
def pair (clock : Instant) (batchSize : Nat) (h : 0 < batchSize) : Fleet Unit :=
  initial clock { rows := [row 1], batchSize, batchSize_pos := h } members
where
  members : List (OutboxSettings × String) := [(settings, "first"), (settings, "second")]
  settings : OutboxSettings :=
    { pollIdleSleep := .ofMilliseconds 50, cleanup := { enabled := false } }
  /-- A message to be delivered. -/
  row (id : BitVec 128) : Row :=
    { id := ⟨id⟩, busName := none, path := "orders", messageType := ⟨"OrderPlaced"⟩
      payload := [], headers := [], timestamp := .epoch }

/-- So many milliseconds after the start of 1970. -/
def moment (ms : Nat) : Instant := Instant.epoch.add (.ofMilliseconds ms)

/-- A round begins: a forwarder leases a batch and reads what it has leased. -/
def takes (l : Place) : List (Event Unit) :=
  [.decide l opening.route, .call l none, .decide l opening.route, .call l none]

/-- The next row passes the lease check and is delivered. -/
def delivers (l : Place) : List (Event Unit) := [.decide l opening.route, .forward l (.ok ())]

/-- The batch is at its end.  What was delivered is confirmed, or what nobody can deliver is given
back; when there is nothing left to settle, another batch is read. -/
def settles (l : Place) : List (Event Unit) :=
  [.decide l opening.route, .decide l opening.route, .call l none]

/-- No bus is reachable for the only row of a batch, so it is given back, and the round is over. -/
def returns (l : Place) : List (Event Unit) :=
  .decide l (fun _ => none) :: settles l ++ settles l

/-- The next row cannot be delivered now, which ends the round, and the forwarder pauses. -/
def fails (l : Place) : List (Event Unit) :=
  [.decide l opening.route,
    .forward l (.error (.produceFailed "orders" "OrderPlaced" "unreachable")),
    .decide l opening.route, .decide l opening.route]

/-- The first instance has a row in hand when its lease runs out.  The second one takes the row
over, delivers it and confirms it, and the first one goes on with another row. -/
def takeover : List (Event Unit) :=
  [.start 0, .call ⟨0, 0⟩ none] ++ takes ⟨0, 0⟩ ++
  [.clock (moment 11000), .start 1, .call ⟨1, 0⟩ none] ++ takes ⟨1, 0⟩ ++ delivers ⟨1, 0⟩ ++
  [.clock (moment 13000)] ++ settles ⟨1, 0⟩ ++
  [.capture (pair.row 2)] ++ List.replicate 3 (.decide ⟨0, 0⟩ opening.route) ++
  [.resume ⟨0, 0⟩ false] ++ takes ⟨0, 0⟩ ++ delivers ⟨0, 0⟩ ++
  [.clock (moment 14000)] ++ settles ⟨0, 0⟩

/-- Two rows are leased just before a leap second, and in it the first of them is leased again, with
an older row in front.  When both are in one batch, the lease of the first one ends earlier, so the
check of the second one says nothing about it. -/
def acrossLeapSecond : List (Event Unit) :=
  [.start 0, .call ⟨0, 0⟩ none] ++ takes ⟨0, 0⟩ ++ returns ⟨0, 0⟩ ++
  [.clock (moment 50500), .capture (pair.row 2)] ++ takes ⟨0, 0⟩ ++ returns ⟨0, 0⟩ ++
  [.clock (moment 59900), .capture (pair.row 3), .capture (pair.row 4)] ++
  takes ⟨0, 0⟩ ++ fails ⟨0, 0⟩ ++
  [.clock ⟨59, 1000000000, by decide, by decide, by decide⟩, .resume ⟨0, 0⟩ false] ++
  takes ⟨0, 0⟩ ++ fails ⟨0, 0⟩ ++
  [.clock (moment 61000), .resume ⟨0, 0⟩ false] ++
  takes ⟨0, 0⟩ ++ delivers ⟨0, 0⟩ ++ delivers ⟨0, 0⟩ ++ settles ⟨0, 0⟩ ++ settles ⟨0, 0⟩ ++
  [.clock (moment 66000)] ++ delivers ⟨0, 0⟩ ++
  [.clock (moment 66900), .decide ⟨0, 0⟩ opening.route,
    .clock (moment 69500), .start 1, .call ⟨1, 0⟩ none] ++ takes ⟨1, 0⟩ ++ delivers ⟨1, 0⟩

/-! ## All runs -/

/-- **The lease buffer is sufficient.**  However many instances share a repository, and in whatever
order their calls, decisions and deliveries come: if nothing is stopped or fails for a cause of its
own, neither the clock nor the end of a lease counted from it moves back, and no forwarder lets more
than its buffer pass between two lease checks or before the confirmation, then no row is delivered
twice. -/
theorem delivered_at_most_once (hmembers : (members.map (·.2)).Nodup)
    (hfree : ∀ r ∈ repository.rows, r.lockInstance = none)
    (hrun : Run Steady (Fleet.initial clock repository members) es t)
    (hids : (t.captured.map (·.id)).Nodup) : (t.delivered.map (·.row.id)).Nodup := by
  have hplain : Run Step (Fleet.initial clock repository members) es t :=
    hrun.mono fun _ _ _ h => h.step
  have hfirst := captured_prefix_of_run hplain
  have hinvariant : (t.captured.map (·.id)).Nodup → Exclusive t := by
    refine hrun.invariant (fun s => (s.captured.map (·.id)).Nodup → Exclusive s)
      (fun h => Exclusive.initial hmembers h hfree) fun s e u hs hstep hu => ?_
    exact (hs (hu.sublist (hstep.step.effect.captured_prefix.sublist.map _))).step hu hstep
  exact (hinvariant hids).once

/-- Two instances, and a lease that runs out. -/
theorem delivered_at_most_once_takeover : ∃ t : Fleet Unit,
    (pair .epoch 1 Nat.one_pos).run? takeover = some t ∧
    t.delivered.map (fun d => (d.place.task, d.row.id)) = [(1, ⟨1⟩), (0, ⟨2⟩)] ∧
    (t.delivered.map (·.row.id)).Nodup := by
  have hall : ((pair .epoch 1 Nat.one_pos).orderly? (fun s u => s.LeasesLast u) takeover).any
      (fun t => decide ((t.captured.map (·.id)).Nodup ∧
        t.delivered.map (fun d => (d.place.task, d.row.id)) = [(1, ⟨1⟩), (0, ⟨2⟩)])) = true := by
    decide
  obtain ⟨t, hrun, hcomputed, hids, hdelivered⟩ := exists_run_of_orderly? hall
  have hsteady : Run Steady (pair .epoch 1 Nat.one_pos) takeover t :=
    hrun.mono fun _ _ _ h => ⟨h.1, of_decide_eq_true h.2⟩
  exact ⟨t, hcomputed, hdelivered, delivered_at_most_once (by decide) (by decide) hsteady hids⟩

/-- **At a leap second the buffer is not enough.**  The clock never moves back, every forwarder is
punctual and the settings are in order, and still a row is delivered twice. -/
theorem delivered_twice_at_leap_second : ∃ t : Fleet Unit,
    Run Orderly (pair (moment 49950) 2 Nat.two_pos) acrossLeapSecond t ∧
    (∀ m ∈ pair.members, m.1.validate = .ok ()) ∧ (pair.members.map (·.2)).Nodup ∧
    (∀ r ∈ (pair (moment 49950) 2 Nat.two_pos).repository.rows, r.lockInstance = none) ∧
    (t.captured.map (·.id)).Nodup ∧ t.delivered.map (·.row.id) = [⟨1⟩, ⟨2⟩, ⟨3⟩, ⟨3⟩] := by
  have hall : ((pair (moment 49950) 2 Nat.two_pos).orderly? (fun _ _ => true) acrossLeapSecond).any
      (fun t => decide ((t.captured.map (·.id)).Nodup ∧
        t.delivered.map (·.row.id) = [⟨1⟩, ⟨2⟩, ⟨3⟩, ⟨3⟩])) = true := by
    decide
  obtain ⟨t, hrun, -, hids, hdelivered⟩ := exists_run_of_orderly? hall
  exact ⟨t, hrun.mono fun _ _ _ h => h.1, by decide, by decide, by decide, hids, hdelivered⟩

end Fleet
end Courier
