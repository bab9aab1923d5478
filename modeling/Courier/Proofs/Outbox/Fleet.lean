import Courier.Outbox.SendingTask
import Courier.Proofs.Outbox.Forwarding
import Courier.Proofs.Outbox.Rows
import Courier.Proofs.Run

/-!
# Fleets

A fleet is any number of sending tasks that share one repository, one clock and one supply of
tokens.  Its steps are the moves of single forwarders, with everything that happens around them: the
clock shows another time, messages are captured, loops are started and stopped, calls of the
repository fail.  The result of forwarding a row is part of the event, for it is up to the bus.

A fleet remembers what its forwarders did to rows: `captured`, `delivered` and `removed` only grow.

`Step.effect` sorts the steps by what they do to rows.  Most do nothing, and the others capture one
message, carry out one call, or deliver one row.
-/

namespace Courier

/-- Where a forwarder stands in a fleet: its task, and its number among the forwarders that the task
has started. -/
structure Place where
  task : Nat
  number : Nat
deriving DecidableEq, Repr

/-- A forwarder has delivered a row. -/
structure Delivery where
  place : Place
  row : Row
deriving DecidableEq

/-- Sending tasks that share a repository. -/
structure Fleet (β : Type) where
  clock : Instant
  tokens : Tokens := {}
  repository : Repository
  tasks : List (SendingTask β)
  /-- Every row that was ever in the repository, as it was when it got there. -/
  captured : List Row
  /-- The rows whose forwarding succeeded, oldest first. -/
  delivered : List Delivery := []
  /-- The rows that calls have left out of the repository, as they were before. -/
  removed : List Row := []
  /-- When a row last passed the lease check of a forwarder. -/
  checkedAt : Place → Instant

namespace Fleet

variable {β : Type}

/-- A fleet whose tasks have not started a loop. -/
def initial (clock : Instant) (repository : Repository)
    (members : List (OutboxSettings × String)) : Fleet β :=
  { clock, repository, captured := repository.rows, checkedAt := fun _ => clock
    tasks := members.map fun m => { settings := m.1, inst := m.2 } }

/-- The forwarder at a place. -/
def forwarder? (s : Fleet β) (l : Place) : Option (Forwarder β) :=
  (s.tasks[l.task]?).bind (·.forwarder? l.number)

/-- The settings and the instance of a task. -/
def member? (s : Fleet β) (i : Nat) : Option (OutboxSettings × String) :=
  (s.tasks[i]?).map fun t => (t.settings, t.inst)

/-- The task `t` of a fleet after its forwarder at a place became `f`. -/
def withForwarder (s : Fleet β) (l : Place) (t : SendingTask β) (f : Forwarder β)
    (cleanupNext : Option Instant) : Fleet β :=
  { s with tasks := s.tasks.set l.task { t.setForwarder l.number f with cleanupNext } }

/-- What a forwarder sees when it decides. -/
def view (s : Fleet β) (t : SendingTask β) (f : Forwarder β) (route : Option String → Option β) :
    Forwarder.View β :=
  { settings := t.settings, now := s.clock, isCancelled := s.tokens.isCancelled f.token, route }

/-- Carry out a call under a token, or let it fail for a cause of its own. -/
def carryOut (s : Fleet β) (token : Token) (call : RepositoryCall) :
    Option Failure → Repository × RepositoryAnswer
  | some cause => (s.repository, .failed cause)
  | none => s.repository.perform (s.tokens.isCancelled token) s.clock call

/-- The rows that are no longer there. -/
def leftOut (old new : List Row) : List Row :=
  old.filter fun r => !new.any fun r' => r'.id == r.id

/-- What can happen in a fleet. -/
inductive Event (β : Type)
  /-- The clock shows a time. -/
  | clock (now : Instant)
  /-- A message is captured. -/
  | capture (row : Row)
  /-- A task starts its loop. -/
  | start (task : Nat)
  /-- A task gives up its loop and cancels the token of it. -/
  | stop (task : Nat)
  /-- A token is cancelled by somebody else who holds it. -/
  | cancel (token : Token)
  /-- A forwarder decides something, while buses are reachable by `route`. -/
  | decide (l : Place) (route : Option String → Option β)
  /-- A forwarder gets the answer to its call; the call may fail for a cause of its own. -/
  | call (l : Place) (failure : Option Failure)
  /-- A forwarder gets the result of forwarding a row. -/
  | forward (l : Place) (result : Except Failure Unit)
  /-- The pause of a forwarder is over; it ends early if the token is cancelled. -/
  | resume (l : Place) (early : Bool)

/-! ## Steps -/

/-- A message was captured. -/
def afterCapture (s : Fleet β) (row : Row) : Fleet β :=
  { s with
    repository := (s.repository.perform false s.clock (.save row)).1
    captured := s.captured ++ [row] }

/-- The task `t` at number `i` has started its loop. -/
def afterStart (s : Fleet β) (i : Nat) (t : SendingTask β) : Fleet β :=
  { s with
    tokens := s.tokens.fresh.2
    tasks := s.tasks.set i (t.start s.tokens.fresh.1).1 }

/-- The task `t` at number `i` has given up its forwarder `f`. -/
def afterStop (s : Fleet β) (i : Nat) (t : SendingTask β) (f : Forwarder β) : Fleet β :=
  { s with
    tokens := s.tokens.cancel f.token
    tasks := s.tasks.set i t.takeCurrent.1 }

/-- The forwarder `f` has decided. -/
def afterDecision (s : Fleet β) (l : Place) (t : SendingTask β) (f : Forwarder β)
    (route : Option String → Option β) : Fleet β :=
  let decision := f.decide (s.view t f route) t.cleanupNext
  { s.withForwarder l t decision.1 decision.2 with
    checkedAt := fun k =>
      if k = l ∧ f.passesCheck (s.view t f route) = true then s.clock else s.checkedAt k }

/-- The forwarder `f` got the answer to a call. -/
def afterCall (s : Fleet β) (l : Place) (t : SendingTask β) (f : Forwarder β)
    (call : RepositoryCall) (failure : Option Failure) : Fleet β :=
  let outcome := s.carryOut f.token call failure
  { s.withForwarder l t (f.answered outcome.2) t.cleanupNext with
    repository := outcome.1
    removed := s.removed ++ leftOut s.repository.rows outcome.1.rows }

/-- The forwarder `f` got the result of forwarding a row. -/
def afterForward (s : Fleet β) (l : Place) (t : SendingTask β) (f : Forwarder β) (idle : Bool)
    (row : Row) (rest : List Row) (result : Except Failure Unit) : Fleet β :=
  { s.withForwarder l t (f.forwarded idle row rest result) t.cleanupNext with
    delivered := match result with
      | .ok () => s.delivered ++ [⟨l, row⟩]
      | .error _ => s.delivered }

/-- One step of a fleet. -/
inductive Step : Fleet β → Event β → Fleet β → Prop
  | clock {s : Fleet β} (now : Instant) : Step s (.clock now) { s with clock := now }
  | capture {s : Fleet β} (row : Row) : Step s (.capture row) (s.afterCapture row)
  | start {s : Fleet β} {i : Nat} {t : SendingTask β} (htask : s.tasks[i]? = some t) :
      Step s (.start i) (s.afterStart i t)
  | stop {s : Fleet β} {i n : Nat} {t : SendingTask β} {f : Forwarder β}
      (htask : s.tasks[i]? = some t) (hcurrent : t.takeCurrent.2 = some n)
      (hforwarder : t.forwarder? n = some f) :
      Step s (.stop i) (s.afterStop i t f)
  | cancel {s : Fleet β} (token : Token) :
      Step s (.cancel token) { s with tokens := s.tokens.cancel token }
  | decide {s : Fleet β} {l : Place} {t : SendingTask β} {f : Forwarder β}
      (htask : s.tasks[l.task]? = some t) (hforwarder : t.forwarder? l.number = some f)
      (route : Option String → Option β) :
      Step s (.decide l route) (s.afterDecision l t f route)
  | call {s : Fleet β} {l : Place} {t : SendingTask β} {f : Forwarder β} {call : RepositoryCall}
      (htask : s.tasks[l.task]? = some t) (hforwarder : t.forwarder? l.number = some f)
      (hcall : f.call? t.inst = some call) (failure : Option Failure) :
      Step s (.call l failure) (s.afterCall l t f call failure)
  | forward {s : Fleet β} {l : Place} {t : SendingTask β} {f : Forwarder β}
      {idle : Bool} {bus : β} {row : Row} {rest : List Row}
      (htask : s.tasks[l.task]? = some t) (hforwarder : t.forwarder? l.number = some f)
      (hstage : f.stage = .forwarding idle bus row rest) (result : Except Failure Unit) :
      Step s (.forward l result) (s.afterForward l t f idle row rest result)
  | resume {s : Fleet β} {l : Place} {t : SendingTask β} {f : Forwarder β}
      (htask : s.tasks[l.task]? = some t) (hforwarder : t.forwarder? l.number = some f)
      (hstage : f.stage = .pausing) {early : Bool}
      (hearly : early = true → s.tokens.isCancelled f.token = true) :
      Step s (.resume l early) (s.withForwarder l t (f.resumed early) t.cleanupNext)

/-- A step as a computation; there is none if the forwarder does not wait for the event. -/
def step? (s : Fleet β) : Event β → Option (Fleet β)
  | .clock now => some { s with clock := now }
  | .capture row => some (s.afterCapture row)
  | .start i => do
    let t ← s.tasks[i]?
    some (s.afterStart i t)
  | .stop i => do
    let t ← s.tasks[i]?
    let n ← t.takeCurrent.2
    let f ← t.forwarder? n
    some (s.afterStop i t f)
  | .cancel token => some { s with tokens := s.tokens.cancel token }
  | .decide l route => do
    let t ← s.tasks[l.task]?
    let f ← t.forwarder? l.number
    some (s.afterDecision l t f route)
  | .call l failure => do
    let t ← s.tasks[l.task]?
    let f ← t.forwarder? l.number
    let call ← f.call? t.inst
    some (s.afterCall l t f call failure)
  | .forward l result => do
    let t ← s.tasks[l.task]?
    let f ← t.forwarder? l.number
    match f.stage with
    | .forwarding idle _ row rest => some (s.afterForward l t f idle row rest result)
    | _ => none
  | .resume l early => do
    let t ← s.tasks[l.task]?
    let f ← t.forwarder? l.number
    match f.stage with
    | .pausing =>
      if early && !s.tokens.isCancelled f.token then none
      else some (s.withForwarder l t (f.resumed early) t.cleanupNext)
    | _ => none

/-- The state that a list of events leads to. -/
def run? (s : Fleet β) : List (Event β) → Option (Fleet β)
  | [] => some s
  | e :: es => (s.step? e).bind fun u => u.run? es

variable {s u : Fleet β} {l k : Place} {i n : Nat} {t t' : SendingTask β} {f f' g : Forwarder β}
variable {e : Event β}

/-- What is computed as a step is one. -/
theorem Step.of_step? (h : s.step? e = some u) : Step s e u := by
  cases e <;>
    simp only [step?, Option.bind_eq_bind, Option.bind_eq_some_iff, Option.some.injEq] at h
  case clock now => exact h ▸ .clock now
  case capture row => exact h ▸ .capture row
  case start i =>
    obtain ⟨t, ht, rfl⟩ := h
    exact .start ht
  case stop i =>
    obtain ⟨t, ht, n, hn, f, hf, rfl⟩ := h
    exact .stop ht hn hf
  case cancel token => exact h ▸ .cancel token
  case decide l route =>
    obtain ⟨t, ht, f, hf, rfl⟩ := h
    exact .decide ht hf route
  case call l failure =>
    obtain ⟨t, ht, f, hf, call, hcall, rfl⟩ := h
    exact .call ht hf hcall failure
  case forward l result =>
    obtain ⟨t, ht, f, hf, h⟩ := h
    split at h
    · next hstage =>
      obtain rfl := Option.some.inj h
      exact .forward ht hf hstage result
    · exact absurd h nofun
  case resume l early =>
    obtain ⟨t, ht, f, hf, h⟩ := h
    split at h
    · next hstage =>
      split at h
      · exact absurd h nofun
      · next hearly =>
        obtain rfl := Option.some.inj h
        exact .resume ht hf hstage (by simpa using hearly)
    · exact absurd h nofun

/-- What is computed as a run is one. -/
theorem run_of_run? {es : List (Event β)} (h : s.run? es = some u) : Run Step s es u := by
  induction es generalizing s with
  | nil => exact Option.some.inj h ▸ .nil s
  | cons e es ih =>
      obtain ⟨v, hv, htail⟩ := Option.bind_eq_some_iff.mp h
      exact .cons (.of_step? hv) (ih htail)

/-! ## A small fleet -/

/-- One task over a repository that holds one row. -/
def single : Fleet Unit :=
  initial .epoch
    { rows := [{ id := ⟨1⟩, busName := none, path := "orders", messageType := ⟨"OrderPlaced"⟩
                 payload := [], headers := [], timestamp := .epoch }]
      batchSize := 1
      batchSize_pos := Nat.one_pos }
    [({}, "worker")]

/-- The loop of a task, until its forwarder waits for the delivery of its first row. -/
def opening (l : Place) : List (Event Unit) :=
  [.start l.task, .call l none, .decide l route, .call l none, .decide l route, .call l none,
    .decide l route]
where
  /-- Every row is delivered through the same bus. -/
  route : Option String → Option Unit := fun _ => some ()

/-- The delivery of the only row of a batch succeeds, and the loop asks for its confirmation. -/
def closing (l : Place) (failure : Option Failure) : List (Event Unit) :=
  [.forward l (.ok ()), .decide l opening.route, .decide l opening.route, .call l failure]

/-! ## Forwarders and their places -/

theorem forwarder?_eq (htask : s.tasks[l.task]? = some t) :
    s.forwarder? l = t.forwarder? l.number := by
  simp [forwarder?, htask]

/-- The forwarders of a fleet one of whose tasks has changed. -/
theorem forwarder?_of_set (htask : s.tasks[i]? = some t) (hset : u.tasks = s.tasks.set i t') :
    u.forwarder? k = if k.task = i then t'.forwarder? k.number else s.forwarder? k := by
  obtain ⟨hi, -⟩ := List.getElem?_eq_some_iff.mp htask
  by_cases hk : k.task = i
  · simp [forwarder?, hset, hk, hi]
  · simp [forwarder?, hset, List.getElem?_set_ne (Ne.symm hk), hk]

/-- After a forwarder moved, the others are what they were. -/
theorem forwarder?_withForwarder (htask : s.tasks[l.task]? = some t)
    (hforwarder : t.forwarder? l.number = some f) (next : Option Instant) :
    (s.withForwarder l t f' next).forwarder? k = if k = l then some f' else s.forwarder? k := by
  obtain ⟨hn, -⟩ := List.getElem?_eq_some_iff.mp hforwarder
  rw [forwarder?_of_set htask rfl]
  by_cases hi : k.task = l.task
  · have hs : s.forwarder? k = t.forwarder? k.number := forwarder?_eq (hi ▸ htask)
    by_cases hm : k.number = l.number
    · have hk : k = l := by cases k; cases l; simp_all
      simp [hk, SendingTask.forwarder?, SendingTask.setForwarder, hn]
    · have hk : k ≠ l := fun h => hm (h ▸ rfl)
      simp [hi, hk, hs, SendingTask.forwarder?, SendingTask.setForwarder,
        List.getElem?_set_ne (Ne.symm hm)]
  · have hk : k ≠ l := fun h => hi (h ▸ rfl)
    simp [hi, hk]

/-- Giving up a loop changes no forwarder. -/
theorem forwarder?_takeCurrent (htask : s.tasks[i]? = some t)
    (hset : u.tasks = s.tasks.set i t.takeCurrent.1) : u.forwarder? k = s.forwarder? k := by
  rw [forwarder?_of_set htask hset]
  by_cases hk : k.task = i
  · rw [if_pos hk, forwarder?_eq (hk ▸ htask)]
    rfl
  · rw [if_neg hk]

/-- A start changes no forwarder and adds at most one, which has nothing in hand. -/
theorem forwarder?_start {token : Token} (htask : s.tasks[i]? = some t)
    (hset : u.tasks = s.tasks.set i (t.start token).1) :
    u.forwarder? k =
      if k = ⟨i, t.forwarders.length⟩ ∧ t.current = none then some { token }
      else s.forwarder? k := by
  rw [forwarder?_of_set htask hset]
  cases hcurrent : t.current with
  | some n =>
    by_cases hk : k.task = i
    · simp [hk, SendingTask.start_of_current token hcurrent, forwarder?_eq (hk ▸ htask)]
    · simp [hk]
  | none =>
    by_cases hk : k.task = i
    · have hs : s.forwarder? k = t.forwarder? k.number := forwarder?_eq (hk ▸ htask)
      by_cases hm : k.number = t.forwarders.length
      · have hkm : k = ⟨i, t.forwarders.length⟩ := by cases k; simp_all
        simp [hkm, SendingTask.start, hcurrent, SendingTask.forwarder?]
      · have hkm : k ≠ ⟨i, t.forwarders.length⟩ := fun h => hm (h ▸ rfl)
        rcases Nat.lt_or_gt_of_ne hm with hlt | hgt
        · simp [hk, hkm, hs, SendingTask.start, hcurrent, SendingTask.forwarder?,
            List.getElem?_append_left hlt]
        · have hnone : t.forwarders[k.number]? = none := List.getElem?_eq_none (by omega)
          have hnew (g : Forwarder β) : (t.forwarders ++ [g])[k.number]? = none :=
            List.getElem?_eq_none (by simp only [List.length_append, List.length_singleton]; omega)
          simp [hk, hkm, hs, SendingTask.start, hcurrent, SendingTask.forwarder?, hnone, hnew]
    · have hkm : k ≠ ⟨i, t.forwarders.length⟩ := fun h => hk (h ▸ rfl)
      simp [hk, hkm]

/-! ## What a step does to rows -/

/-- One forwarder moved, and the others did not. -/
structure Moves (s u : Fleet β) (l : Place) (f f' : Forwarder β) : Prop where
  before : s.forwarder? l = some f
  after : ∀ k, u.forwarder? k = if k = l then some f' else s.forwarder? k
  token : f'.token = f.token

theorem Moves.of_withForwarder {next : Option Instant} (htask : s.tasks[l.task]? = some t)
    (hforwarder : t.forwarder? l.number = some f) (htoken : f'.token = f.token)
    (hset : u.tasks = (s.withForwarder l t f' next).tasks) : Moves s u l f f' where
  before := (forwarder?_eq htask).trans hforwarder
  after k := by
    have hu : u.forwarder? k = (s.withForwarder l t f' next).forwarder? k := by
      simp only [forwarder?, hset]
    rw [hu, forwarder?_withForwarder htask hforwarder]
  token := htoken

/-- A forwarder that is there after a move is the one that moved, or it stayed. -/
theorem Moves.eq_or_stayed (h : Moves s u l f f') (hg : u.forwarder? k = some g) :
    k = l ∧ g = f' ∨ k ≠ l ∧ s.forwarder? k = some g := by
  rw [h.after] at hg
  by_cases hk : k = l
  · rw [if_pos hk] at hg
    exact .inl ⟨hk, (Option.some.inj hg).symm⟩
  · rw [if_neg hk] at hg
    exact .inr ⟨hk, hg⟩

theorem Moves.moved (h : Moves s u l f f') : u.forwarder? l = some f' := by
  rw [h.after, if_pos rfl]

theorem Moves.stayed (h : Moves s u l f f') (hk : k ≠ l) (hg : s.forwarder? k = some g) :
    u.forwarder? k = some g := by
  rw [h.after, if_neg hk, hg]

/-- Whatever the forwarder that moves does not lose, no forwarder loses. -/
theorem Moves.keeps {P : Forwarder β → Prop} (h : Moves s u l f f') (hown : k = l → P f → P f')
    (hkeeps : ∃ g, s.forwarder? k = some g ∧ P g) : ∃ g, u.forwarder? k = some g ∧ P g := by
  obtain ⟨g, hg, hP⟩ := hkeeps
  by_cases hk : k = l
  · subst hk
    obtain rfl : f = g := Option.some.inj (h.before.symm.trans hg)
    exact ⟨f', h.moved, hown rfl hP⟩
  · exact ⟨g, h.stayed hk hg, hP⟩

/-- A step that neither touches a row of the repository nor delivers one. -/
structure Quiet (s u : Fleet β) : Prop where
  rows : u.repository.rows = s.repository.rows
  captured : u.captured = s.captured
  delivered : u.delivered = s.delivered
  removed : u.removed = s.removed
  /-- Every forwarder stays and forgets nothing that it forwarded. -/
  keeps : ∀ l f, s.forwarder? l = some f →
    ∃ f', u.forwarder? l = some f' ∧ f'.sent = f.sent ∧ f'.token = f.token
  /-- Every forwarder was there before or has nothing in hand, and nobody gets rows. -/
  comes : ∀ l f', u.forwarder? l = some f' → (f'.sent = [] ∧ f'.batch = []) ∨
    ∃ f, s.forwarder? l = some f ∧ f'.sent = f.sent ∧ f'.batch ⊆ f.batch

theorem Quiet.of_same (hrows : u.repository.rows = s.repository.rows)
    (hcaptured : u.captured = s.captured) (hdelivered : u.delivered = s.delivered)
    (hremoved : u.removed = s.removed) (hforwarder : ∀ k, u.forwarder? k = s.forwarder? k) :
    Quiet s u where
  rows := hrows
  captured := hcaptured
  delivered := hdelivered
  removed := hremoved
  keeps l f hf := ⟨f, (hforwarder l).trans hf, rfl, rfl⟩
  comes l f' hf' := .inr ⟨f', (hforwarder l).symm.trans hf', rfl, List.Subset.refl _⟩

theorem Quiet.of_moves (hmoves : Moves s u l f f') (hrows : u.repository.rows = s.repository.rows)
    (hcaptured : u.captured = s.captured) (hdelivered : u.delivered = s.delivered)
    (hremoved : u.removed = s.removed) (hsent : f'.sent = f.sent) (hbatch : f'.batch ⊆ f.batch) :
    Quiet s u where
  rows := hrows
  captured := hcaptured
  delivered := hdelivered
  removed := hremoved
  keeps k g hg := by
    refine hmoves.keeps (fun hk hown => ?_) ⟨g, hg, rfl, rfl⟩
    subst hk
    obtain rfl : f = g := Option.some.inj (hmoves.before.symm.trans hg)
    exact ⟨hsent, hmoves.token⟩
  comes k g hg := by
    rcases hmoves.eq_or_stayed hg with ⟨rfl, rfl⟩ | ⟨-, hg⟩
    · exact .inr ⟨f, hmoves.before, hsent, hbatch⟩
    · exact .inr ⟨g, hg, rfl, List.Subset.refl _⟩

/-- What a step can do to rows. -/
inductive Effect (s u : Fleet β) : Prop
  | quiet (h : Quiet s u)
  /-- A message was captured. -/
  | captured (row : Row) (hrows : u.repository.rows = s.repository.rows ++ [row])
      (hcaptured : u.captured = s.captured ++ [row]) (hdelivered : u.delivered = s.delivered)
      (hremoved : u.removed = s.removed) (hforwarder : ∀ k, u.forwarder? k = s.forwarder? k)
  /-- The call of a forwarder was carried out. -/
  | called (l : Place) (f f' : Forwarder β) (call : RepositoryCall) (hmoves : Moves s u l f f')
      (hlive : s.tokens.isCancelled f.token = false)
      (hupdates : Repository.Updates call s.clock s.repository.rows u.repository.rows)
      (hcaptured : u.captured = s.captured) (hdelivered : u.delivered = s.delivered)
      (hremoved : u.removed = s.removed ++ leftOut s.repository.rows u.repository.rows)
      (hread : f'.batch = [] ∨ ∃ inst, call = .findNextToSend inst ∧
        u.repository = s.repository ∧
        f'.batch = Repository.leasedRows inst s.clock s.repository.batchSize s.repository.rows)
      (hsent : f'.sent = f.sent ∧ (∀ ids, call ≠ .updateToSent ids) ∨
        f'.sent = [] ∧ call = .updateToSent f.sent)
  /-- A forwarder delivered a row of its batch. -/
  | delivered (l : Place) (f f' : Forwarder β) (row : Row) (hmoves : Moves s u l f f')
      (hrows : u.repository.rows = s.repository.rows) (hcaptured : u.captured = s.captured)
      (hdelivered : u.delivered = s.delivered ++ [⟨l, row⟩]) (hremoved : u.removed = s.removed)
      (hclock : u.clock = s.clock ∧ u.checkedAt = s.checkedAt)
      (hstage : ∃ idle bus rest, f.stage = .forwarding idle bus row rest)
      (hrow : row ∈ f.batch) (hbatch : f'.batch ⊆ f.batch) (hsent : f'.sent = f.sent ++ [row.id])

/-- What a forwarder confirms is what it has forwarded. -/
theorem eq_sent_of_confirmation {call : RepositoryCall} {ids : List RowId}
    (hsent : f'.sent = f.sent ∧ (∀ ids, call ≠ .updateToSent ids) ∨
      f'.sent = [] ∧ call = .updateToSent f.sent)
    (hcall : call = .updateToSent ids) : ids = f.sent ∧ f'.sent = [] := by
  rcases hsent with ⟨-, hother⟩ | ⟨hnil, hconfirm⟩
  · exact absurd hcall (hother ids)
  · exact ⟨RepositoryCall.updateToSent.inj (hcall.symm.trans hconfirm), hnil⟩

theorem leftOut_self (rows : List Row) : leftOut rows rows = [] := by
  simp only [leftOut, List.filter_eq_nil_iff]
  intro r hr
  simpa using ⟨r, hr, rfl⟩

/-- A call under a cancelled token, or one that fails, does nothing. -/
theorem carryOut_failed {token : Token} (call : RepositoryCall) {failure : Option Failure}
    (h : failure ≠ none ∨ s.tokens.isCancelled token = true) :
    ∃ cause, s.carryOut token call failure = (s.repository, .failed cause) := by
  cases failure with
  | some cause => exact ⟨cause, rfl⟩
  | none =>
    have hcancelled : s.tokens.isCancelled token = true := by simpa using h
    exact ⟨.cancelled, by rw [carryOut, hcancelled, Repository.perform_cancelled]⟩

/-- A start touches no row, and who comes has nothing in hand. -/
theorem Quiet.of_start (htask : s.tasks[i]? = some t) : Quiet s (s.afterStart i t) where
  rows := rfl
  captured := rfl
  delivered := rfl
  removed := rfl
  keeps l f hf := by
    refine ⟨f, ?_, rfl, rfl⟩
    rw [forwarder?_start htask rfl, if_neg, hf]
    rintro ⟨rfl, -⟩
    have hnone : t.forwarders[t.forwarders.length]? = some f :=
      (forwarder?_eq (l := ⟨i, t.forwarders.length⟩) htask).symm.trans hf
    simp at hnone
  comes l f' hf' := by
    rw [forwarder?_start htask rfl] at hf'
    split at hf'
    · obtain rfl := Option.some.inj hf'
      exact .inl ⟨rfl, rfl⟩
    · exact .inr ⟨f', hf', rfl, List.Subset.refl _⟩

/-- A call that fails touches no row; one that does not is carried out. -/
theorem effect_of_call {call : RepositoryCall} (htask : s.tasks[l.task]? = some t)
    (hforwarder : t.forwarder? l.number = some f) (hcall : f.call? t.inst = some call)
    (failure : Option Failure) : Effect s (s.afterCall l t f call failure) := by
  by_cases hfails : failure ≠ none ∨ s.tokens.isCancelled f.token = true
  · obtain ⟨cause, houtcome⟩ := carryOut_failed call hfails
    simp only [afterCall, houtcome, leftOut_self, List.append_nil]
    refine .quiet (.of_moves (.of_withForwarder htask hforwarder Forwarder.token_answered rfl) rfl
      rfl rfl rfl (Forwarder.sent_answered_failed cause) ?_)
    rcases Forwarder.batch_answered hcall (.failed cause) with hnil | hrows
    · simp [hnil]
    · simp at hrows
  · simp only [not_or, not_not, Bool.not_eq_true] at hfails
    obtain ⟨rfl, hlive⟩ := hfails
    have houtcome : s.carryOut f.token call none = s.repository.perform false s.clock call := by
      rw [carryOut, hlive]
    refine .called l f _ call (.of_withForwarder htask hforwarder Forwarder.token_answered rfl)
      hlive ?_ rfl rfl rfl ?_ (Forwarder.sent_answered hcall fun cause => ?_)
    · simp only [afterCall, houtcome]
      exact s.repository.perform_updates s.clock call (Forwarder.call?_ne_save hcall)
    · refine (Forwarder.batch_answered hcall _).imp_right fun hrows => ?_
      simp only [afterCall, houtcome] at hrows ⊢
      exact Repository.perform_answer_rows hrows
    · rw [houtcome]
      exact s.repository.perform_ne_failed s.clock call cause

/-- A row that was forwarded is delivered, unless it failed. -/
theorem effect_of_forward {idle : Bool} {bus : β} {row : Row} {rest : List Row}
    (htask : s.tasks[l.task]? = some t) (hforwarder : t.forwarder? l.number = some f)
    (hstage : f.stage = .forwarding idle bus row rest) (result : Except Failure Unit) :
    Effect s (s.afterForward l t f idle row rest result) := by
  have hrow : f.batch = row :: rest := Forwarder.batch_of_forwarding hstage
  have hbatch : (f.forwarded idle row rest result).batch ⊆ f.batch := by
    rw [hrow]
    exact List.Subset.trans (Forwarder.batch_forwarded_suffix result).subset
      (List.subset_cons_self _ _)
  have hmoves : Moves s (s.afterForward l t f idle row rest result) l f _ :=
    .of_withForwarder htask hforwarder (Forwarder.token_forwarded _) rfl
  cases result with
  | ok x =>
    exact .delivered l f _ row hmoves rfl rfl rfl rfl ⟨rfl, rfl⟩ ⟨idle, bus, rest, hstage⟩
      (by simp [hrow]) hbatch rfl
  | error cause =>
    exact .quiet (.of_moves hmoves rfl rfl rfl rfl (Forwarder.sent_forwarded_error cause) hbatch)

/-- **What a step can do to rows.** -/
theorem Step.effect (hstep : Step s e u) : Effect s u := by
  cases hstep with
  | clock now => exact .quiet (.of_same rfl rfl rfl rfl fun _ => rfl)
  | capture row =>
    exact .captured row (s.repository.perform_save_rows s.clock row) rfl rfl rfl fun _ => rfl
  | start htask => exact .quiet (.of_start htask)
  | stop htask hcurrent hforwarder =>
    exact .quiet (.of_same rfl rfl rfl rfl fun _ => forwarder?_takeCurrent htask rfl)
  | cancel token => exact .quiet (.of_same rfl rfl rfl rfl fun _ => rfl)
  | decide htask hforwarder route =>
    exact .quiet (.of_moves (.of_withForwarder htask hforwarder Forwarder.token_decide rfl) rfl rfl
      rfl rfl Forwarder.sent_decide Forwarder.batch_decide_suffix.subset)
  | call htask hforwarder hcall failure => exact effect_of_call htask hforwarder hcall failure
  | forward htask hforwarder hstage result =>
    exact effect_of_forward htask hforwarder hstage result
  | resume htask hforwarder hstage hearly =>
    refine .quiet (.of_moves
      (.of_withForwarder htask hforwarder (Forwarder.token_resumed _) rfl)
      rfl rfl rfl rfl rfl ?_)
    simp [Forwarder.batch_resumed]

end Fleet
end Courier
