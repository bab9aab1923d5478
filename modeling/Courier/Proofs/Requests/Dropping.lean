import Courier.Proofs.Requests.Lifetime

/-!
# Senders that go away

A sender may drop its call while it waits.  Nobody looks at the slot of the request any more, and
nothing else happens: the request stays in the store until a response or a sweep removes it.

`Traffic` is an exchange whose calls may be dropped.  Whether anybody waits for a slot matters to
its own call only, so without regard to that (`awaiting`) traffic takes the steps of an exchange,
and what is true of exchanges is true of it: `Followed.of_run`.

Main statement: `Followed.of_run`.
-/

namespace Courier

/-! ## Slots without regard to who waits -/

namespace Slot

variable {x : Slot} {o : Outcome}

/-- The slot as if somebody waited for its outcome. -/
def awaiting (x : Slot) : Slot := { x with awaited := true }

theorem awaiting_of_awaited (h : x.awaited = true) : x.awaiting = x := by
  rw [awaiting, ← h]

theorem resolve_awaiting (x : Slot) (o : Outcome) :
    x.awaiting.resolve o = ((x.resolve o).1.awaiting, (x.resolve o).2) := by
  have hsame : x.awaiting.isResolved = x.isResolved := rfl
  unfold resolve
  rw [hsame]
  split <;> rfl

theorem awaited_resolve (x : Slot) (o : Outcome) : (x.resolve o).1.awaited = x.awaited := by
  unfold resolve
  split <;> rfl

theorem awaited_receive (x : Slot) : x.receive.1.awaited = x.awaited := by
  unfold receive
  split
  · split
    · rfl
    · split <;> rfl
  · rfl

theorem receive_awaiting (h : x.awaited = true) :
    x.awaiting.receive = (x.receive.1.awaiting, x.receive.2) := by
  have hreceived : x.receive.1.awaited = true := (awaited_receive x).trans h
  rw [awaiting_of_awaited h, awaiting_of_awaited hreceived]

end Slot

namespace PendingStore

variable {s : PendingStore} {i j : SlotIndex} {o : Outcome} {id : RequestId}

/-- The store as if somebody waited for every outcome. -/
def awaiting (s : PendingStore) : PendingStore := { s with slots := s.slots.map Slot.awaiting }

theorem slot_awaiting (s : PendingStore) (i : SlotIndex) :
    s.awaiting.slot i = (s.slot i).awaiting := by
  simp only [slot, awaiting, List.getD_eq_getElem?_getD, List.getElem?_map]
  cases s.slots[i]? <;> rfl

theorem awaiting_setSlot (s : PendingStore) (i : SlotIndex) (x : Slot) :
    (s.setSlot i x).awaiting = s.awaiting.setSlot i x.awaiting := by
  simp [setSlot, awaiting]

theorem resolve_awaiting (s : PendingStore) (i : SlotIndex) (o : Outcome) :
    s.awaiting.resolve i o = ((s.resolve i o).1.awaiting, (s.resolve i o).2) := by
  simp only [resolve, slot_awaiting, Slot.resolve_awaiting, awaiting_setSlot]

theorem receive_awaiting (h : (s.slot i).awaited = true) :
    s.awaiting.receive i = ((s.receive i).1.awaiting, (s.receive i).2) := by
  simp only [receive, slot_awaiting, Slot.receive_awaiting h, awaiting_setSlot]

theorem newSlot_awaiting (s : PendingStore) :
    s.awaiting.newSlot = (s.newSlot.1.awaiting, s.newSlot.2) := by
  simp [newSlot, awaiting, Slot.awaiting]

theorem add_awaiting (s : PendingStore) (r : PendingRequest) :
    s.awaiting.add r = (s.add r).map awaiting := by
  have hfind : s.awaiting.find? r.id = s.find? r.id := rfl
  unfold add
  rw [hfind]
  split <;> rfl

theorem remove_awaiting (s : PendingStore) (id : RequestId) :
    s.awaiting.remove id = (s.remove id).awaiting := by
  have hfind : s.awaiting.find? id = s.find? id := rfl
  unfold remove
  rw [hfind]
  split
  · rfl
  · next r _ =>
    have hrelease : s.awaiting.release r = (s.release r).awaiting := by
      unfold release
      split
      · rfl
      · rw [awaiting_setSlot, slot_awaiting]
        rfl
    rw [hrelease]
    rfl

theorem removeAll_awaiting (s : PendingStore) (ids : List RequestId) :
    s.awaiting.removeAll ids = (s.removeAll ids).awaiting := by
  induction ids generalizing s with
  | nil => rfl
  | cons id ids ih =>
    have hcons : s.removeAll (id :: ids) = (s.remove id).removeAll ids := rfl
    have hcons' : s.awaiting.removeAll (id :: ids) = (s.awaiting.remove id).removeAll ids := rfl
    rw [hcons, hcons', remove_awaiting, ih]

/-- Who goes away is not missed. -/
theorem awaiting_abandon (s : PendingStore) (i : SlotIndex) :
    (s.abandon i).awaiting = s.awaiting := by
  have hsame : (s.slot i).abandon.awaiting = (s.slot i).awaiting := rfl
  rw [abandon, awaiting_setSlot, hsame, ← awaiting_setSlot, setSlot_slot]

/-! ## Who waits -/

theorem awaited_resolve (s : PendingStore) (i : SlotIndex) (o : Outcome) (j : SlotIndex) :
    ((s.resolve i o).1.slot j).awaited = (s.slot j).awaited :=
  slot_setSlot_congr Slot.awaited ((s.slot i).awaited_resolve o) j

theorem awaited_receive (s : PendingStore) (i j : SlotIndex) :
    ((s.receive i).1.slot j).awaited = (s.slot j).awaited :=
  slot_setSlot_congr Slot.awaited (s.slot i).awaited_receive j

theorem awaited_remove (s : PendingStore) (id : RequestId) (j : SlotIndex) :
    ((s.remove id).slot j).awaited = (s.slot j).awaited := by
  unfold remove
  split
  · rfl
  · next r _ =>
    have hrelease : ((s.release r).slot j).awaited = (s.slot j).awaited := by
      unfold release
      split
      · rfl
      · have hclose : (s.slot r.slot).close.awaited = (s.slot r.slot).awaited := rfl
        exact slot_setSlot_congr Slot.awaited hclose j
    exact hrelease

theorem awaited_removeAll (s : PendingStore) (ids : List RequestId) (j : SlotIndex) :
    ((s.removeAll ids).slot j).awaited = (s.slot j).awaited := by
  induction ids generalizing s with
  | nil => rfl
  | cons id ids ih => exact (ih (s.remove id)).trans (s.awaited_remove id j)

end PendingStore

/-- A call that has registered its request has it. -/
def Call.Stage.request? : Call.Stage → Option Request
  | .underway q | .resigned q | .withdrawn q => some q
  | .called | .admitted _ | .stamped .. | .refused _ => none

namespace Bus

variable {τ ι κ : Type}

/-- Opening a request does not depend on who waits for the others. -/
theorem openRequest_awaiting (b : Bus τ ι κ) (nativeHeaders : Bool)
    (settings : RequestResponseSettings) (s : PendingStore) (id : RequestId) (now : Instant)
    (d : RequestDraft) :
    b.openRequest nativeHeaders settings s.awaiting id now d =
      (b.openRequest nativeHeaders settings s id now d).map fun p => (p.1.awaiting, p.2) := by
  simp only [openRequest, bind, Except.bind, pure, Except.pure, throw, throwThe,
    MonadExceptOf.throw, PendingStore.newSlot_awaiting, PendingStore.add_awaiting]
  split
  · rfl
  split
  · rfl
  split
  · rfl
  generalize s.newSlot.1.add _ = added
  cases added <;> rfl

end Bus

namespace Request

theorem poll_awaiting {q : Request} {s : PendingStore} (h : (s.slot q.slot).awaited = true) :
    q.poll s.awaiting false = ((q.poll s false).1.awaiting, (q.poll s false).2) := by
  obtain ⟨u, received, hreceived⟩ : ∃ u received, s.receive q.slot = (u, received) := ⟨_, _, rfl⟩
  simp only [poll, PendingStore.receive_awaiting h, hreceived]
  cases received <;> rfl

theorem produced_awaiting (q : Request) (s : PendingStore) (message : TransportMessage)
    (result : Except Failure Unit) :
    q.produced s.awaiting message result =
      ((q.produced s message result).1.awaiting, (q.produced s message result).2) := by
  cases result with
  | ok _ => rfl
  | error cause => simp only [produced, PendingStore.remove_awaiting]

end Request

namespace Exchange

variable {τ ι κ : Type} {s t u : Exchange τ ι κ} {n k : Nat} {d : RequestDraft}
variable {e e' : PendingRequest} {q : Request} {es : List Event} {ev : Event}

/-! ## Entries that nobody waits for -/

/-- Whose step this is, if it is that of a call. -/
def Event.caller? : Event → Option Nat
  | .ask n | .stamp n | .register n _ | .produced n _ | .poll n | .resign n | .withdraw n
  | .collect n => some n
  | _ => none

/-- The requests that a response or a sweep removes in this step. -/
def cleared (s : Exchange τ ι κ) : Event → List RequestId
  | .clear i => (s.replies[i]?.map (·.response.id)).toList
  | .finish k => (s.sweeps[k]?.map (·.stage.processed)).getD []
  | _ => []

/-- The request of a call is the one that it registered. -/
theorem Correlated.exists_registered {c : Call} (h : Correlated s) (hcall : s.calls[n]? = some c)
    (hrequest : c.stage.request? = some q) : ∃ e, s.Registered n c.draft e q := by
  have hsound := h.calls n c hcall
  obtain ⟨d, stage⟩ := c
  cases stage with
  | underway q' =>
    obtain rfl := Option.some.inj hrequest
    exact hsound.imp fun _ => And.left
  | resigned q' =>
    obtain rfl := Option.some.inj hrequest
    exact hsound.imp fun _ => And.left
  | withdrawn q' =>
    obtain rfl := Option.some.inj hrequest
    exact hsound.imp fun _ => And.left
  | _ => cases hrequest

/-- A call that removes its request removes no other. -/
theorem Correlated.mem_remove_of_ne {c : Call} (h : Correlated s) (hdistinct : s.Distinct)
    (howns : s.Owns n e) (hcall : s.calls[k]? = some c) (hrequest : c.stage.request? = some q)
    (hne : k ≠ n) : e ∈ (s.store.remove q.id).entries ↔ e ∈ s.store.entries := by
  obtain ⟨e', howns', settings, -, hopened⟩ := h.exists_registered hcall hrequest
  refine (mem_removeAll h [q.id]).trans (and_iff_left fun hid => ?_)
  have hsame : e.id = e'.id := (List.mem_singleton.mp hid).trans hopened.id
  exact hne (hdistinct.unique howns howns' hsame).1.symm

/-- A request leaves the store by a step of its own call, or because a response or a sweep removes
it. -/
theorem Step.mem_entries (h : Correlated s) (hdistinct : s.Distinct) (howns : s.Owns n e)
    (hstep : Step s ev u) (hother : ev.caller? ≠ some n) :
    e ∈ u.store.entries ↔ e ∈ s.store.entries ∧ e.id ∉ s.cleared ev := by
  have hkeep : e ∈ s.store.entries ↔ e ∈ s.store.entries ∧ e.id ∉ ([] : List RequestId) := by simp
  cases hstep with
  | @register k d settings created id store q e' hcall hopen hentry =>
    obtain ⟨e'', m, rfl, hfind, -, hslot, -⟩ := Bus.openRequest_ok hopen
    refine Iff.trans ?_ hkeep
    have hne : e ≠ e'' := by
      rintro rfl
      exact absurd hslot (Nat.ne_of_lt (h.slot_lt howns))
    simp [hne]
  | @produced k d q message hcall hstage result =>
    cases result with
    | ok _ => exact hkeep
    | error cause =>
      have hne : k ≠ n := fun hk => hother (congrArg some hk)
      exact (h.mem_remove_of_ne hdistinct howns hcall rfl hne).trans hkeep
  | @withdraw k d q hcall =>
    have hne : k ≠ n := fun hk => hother (congrArg some hk)
    exact (h.mem_remove_of_ne hdistinct howns hcall rfl hne).trans hkeep
  | @poll k d q hcall hstage =>
    refine Iff.trans (iff_of_eq ?_) hkeep
    rw [Request.poll_store]
    rfl
  | @clear i r hreply hstage =>
    have hcleared : s.cleared (.clear i) = [r.response.id] := by simp [cleared, hreply]
    rw [hcleared]
    exact mem_removeAll h [r.response.id]
  | @finish k now processed hsweep =>
    have hcleared : s.cleared (.finish k) = processed := by
      simp [cleared, hsweep, Sweeping.Stage.processed]
    rw [hcleared]
    exact (mem_removeAll h processed.reverse).trans (by simp)
  | _ => exact hkeep

/-! ## Exchanges without regard to who waits -/

/-- The exchange as if somebody waited for every outcome. -/
def awaiting (s : Exchange τ ι κ) : Exchange τ ι κ := { s with store := s.store.awaiting }

theorem resolve_awaiting (s : Exchange τ ι κ) (i : SlotIndex) (o : Outcome) (resolver : Resolver) :
    s.awaiting.resolve i o resolver = (s.resolve i o resolver).awaiting := by
  have hstore : s.awaiting.store.resolve i o = _ := s.store.resolve_awaiting i o
  rw [resolve, hstore]
  rfl

/-- A step is one without regard to who waits, if nobody is gone who takes it. -/
theorem Step.awaiting (hstep : Step s ev u)
    (hpresent : ∀ (n : Nat) c q, ev.caller? = some n → s.calls[n]? = some c →
      c.stage.request? = some q → (s.store.slot q.slot).awaited = true) :
    Step s.awaiting ev u.awaiting := by
  cases hstep with
  | clock now => exact .clock now
  | cancel token => exact .cancel token
  | dispose hbegin => exact .dispose hbegin
  | disposed => exact .disposed
  | call draft => exact .call draft
  | ask hcall => exact .ask hcall
  | stamp hcall => exact .stamp hcall
  | @register n d settings created id store q e hcall hopen hentry =>
    have hopened : s.bus.openRequest s.nativeHeaders settings s.store.awaiting id created d =
        .ok (store.awaiting, q) := by
      rw [Bus.openRequest_awaiting, hopen]
      rfl
    exact .register hcall hopened hentry
  | @refuse n d settings created id cause hcall hopen =>
    have hrefused : s.bus.openRequest s.nativeHeaders settings s.store.awaiting id created d =
        .error cause := by
      rw [Bus.openRequest_awaiting, hopen]
      rfl
    exact .refuse hcall hrefused
  | @produced n d q message hcall hstage result =>
    have hnext := Step.produced (s := s.awaiting) hcall hstage result
    have hsame : q.produced s.awaiting.store message result = _ :=
      q.produced_awaiting s.store message result
    rw [hsame] at hnext
    exact hnext
  | @poll n d q hcall hstage =>
    have hnext := Step.poll (s := s.awaiting) hcall hstage
    have hsame : q.poll s.awaiting.store false = _ :=
      Request.poll_awaiting (hpresent n _ q rfl hcall rfl)
    rw [hsame] at hnext
    exact hnext
  | resign hcall hstage hcancelled =>
    have hnext := Step.resign (s := s.awaiting) hcall hstage hcancelled
    rw [resolve_awaiting] at hnext
    exact hnext
  | @withdraw n d q hcall =>
    have hnext := Step.withdraw (s := s.awaiting) hcall
    have hsame : s.awaiting.store.remove q.id = _ := s.store.remove_awaiting q.id
    rw [hsame] at hnext
    exact hnext
  | @collect n d q hcall =>
    have hnext := Step.collect (s := s.awaiting) hcall
    have hsame : s.awaiting.store.receive q.slot = _ :=
      PendingStore.receive_awaiting (hpresent n _ q rfl hcall rfl)
    rw [hsame] at hnext
    exact hnext
  | arrive hfind => exact .arrive hfind
  | discard hfind => exact .discard hfind
  | answer hreply hstage =>
    have hnext := Step.answer (s := s.awaiting) hreply hstage
    rw [resolve_awaiting] at hnext
    exact hnext
  | @clear i r hreply hstage =>
    have hnext := Step.clear (s := s.awaiting) hreply hstage
    have hsame : s.awaiting.store.remove r.response.id = _ := s.store.remove_awaiting r.response.id
    rw [hsame] at hnext
    exact hnext
  | sweep => exact .sweep
  | gather hsweep => exact .gather hsweep
  | @inspect k now e remaining processed hsweep =>
    have hnext := Step.inspect (s := s.awaiting) hsweep
    have hsame : s.awaiting.store.slot e.slot = _ := s.store.slot_awaiting e.slot
    rw [afterInspection, hsame] at hnext
    exact hnext
  | strike hsweep =>
    have hnext := Step.strike (s := s.awaiting) hsweep
    rw [resolve_awaiting] at hnext
    exact hnext
  | @finish k now processed hsweep =>
    have hnext := Step.finish (s := s.awaiting) hsweep
    have hsame : s.awaiting.store.removeAll processed.reverse = _ :=
      s.store.removeAll_awaiting processed.reverse
    rw [hsame] at hnext
    exact hnext

/-- No step of an exchange changes who waits. -/
theorem Step.awaited (hstep : Step s ev u) (i : SlotIndex) :
    (u.store.slot i).awaited = (s.store.slot i).awaited := by
  cases hstep with
  | register hcall hopen hentry =>
    obtain ⟨e, m, rfl, -⟩ := Bus.openRequest_ok hopen
    exact congrArg Slot.awaited (PendingStore.slot_append _ i)
  | @produced n d q message hcall hstage result =>
    cases result with
    | ok _ => rfl
    | error cause => exact s.store.awaited_remove q.id i
  | @poll n d q hcall hstage =>
    rw [Request.poll_store]
    exact s.store.awaited_receive q.slot i
  | resign hcall hstage hcancelled => exact s.store.awaited_resolve _ _ i
  | withdraw hcall => exact s.store.awaited_remove _ i
  | collect hcall => exact s.store.awaited_receive _ i
  | answer hreply hstage => exact s.store.awaited_resolve _ _ i
  | clear hreply hstage => exact s.store.awaited_remove _ i
  | strike hsweep => exact s.store.awaited_resolve _ _ i
  | finish hsweep => exact s.store.awaited_removeAll _ i
  | _ => rfl

theorem resolved_awaiting (s : Exchange τ ι κ) (e : PendingRequest) :
    s.awaiting.Resolved e ↔ s.Resolved e := by
  have hslot : s.awaiting.store.slot e.slot = _ := s.store.slot_awaiting e.slot
  rw [Resolved, hslot]
  rfl

end Exchange

/-! ## Traffic -/

namespace Call.Stage

/-- Whether a call waits at this stage, so that it may be dropped. -/
def isSuspended : Call.Stage → Bool
  | .called | .withdrawn _ => true
  | .underway q =>
    match q.stage with
    | .producing _ | .waiting => true
    | .ended _ => false
  | .admitted _ | .stamped .. | .resigned _ | .refused _ => false

/-- The store once a call is dropped at this stage. -/
def abandon (stage : Call.Stage) (s : PendingStore) : PendingStore :=
  match stage.request? with
  | some q => s.abandon q.slot
  | none => s

end Call.Stage

/-- An exchange with the calls that were dropped. -/
structure Traffic (τ ι κ : Type) where
  exchange : Exchange τ ι κ
  dropped : List Nat := []

namespace Traffic

variable {τ ι κ : Type}

/-- What can happen in traffic. -/
inductive Event
  /-- What can happen in an exchange. -/
  | act (ev : Exchange.Event)
  /-- A call is dropped. -/
  | drop (n : Nat)

/-- What happens in the exchange. -/
def Event.act? : Event → Option Exchange.Event
  | .act ev => some ev
  | .drop _ => none

/-- What has happened in the exchange. -/
def acts (es : List Event) : List Exchange.Event := es.filterMap Event.act?

/-- The requests that a response or a sweep removes in this step. -/
def cleared (x : Traffic τ ι κ) : Event → List RequestId
  | .act ev => x.exchange.cleared ev
  | .drop _ => []

/-- One step of traffic: calls that were dropped take none. -/
inductive Step : Traffic τ ι κ → Event → Traffic τ ι κ → Prop
  | act {x : Traffic τ ι κ} {ev : Exchange.Event} {s : Exchange τ ι κ}
      (hstep : Exchange.Step x.exchange ev s)
      (hpresent : ∀ n, ev.caller? = some n → n ∉ x.dropped) :
      Step x (.act ev) { x with exchange := s }
  | drop {x : Traffic τ ι κ} {n : Nat} {c : Call} (hcall : x.exchange.calls[n]? = some c)
      (hpresent : n ∉ x.dropped) (hsuspended : c.stage.isSuspended = true) :
      Step x (.drop n)
        { exchange := { x.exchange with store := c.stage.abandon x.exchange.store }
          dropped := n :: x.dropped }

/-- A step in which neither a response nor a sweep removes the request with this id. -/
def Spares (id : RequestId) (x : Traffic τ ι κ) (ev : Event) (y : Traffic τ ι κ) : Prop :=
  Step x ev y ∧ id ∉ x.cleared ev

/-- Traffic in which nothing was sent. -/
def initial (bus : Bus τ ι κ) (nativeHeaders : Bool) (clock : Instant) (tokens : Tokens) :
    Traffic τ ι κ :=
  { exchange := .initial bus nativeHeaders clock tokens }

variable {first : Exchange τ ι κ} {x y : Traffic τ ι κ} {es ds : List Event} {ev : Event}
variable {n : Nat} {e : PendingRequest}

/-- Without regard to who waits, traffic has come from `first` as an exchange does, and nobody but
those who were dropped has gone away. -/
structure Followed (first : Exchange τ ι κ) (es : List Event) (x : Traffic τ ι κ) : Prop where
  run : Run Exchange.Step first (acts es) x.exchange.awaiting
  correlated : x.exchange.awaiting.Correlated
  gone : ∀ i, (x.exchange.store.slot i).awaited = false →
    ∃ g, x.exchange.registered[i]? = some g ∧ g.call ∈ x.dropped

/-- What happens in the exchange happens without regard to who waits. -/
theorem Followed.act {s : Exchange τ ι κ} {ev : Exchange.Event} (h : Followed first es x)
    (hstep : Exchange.Step x.exchange ev s) (hpresent : ∀ n, ev.caller? = some n → n ∉ x.dropped) :
    Exchange.Step x.exchange.awaiting ev s.awaiting := by
  refine hstep.awaiting fun n c q hcaller hcall hrequest => ?_
  obtain ⟨e, howns, settings, -, hopened⟩ := h.correlated.exists_registered hcall hrequest
  rw [hopened.slot]
  cases hgone : (x.exchange.store.slot e.slot).awaited with
  | true => rfl
  | false =>
    obtain ⟨g, hg, hdropped⟩ := h.gone e.slot hgone
    obtain rfl := Option.some.inj (howns.symm.trans hg)
    exact absurd hdropped (hpresent n hcaller)

theorem Followed.step (h : Followed first es x) (hstep : Step x ev y) :
    Followed first (es ++ [ev]) y := by
  cases hstep with
  | @act ev s hstep hpresent =>
    have hnext := h.act hstep hpresent
    refine ⟨?_, h.correlated.step hnext, fun i hi => ?_⟩
    · have hacts : acts (es ++ [.act ev]) = acts es ++ [ev] := by simp [acts, Event.act?]
      rw [hacts]
      exact h.run.append (.cons hnext (.nil _))
    · rw [hstep.awaited] at hi
      obtain ⟨g, hg, hdropped⟩ := h.gone i hi
      obtain ⟨rest, hrest⟩ := hstep.registered
      obtain ⟨hlt, -⟩ := List.getElem?_eq_some_iff.mp hg
      refine ⟨g, ?_, hdropped⟩
      rw [← hrest, List.getElem?_append_left hlt, hg]
  | @drop n c hcall hpresent hsuspended =>
    have hacts : acts (es ++ [.drop n]) = acts es := by simp [acts, Event.act?]
    unfold Call.Stage.abandon
    cases hrequest : c.stage.request? with
    | none =>
      refine ⟨hacts ▸ h.run, h.correlated, fun i hi => ?_⟩
      obtain ⟨g, hg, hdropped⟩ := h.gone i hi
      exact ⟨g, hg, List.mem_cons_of_mem n hdropped⟩
    | some q =>
      have hsame : Exchange.awaiting { x.exchange with store := x.exchange.store.abandon q.slot } =
          x.exchange.awaiting := by
        rw [Exchange.awaiting, PendingStore.awaiting_abandon]
        rfl
      refine ⟨?_, ?_, fun i hi => ?_⟩
      · rw [hacts]
        exact hsame ▸ h.run
      · exact hsame ▸ h.correlated
      · obtain ⟨e, howns, settings, -, hopened⟩ := h.correlated.exists_registered hcall hrequest
        by_cases hslot : i = q.slot
        · rw [hslot, hopened.slot]
          exact ⟨⟨n, e⟩, howns, List.mem_cons_self⟩
        · have hother : (x.exchange.store.abandon q.slot).slot i = x.exchange.store.slot i :=
            PendingStore.slot_setSlot_of_ne hslot
          obtain ⟨g, hg, hdropped⟩ := h.gone i (hother ▸ hi)
          exact ⟨g, hg, List.mem_cons_of_mem n hdropped⟩

/-- What traffic does is what an exchange does. -/
theorem Followed.of_run {bus : Bus τ ι κ} {nativeHeaders : Bool} {clock : Instant}
    {tokens : Tokens} (hrun : Run Step (initial bus nativeHeaders clock tokens) es x) :
    Followed (.initial bus nativeHeaders clock tokens) es x := by
  refine hrun.history (Followed _) ⟨.nil _, .initial bus nativeHeaders clock tokens, ?_⟩
    fun _ _ _ _ h hstep => h.step hstep
  intro i hi
  cases hi

end Traffic
end Courier
