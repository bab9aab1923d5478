import Courier.Bus.Lifecycle
import Courier.Bus.Request
import Courier.Bus.Response
import Courier.Proofs.Run
import Mathlib.Data.List.Nodup

/-!
# Pending stores

What the operations on a pending store do to its entries and to its slots.  A store whose senders
keep their slots open loses entries and never a slot: `remove_of_kept` and `removeAll_of_kept`.

Opening a request adds one entry and one slot, and `Opened` says how the two belong to the request:
they have its id and its token, and the entry expires when the request has waited for its timeout.
Nothing else happens before that, so a request that is not opened fails for a reason of its own:
`openRequest_error`.
-/

namespace Courier

namespace Slot

variable {x : Slot}

/-- A slot of which somebody may still take the outcome, if there is one. -/
structure IsOpen (x : Slot) : Prop where
  awaited : x.awaited = true
  resolvable : x.resolvable = true

theorem IsOpen.resolve (h : x.IsOpen) (o : Outcome) : (x.resolve o).1.IsOpen := by
  unfold Slot.resolve
  split
  · exact h
  · exact ⟨h.awaited, h.resolvable⟩

/-- Where there is nothing to take, nothing changes. -/
theorem receive_of_empty (h : x.receive.2 = .empty) : x.receive.1 = x := by
  unfold receive at h ⊢
  split
  · split
    · rfl
    · next o ho =>
      cases htaken : x.taken <;> simp_all
  · rfl

/-- Nothing can be taken from an open slot that has no outcome. -/
theorem IsOpen.receive_of_unresolved (h : x.IsOpen) (hnone : x.outcome = none) :
    x.receive = (x, .empty) := by
  simp [receive, h.awaited, h.resolvable, hnone]

/-- The outcome of an open slot can be taken. -/
theorem IsOpen.receive_of_resolved {o : Outcome} (h : x.IsOpen) (hsome : x.outcome = some o)
    (htaken : x.taken = false) : x.receive = ({ x with taken := true }, .outcome o) := by
  simp [receive, h.awaited, hsome, htaken]

/-- Taking an outcome resolves nothing. -/
theorem isResolved_receive (x : Slot) : x.receive.1.isResolved = x.isResolved := by
  unfold receive
  split
  · split
    · rfl
    · split <;> rfl
  · rfl

end Slot

namespace PendingStore

variable {s : PendingStore} {i j : SlotIndex} {x : Slot} {o : Outcome} {id : RequestId}
variable {r : PendingRequest}

/-! ## Slots -/

theorem getElem?_of_lt (h : i < s.slots.length) : s.slots[i]? = some (s.slot i) := by
  simp [slot, h]

theorem slot_setSlot_of_ne (h : j ≠ i) : (s.setSlot i x).slot j = s.slot j := by
  simp [slot, setSlot, List.getD_eq_getElem?_getD, List.getElem?_set_ne (Ne.symm h)]

theorem slot_setSlot (h : i < s.slots.length) (j : SlotIndex) :
    (s.setSlot i x).slot j = if j = i then x else s.slot j := by
  by_cases hj : j = i
  · subst hj
    simp [slot, setSlot, h]
  · rw [if_neg hj, slot_setSlot_of_ne hj]

/-- New slots change no outcome. -/
theorem outcome_append (entries : List PendingRequest) (xs : List Slot)
    (h : (s.slot i).outcome = some o) :
    (slot { entries, slots := s.slots ++ xs } i).outcome = some o := by
  rcases Nat.lt_or_ge i s.slots.length with hi | hi
  · simpa only [slot, List.getD_eq_getElem?_getD, List.getElem?_append_left hi] using h
  · rw [slot, List.getD_eq_getElem?_getD, List.getElem?_eq_none hi] at h
    exact absurd h nofun

/-- A slot that is put back where it was. -/
theorem setSlot_slot (i : SlotIndex) : s.setSlot i (s.slot i) = s := by
  have hslots : s.slots.set i (s.slot i) = s.slots := by
    apply List.ext_getElem?
    intro j
    by_cases hj : i = j
    · subst hj
      rcases Nat.lt_or_ge i s.slots.length with hi | hi
      · rw [List.getElem?_set_self hi, getElem?_of_lt hi]
      · rw [List.getElem?_eq_none (by simpa using hi), List.getElem?_eq_none hi]
    · rw [List.getElem?_set_ne hj]
  rw [setSlot, hslots]

/-- A resolved slot is not resolved again. -/
theorem resolve_of_resolved (o : Outcome) (h : (s.slot i).isResolved = true) :
    s.resolve i o = (s, false) := by
  simp only [resolve, Slot.resolve_of_resolved o h, setSlot_slot]

/-- A slot without an outcome gets one. -/
theorem resolve_of_unresolved (o : Outcome) (h : (s.slot i).isResolved = false) :
    s.resolve i o = (s.setSlot i { s.slot i with outcome := some o }, true) := by
  rw [resolve, Slot.resolve_of_unresolved o h]

/-- A slot has an outcome once somebody has resolved it. -/
theorem isResolved_resolve (hlt : i < s.slots.length) (o : Outcome) :
    ((s.resolve i o).1.slot i).isResolved = true := by
  cases hresolved : (s.slot i).isResolved with
  | true => rw [resolve_of_resolved o hresolved, hresolved]
  | false => simp [resolve_of_unresolved o hresolved, slot_setSlot hlt, Slot.isResolved]

/-- Nothing can be taken from an open slot that has no outcome. -/
theorem receive_of_unresolved (hopen : (s.slot i).IsOpen) (hnone : (s.slot i).outcome = none) :
    s.receive i = (s, .empty) := by
  simp only [receive, hopen.receive_of_unresolved hnone, setSlot_slot]

/-- Where there is nothing to take, nothing changes. -/
theorem receive_of_empty (h : (s.receive i).2 = .empty) : (s.receive i).1 = s := by
  simp only [receive] at h ⊢
  rw [Slot.receive_of_empty h, setSlot_slot]

/-- The outcome of an open slot can be taken once. -/
theorem receive_of_resolved (hopen : (s.slot i).IsOpen) (hsome : (s.slot i).outcome = some o)
    (htaken : (s.slot i).taken = false) :
    s.receive i = (s.setSlot i { s.slot i with taken := true }, .outcome o) := by
  simp only [receive, hopen.receive_of_resolved hsome htaken]

/-- What does not see the change of a slot sees no change in the store. -/
theorem slot_setSlot_congr {α : Type} (f : Slot → α) (h : f x = f (s.slot i)) (j : SlotIndex) :
    f ((s.setSlot i x).slot j) = f (s.slot j) := by
  rcases Nat.lt_or_ge i s.slots.length with hi | hi
  · rw [slot_setSlot hi]
    split
    · next hj => rw [hj, h]
    · rfl
  · rw [setSlot, List.set_eq_of_length_le hi]

/-- Taking an outcome resolves nothing. -/
theorem isResolved_receive (s : PendingStore) (i j : SlotIndex) :
    ((s.receive i).1.slot j).isResolved = (s.slot j).isResolved :=
  slot_setSlot_congr Slot.isResolved (s.slot i).isResolved_receive j

/-- What is resolved stays resolved. -/
theorem isResolved_resolve_of_isResolved (o : Outcome) (h : (s.slot j).isResolved = true) :
    ((s.resolve i o).1.slot j).isResolved = true := by
  cases hresolved : (s.slot i).isResolved with
  | true => rwa [resolve_of_resolved o hresolved]
  | false =>
    rw [resolve_of_unresolved o hresolved]
    rcases Nat.lt_or_ge i s.slots.length with hi | hi
    · rw [slot_setSlot hi]
      split
      · rfl
      · exact h
    · rwa [setSlot, List.set_eq_of_length_le hi]

/-- Only the slot that somebody resolves gets an outcome. -/
theorem isResolved_resolve_of_ne (o : Outcome) (hne : j ≠ i) :
    ((s.resolve i o).1.slot j).isResolved = (s.slot j).isResolved :=
  congrArg Slot.isResolved (slot_setSlot_of_ne hne)

/-- A new slot is like one that is still to be made. -/
theorem slot_append (entries : List PendingRequest) (i : SlotIndex) :
    slot { entries, slots := s.slots ++ [{}] } i = s.slot i := by
  simp only [slot, List.getD_eq_getElem?_getD]
  rcases Nat.lt_or_ge i s.slots.length with hi | hi
  · rw [List.getElem?_append_left hi]
  · rw [List.getElem?_append_right hi, List.getElem?_eq_none hi]
    cases i - s.slots.length <;> rfl

/-! ## Entries -/

theorem mem_of_find? (h : s.find? id = some r) : r ∈ s.entries := List.mem_of_find?_eq_some h

theorem id_of_find? (h : s.find? id = some r) : r.id = id := by
  simpa using List.find?_some h

/-- A request is added only while its id is not pending. -/
theorem add_ok {u : PendingStore} (h : s.add r = .ok u) :
    s.find? r.id = none ∧ u = { s with entries := s.entries ++ [r] } := by
  unfold add at h
  split at h
  · exact absurd h nofun
  · next hfree => exact ⟨hfree, (Except.ok.inj h).symm⟩

/-- A request is refused only while its id is pending. -/
theorem add_error {cause : Failure} (h : s.add r = .error cause) :
    (s.find? r.id).isSome = true ∧ cause = .duplicateRequest r.id.text := by
  unfold add at h
  split at h
  · next hpending => exact ⟨by simp [hpending], (Except.error.inj h).symm⟩
  · exact absurd h nofun

/-- A request is found once it has been added. -/
theorem find?_append {slots : List Slot} (hfree : s.find? r.id = none) :
    find? { entries := s.entries ++ [r], slots } r.id = some r := by
  rw [find?] at hfree
  simp [find?, List.find?_append, hfree]

/-- Where the senders keep their slots open, a removal changes no slot. -/
theorem remove_of_kept (hkept : ∀ r ∈ s.entries, r.keptBySender = true) (id : RequestId) :
    s.remove id = { s with entries := s.entries.filter fun e => e.id != id } := by
  cases hfind : s.find? id with
  | none =>
    have hall : ∀ r ∈ s.entries, (r.id != id) = true := by
      simpa [find?] using hfind
    rw [remove, hfind, List.filter_eq_self.mpr hall]
  | some r => simp [remove, hfind, release, hkept r (mem_of_find? hfind)]

/-- Where the senders keep their slots open, removals leave out the entries with these ids. -/
theorem removeAll_eq (hkept : ∀ r ∈ s.entries, r.keptBySender = true) (ids : List RequestId) :
    s.removeAll ids = { s with entries := s.entries.filter fun e => !ids.contains e.id } := by
  induction ids generalizing s with
  | nil =>
    have hall : (s.entries.filter fun _ => true) = s.entries := List.filter_true s.entries
    simp [removeAll, hall]
  | cons id ids ih =>
    have hremove := remove_of_kept hkept id
    have hsub : (s.remove id).entries ⊆ s.entries := hremove ▸ List.filter_subset_self ..
    have hcons : s.removeAll (id :: ids) = (s.remove id).removeAll ids := rfl
    rw [hcons, ih fun r hr => hkept r (hsub hr), hremove]
    simp only [List.filter_filter, mk.injEq, and_true]
    refine List.filter_congr fun e _ => ?_
    by_cases hid : e.id = id <;> simp [hid]

/-- Where the senders keep their slots open, removals change no slot and leave out entries. -/
theorem removeAll_of_kept (hkept : ∀ r ∈ s.entries, r.keptBySender = true) (ids : List RequestId) :
    ∃ entries, entries.Sublist s.entries ∧ s.removeAll ids = { s with entries } :=
  ⟨_, List.filter_sublist, removeAll_eq hkept ids⟩

end PendingStore

namespace Request

variable {s : PendingStore} {q : Request} {o : Outcome}

/-- A request goes on waiting while its slot has no outcome and its token is not cancelled. -/
theorem poll_of_unresolved (hopen : (s.slot q.slot).IsOpen)
    (hnone : (s.slot q.slot).outcome = none) : q.poll s false = (s, q) := by
  simp only [poll, PendingStore.receive_of_unresolved hopen hnone, Bool.false_eq_true, if_false]

/-- A request ends with the outcome of its slot, whatever its token says. -/
theorem poll_of_resolved (hopen : (s.slot q.slot).IsOpen)
    (hsome : (s.slot q.slot).outcome = some o) (htaken : (s.slot q.slot).taken = false)
    (isCancelled : Bool) :
    q.poll s isCancelled = (s.setSlot q.slot { s.slot q.slot with taken := true },
      { q with stage := .ended (q.resultOf (.outcome o)) }) := by
  simp only [poll, PendingStore.receive_of_resolved hopen hsome htaken]

/-- A request whose token is not cancelled does nothing to the store but take the outcome. -/
theorem poll_store (q : Request) (s : PendingStore) :
    (q.poll s false).1 = (s.receive q.slot).1 := by
  unfold poll
  split
  · next h => simp only [h, Bool.false_eq_true, if_false]
  · next h => rw [h]

/-- Where there is something to take, the token of a request does not matter. -/
theorem poll_of_ne_empty (h : (s.receive q.slot).2 ≠ .empty) (isCancelled : Bool) :
    q.poll s isCancelled = q.poll s false := by
  unfold poll
  split
  · next hempty => exact absurd (congrArg Prod.snd hempty) h
  · rfl

/-- A request whose token is cancelled resolves its slot, removes its entry and takes the
outcome. -/
theorem poll_of_empty (h : (s.receive q.slot).2 = .empty) :
    q.poll s true =
      (let u := (s.resolve q.slot (.cancelled .cancelled)).1.remove q.id
       ((u.receive q.slot).1,
        { q with stage := .ended (q.resultOf (u.receive q.slot).2) })) := by
  have hreceive : s.receive q.slot = (s, .empty) :=
    Prod.ext (PendingStore.receive_of_empty h) h
  simp only [poll, hreceive, if_true]

end Request

/-! ## Opening requests -/

namespace Bus

variable {τ ι κ : Type} {b : Bus τ ι κ} {nativeHeaders : Bool} {settings : RequestResponseSettings}
variable {s u : PendingStore} {id : RequestId} {now : Instant} {d : RequestDraft} {q : Request}

/-- A request and its entry belong together, and to what was asked for: the entry has the id, the
token and the slot of the request, and it expires when the request has waited for its timeout. -/
structure Opened (b : Bus τ ι κ) (settings : RequestResponseSettings) (d : RequestDraft)
    (e : PendingRequest) (q : Request) : Prop where
  id : q.id = e.id
  slot : q.slot = e.slot
  token : q.token = d.token
  entryToken : e.token = d.token
  response : q.response = d.response
  responseType : e.responseType = d.response.type
  kept : e.keptBySender = true
  expires : ∃ p, b.producer d.request.type = .ok p ∧
    e.expires = e.created.add (requestTimeout settings p d.options)

/-- The entry of a request that is opened now. -/
def entryOf (settings : RequestResponseSettings) (p : Producer) (s : PendingStore) (id : RequestId)
    (now : Instant) (d : RequestDraft) (value : Json) : PendingRequest :=
  { id, request := value, requestType := d.request.type, responseType := d.response.type
    created := now, expires := now.add (requestTimeout settings p d.options), token := d.token
    slot := s.slots.length, keptBySender := true }

/-- The message of a request that is opened now. -/
def messageOf (settings : RequestResponseSettings) (p : Producer) (id : RequestId) (now : Instant)
    (d : RequestDraft) (path : String) (payload : Bytes) : TransportMessage :=
  { messageType := d.request.type, path, payload
    headers := requestHeaders settings d.options.headers id
      (now.add (requestTimeout settings p d.options)) }

/-- All that opening a request does: it is understood, written and free to be added. -/
theorem openRequest_cases (h : b.openRequest nativeHeaders settings s id now d = .ok (u, q)) :
    ∃ p path value payload, b.producer d.request.type = .ok p ∧
      d.request.write d.message = .ok value ∧
      b.serializer.serialize value d.request.type = .ok payload ∧ s.find? id = none ∧
      u = { entries := s.entries ++ [entryOf settings p s id now d value]
            slots := s.slots ++ [{}] } ∧
      q = { id, slot := s.slots.length, token := d.token, response := d.response
            stage := .producing
              ((messageOf settings p id now d path payload).wrap nativeHeaders) } := by
  simp only [openRequest, bind, Except.bind, pure, Except.pure, throw, throwThe,
    MonadExceptOf.throw] at h
  split at h
  · exact absurd h nofun
  next p hp =>
  split at h
  · exact absurd h nofun
  next path _ =>
  split at h
  · exact absurd h nofun
  next hwrite =>
  split at h
  · exact absurd h nofun
  next hadd =>
  obtain ⟨hfree, rfl⟩ := PendingStore.add_ok hadd
  obtain ⟨rfl, rfl⟩ := Prod.mk.inj (Except.ok.inj h)
  split at hwrite
  · exact absurd hwrite nofun
  next value hvalue =>
  split at hwrite
  · exact absurd hwrite nofun
  next payload hpayload =>
  obtain ⟨rfl, rfl⟩ := Prod.mk.inj (Except.ok.inj hwrite)
  exact ⟨p, path, value, payload, hp, hvalue, hpayload, hfree, rfl, rfl⟩

/-- Opening a request adds one entry and one slot. -/
theorem openRequest_ok (h : b.openRequest nativeHeaders settings s id now d = .ok (u, q)) :
    ∃ e m, u = { entries := s.entries ++ [e], slots := s.slots ++ [{}] } ∧ u.find? id = some e ∧
      e.created = now ∧ e.slot = s.slots.length ∧ q.stage = .producing m ∧
      Opened b settings d e q := by
  obtain ⟨p, path, value, payload, hp, -, -, hfree, rfl, rfl⟩ := openRequest_cases h
  refine ⟨entryOf settings p s id now d value, _, rfl, ?_, rfl, rfl, rfl, ?_⟩
  · exact PendingStore.find?_append hfree
  · exact ⟨rfl, rfl, rfl, rfl, rfl, rfl, rfl, p, hp, rfl⟩

/-- A request that cannot be opened is not understood by the bus, cannot be written, or has an id
that is pending already. -/
theorem openRequest_error {cause : Failure}
    (h : b.openRequest nativeHeaders settings s id now d = .error cause) :
    (∃ c, cause = .configuration c) ∨ (∃ c, cause = .serialization c) ∨
      (cause = .duplicateRequest id.text ∧ (s.find? id).isSome = true) := by
  simp only [openRequest, bind, Except.bind, pure, Except.pure, throw, throwThe,
    MonadExceptOf.throw] at h
  split at h
  · next hproducer =>
    obtain rfl := Except.error.inj h
    refine .inl ?_
    unfold producer at hproducer
    split at hproducer
    · exact absurd hproducer nofun
    · exact ⟨_, (Except.error.inj hproducer).symm⟩
  split at h
  · next hpath =>
    obtain rfl := Except.error.inj h
    refine .inl ?_
    unfold Producer.path at hpath
    split at hpath
    · exact absurd hpath nofun
    · split at hpath
      · exact absurd hpath nofun
      · exact ⟨_, (Except.error.inj hpath).symm⟩
  split at h
  · exact .inr (.inl ⟨_, (Except.error.inj h).symm⟩)
  split at h
  · next hadd =>
    obtain rfl := Except.error.inj h
    obtain ⟨hpending, hcause⟩ := PendingStore.add_error hadd
    exact .inr (.inr ⟨hcause, hpending⟩)
  · exact absurd h nofun

/-- A request that is not admitted is refused by the bus, or its token is cancelled. -/
theorem admitRequest_error {cause : Failure} {isCancelled : Bool}
    (h : b.admitRequest isCancelled = .error cause) :
    (∃ c, cause = .configuration c) ∨ (cause = .cancelled ∧ isCancelled = true) := by
  simp only [admitRequest, requireActive, bind, Except.bind, pure, Except.pure, throw, throwThe,
    MonadExceptOf.throw] at h
  split at h
  · next hactive =>
    split at hactive
    · exact absurd hactive nofun
    · exact .inl ⟨_, (Except.error.inj h ▸ Except.error.inj hactive).symm⟩
  split at h
  · exact .inl ⟨_, (Except.error.inj h).symm⟩
  · split at h
    · next hcancelled => exact .inr ⟨(Except.error.inj h).symm, hcancelled⟩
    · exact absurd h nofun

/-- A request is admitted with the settings of the bus. -/
theorem admitRequest_ok {isCancelled : Bool} (h : b.admitRequest isCancelled = .ok settings) :
    b.requestResponse = some settings := by
  simp only [admitRequest, requireActive, bind, Except.bind, pure, Except.pure, throw, throwThe,
    MonadExceptOf.throw] at h
  split at h
  · exact absurd h nofun
  split at h
  · exact absurd h nofun
  · next hsettings =>
    split at h
    · exact absurd h nofun
    · exact Except.ok.inj h ▸ hsettings

/-- Beginning to dispose a bus changes nothing that requests depend on. -/
theorem beginDisposal_some {b' : Bus τ ι κ} {change : Change κ}
    (h : b.beginDisposal = some (b', change)) :
    b'.serializer = b.serializer ∧ b'.requestResponse = b.requestResponse ∧
      b'.producers = b.producers := by
  unfold beginDisposal stop at h
  split at h
  · exact absurd h nofun
  · split at h <;>
    · obtain ⟨rfl, -⟩ := Prod.mk.inj (Option.some.inj h)
      exact ⟨rfl, rfl, rfl⟩

end Bus
end Courier
