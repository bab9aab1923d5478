import Courier.Proofs.Requests.Dropping

/-!
# What stays in the store

The store holds every request that was registered, is not resolved and was not refused by the
transport: `HoldsPending`.  Nothing else stays there, but whoever resolves a request removes it only
next.  In between the sender may take its result and return, while the entry is still in the store:
`pending_after_return`.  So what a call leaves behind waits for a response or a sweep that has
resolved it (`Clearing`), and such a removal can always be finished: `exists_run_removed`.

The request of a dropped call stays until a response or a sweep removes it, and no longer.

Main statement: `pending_lifetime`.
-/

namespace Courier

theorem PendingStore.find?_removeAll {s : PendingStore} {id : RequestId} {ids : List RequestId}
    (hid : id ∈ ids) : (s.removeAll ids).find? id = none := by
  refine List.find?_eq_none.mpr fun e he hsame => ?_
  obtain rfl := eq_of_beq hsame
  rw [entries_removeAll] at he
  obtain ⟨-, hother⟩ := List.mem_filter.mp he
  simp [hid] at hother

namespace Exchange

variable {τ ι κ : Type} {s u : Exchange τ ι κ} {n : Nat} {d : RequestDraft}
variable {e : PendingRequest} {q : Request} {es : List Event} {ev : Event}

/-! ## What is in the store -/

/-- After the events `es` the store holds what is pending, and what is on its way out. -/
structure HoldsPending (s : Exchange τ ι κ) (es : List Event) : Prop where
  /-- What is in the store was registered, and the transport has not refused it. -/
  registered : ∀ e ∈ s.store.entries, ∃ n, s.Owns n e ∧ ¬Failed es n
  /-- Whoever has resolved it is about to remove it. -/
  leaving : ∀ e ∈ s.store.entries, s.Resolved e → s.Removing e.id
  /-- What was registered is there unless it was resolved or refused. -/
  present : ∀ n e, s.Owns n e → ¬s.Resolved e → ¬Failed es n → s.store.find? e.id = some e

theorem Tidy.holdsPending (h : Tidy es s) (hdistinct : s.Distinct) : s.HoldsPending es where
  registered e he := by
    obtain ⟨n, howns⟩ := h.correlated.entries e he
    exact ⟨n, howns, fun hf => h.refused n e howns hf he⟩
  leaving := h.leaving
  present n e howns hr hf := by
    have hmem := h.present n e howns hr hf
    have hsome : (s.store.find? e.id).isSome = true :=
      List.find?_isSome.mpr ⟨e, hmem, beq_self_eq_true e.id⟩
    obtain ⟨e', hfind⟩ := Option.isSome_iff_exists.mp hsome
    obtain ⟨k, howns'⟩ := h.correlated.entries e' (PendingStore.mem_of_find? hfind)
    obtain ⟨-, rfl⟩ := hdistinct.unique howns' howns (PendingStore.id_of_find? hfind)
    exact hfind

/-- What the store holds does not depend on who waits. -/
theorem HoldsPending.of_awaiting (h : s.awaiting.HoldsPending es) : s.HoldsPending es where
  registered := h.registered
  leaving e he hr := h.leaving e he ((s.resolved_awaiting e).mpr hr)
  present n e howns hr hf := h.present n e howns (fun hr' => hr ((s.resolved_awaiting e).mp hr')) hf

/-! ## What a call leaves behind -/

/-- A response or a sweep has resolved a request with this id and is about to remove it. -/
def Clearing (s : Exchange τ ι κ) (id : RequestId) : Prop :=
  (∃ (i : Nat) (r : Reply), s.replies[i]? = some r ∧ r.stage = .resolved ∧ r.response.id = id) ∨
  ∃ (k : Nat) (x : Sweeping), s.sweeps[k]? = some x ∧ id ∈ x.stage.processed

/-- A call that has not resigned is not the one that removes its request. -/
theorem Tidy.clearing_of_underway (h : Tidy es s) (hdistinct : s.Distinct)
    (hcall : s.calls[n]? = some ⟨d, .underway q⟩) (hremoving : s.Removing q.id) :
    s.Clearing q.id := by
  rcases hremoving with hreply | ⟨k, d', q', hcall', hid⟩ | hsweep
  · exact .inl hreply
  · obtain ⟨e, ⟨howns, -⟩, -⟩ := h.correlated.calls _ _ hcall
    obtain ⟨e', ⟨howns', -⟩, -⟩ := h.correlated.calls _ _ hcall'
    obtain ⟨hsame, -⟩ := h.fits_of_call hcall howns
    obtain ⟨hsame', -⟩ := h.fits_of_call hcall' howns'
    -- Only the call itself has a request with this id, and it has not resigned.
    obtain ⟨rfl, -⟩ := hdistinct.unique howns howns' (hsame.symm.trans (hid.symm.trans hsame'))
    cases hcall.symm.trans hcall'
  · exact .inr hsweep

/-! ## Calls that do not move -/

/-- A call moves in its own steps only. -/
theorem Step.getElem?_calls {c : Call} (hstep : Step s ev u) (hother : ev.caller? ≠ some n)
    (hcall : s.calls[n]? = some c) : u.calls[n]? = some c := by
  have hset {k : Nat} {c' : Call} (hk : ev.caller? = some k) : (s.calls.set k c')[n]? = some c := by
    have hne : k ≠ n := fun heq => hother (heq ▸ hk)
    rw [List.getElem?_set_ne hne, hcall]
  cases hstep with
  | call draft =>
    obtain ⟨hn, -⟩ := List.getElem?_eq_some_iff.mp hcall
    exact (List.getElem?_append_left hn).trans hcall
  | ask _ => exact hset rfl
  | stamp _ => exact hset rfl
  | register _ _ _ => exact hset rfl
  | refuse _ _ => exact hset rfl
  | produced _ _ _ => exact hset rfl
  | poll _ _ => exact hset rfl
  | resign _ _ _ => exact hset rfl
  | withdraw _ => exact hset rfl
  | collect _ => exact hset rfl
  | _ => exact hcall

end Exchange

namespace Traffic

variable {τ ι κ : Type}
variable {first : Exchange τ ι κ} {x y : Traffic τ ι κ} {es ds : List Event} {ev : Event}
variable {n k : Nat} {e : PendingRequest} {id : RequestId}

/-- Who was dropped stays where it waited. -/
def Parked (x : Traffic τ ι κ) : Prop :=
  ∀ n ∈ x.dropped, ∃ c, x.exchange.calls[n]? = some c ∧ c.stage.isSuspended = true

theorem Parked.step (h : x.Parked) (hstep : Step x ev y) : y.Parked := by
  cases hstep with
  | @act ev s hstep hpresent =>
    intro n hn
    obtain ⟨c, hcall, hsuspended⟩ := h n hn
    have hother : ev.caller? ≠ some n := fun hcaller => hpresent n hcaller hn
    exact ⟨c, hstep.getElem?_calls hother hcall, hsuspended⟩
  | @drop n c hcall hpresent hsuspended =>
    intro m hm
    rcases List.mem_cons.mp hm with rfl | hm
    · exact ⟨c, hcall, hsuspended⟩
    · exact h m hm

/-! ## Removals come to an end -/

/-- A sweep can look at the next request that is due. -/
theorem exists_step_inspect {now : Instant} {remaining : List PendingRequest}
    {processed : List RequestId}
    (hsweep : x.exchange.sweeps[k]? = some ⟨now, .visiting (e :: remaining) processed⟩) :
    ∃ reason y, Step x (.act (.inspect k)) y ∧
      y.exchange.sweeps[k]? = some ⟨now, .striking reason e remaining processed⟩ := by
  obtain ⟨hk, -⟩ := List.getElem?_eq_some_iff.mp hsweep
  exact ⟨_, _, .act (.inspect hsweep) nofun, List.getElem?_set_self hk⟩

/-- And it can give it up. -/
theorem exists_step_strike {now : Instant} {reason : CancelReason}
    {remaining : List PendingRequest} {processed : List RequestId}
    (hsweep : x.exchange.sweeps[k]? = some ⟨now, .striking reason e remaining processed⟩) :
    ∃ y, Step x (.act (.strike k)) y ∧
      y.exchange.sweeps[k]? = some ⟨now, .visiting remaining (e.id :: processed)⟩ := by
  obtain ⟨hk, -⟩ := List.getElem?_eq_some_iff.mp hsweep
  exact ⟨_, .act (.strike hsweep) nofun, List.getElem?_set_self hk⟩

/-- A sweep that is not interrupted removes what it has dealt with. -/
theorem exists_run_swept {now : Instant} {remaining : List PendingRequest}
    {processed : List RequestId} (hid : id ∈ processed)
    (hsweep : x.exchange.sweeps[k]? = some ⟨now, .visiting remaining processed⟩) :
    ∃ ds y, Run Step x ds y ∧ y.exchange.store.find? id = none := by
  induction remaining generalizing x processed with
  | nil =>
    exact ⟨[.act (.finish k)], _, .cons (.act (.finish hsweep) nofun) (.nil _),
      PendingStore.find?_removeAll (List.mem_reverse.mpr hid)⟩
  | cons e remaining ih =>
    obtain ⟨reason, y, hinspect, hstriking⟩ := exists_step_inspect hsweep
    obtain ⟨z, hstrike, hvisiting⟩ := exists_step_strike hstriking
    obtain ⟨ds, w, hrun, hgone⟩ := ih (List.mem_cons_of_mem e.id hid) hvisiting
    exact ⟨_, w, .cons hinspect (.cons hstrike hrun), hgone⟩

/-- From wherever somebody is about to remove a request, a run leads to where it is gone. -/
theorem exists_run_removed (hparked : x.Parked) (hremoving : x.exchange.Removing id) :
    ∃ ds y, Run Step x ds y ∧ y.exchange.store.find? id = none := by
  rcases hremoving with ⟨i, r, hr, hstage, rfl⟩ | ⟨n, d, q, hcall, rfl⟩ | ⟨k, w, hw, hid⟩
  · have hgone : (x.exchange.store.removeAll [r.response.id]).find? r.response.id = none :=
      PendingStore.find?_removeAll List.mem_cons_self
    exact ⟨[.act (.clear i)], _, .cons (.act (.clear hr hstage) nofun) (.nil _), hgone⟩
  · have hgone : (x.exchange.store.removeAll [q.id]).find? q.id = none :=
      PendingStore.find?_removeAll List.mem_cons_self
    have hpresent : n ∉ x.dropped := by
      intro hdropped
      obtain ⟨c, hcall', hsuspended⟩ := hparked n hdropped
      obtain rfl := Option.some.inj (hcall.symm.trans hcall')
      cases hsuspended
    refine ⟨[.act (.withdraw n)], _, .cons (.act (.withdraw hcall) ?_) (.nil _), hgone⟩
    intro m hm
    exact Option.some.inj hm ▸ hpresent
  · obtain ⟨now, stage⟩ := w
    cases stage with
    | visiting remaining processed => exact exists_run_swept hid hw
    | striking reason e remaining processed =>
      obtain ⟨y, hstrike, hvisiting⟩ := exists_step_strike hw
      obtain ⟨ds, z, hrun, hgone⟩ := exists_run_swept (List.mem_cons_of_mem e.id hid) hvisiting
      exact ⟨_, z, .cons hstrike hrun, hgone⟩
    | reading => cases hid
    | ended => cases hid

/-! ## The requests of dropped calls -/

/-- What is remembered of registrations only grows. -/
theorem Step.registered (hstep : Step x ev y) :
    x.exchange.registered <+: y.exchange.registered := by
  cases hstep with
  | act hstep hpresent => exact hstep.registered
  | drop hcall hpresent hsuspended => exact List.prefix_refl _

/-- Call `n` was dropped after it had registered a request. -/
structure Deserted (first : Exchange τ ι κ) (n : Nat) (e : PendingRequest) (x : Traffic τ ι κ) :
    Prop where
  followed : ∃ es, Followed first es x
  dropped : n ∈ x.dropped
  owns : x.exchange.Owns n e

theorem Deserted.step (h : Deserted first n e x) (hstep : Step x ev y) : Deserted first n e y := by
  obtain ⟨es, hfollowed⟩ := h.followed
  refine ⟨⟨es ++ [ev], hfollowed.step hstep⟩, ?_, ?_⟩
  · cases hstep with
    | act hstep hpresent => exact h.dropped
    | drop hcall hpresent hsuspended => exact List.mem_cons_of_mem _ h.dropped
  · obtain ⟨rest, hrest⟩ := hstep.registered
    obtain ⟨hlt, -⟩ := List.getElem?_eq_some_iff.mp h.owns
    rw [Exchange.Owns, ← hrest, List.getElem?_append_left hlt]
    exact h.owns

/-- A response or a sweep removes the request of a dropped call, and nobody else does. -/
theorem Deserted.mem_entries (h : Deserted first n e x) (hdistinct : x.exchange.Distinct)
    (hstep : Step x ev y) :
    e ∈ y.exchange.store.entries ↔ e ∈ x.exchange.store.entries ∧ e.id ∉ x.cleared ev := by
  obtain ⟨es, hfollowed⟩ := h.followed
  cases hstep with
  | @act ev s hstep hpresent =>
    have hother : ev.caller? ≠ some n := fun hcaller => hpresent n hcaller h.dropped
    exact Exchange.Step.mem_entries (s := x.exchange.awaiting) (u := s.awaiting)
      hfollowed.correlated hdistinct h.owns (hfollowed.act hstep hpresent) hother
  | @drop n c hcall hpresent hsuspended =>
    have hkept : (c.stage.abandon x.exchange.store).entries = x.exchange.store.entries := by
      unfold Call.Stage.abandon
      split <;> rfl
    simp [hkept, cleared]

theorem registered_of_run (hrun : Run Step x ds y) :
    x.exchange.registered <+: y.exchange.registered := by
  induction hrun with
  | nil x => exact List.prefix_refl _
  | cons head tail ih => exact head.registered.trans ih

/-- What is in the store in the end has been there, and nobody has removed it in between. -/
theorem Deserted.spared (h : Deserted first n e x) (hrun : Run Step x ds y)
    (hdistinct : y.exchange.Distinct) (hmem : e ∈ y.exchange.store.entries) :
    e ∈ x.exchange.store.entries ∧ Run (Spares e.id) x ds y := by
  induction hrun with
  | nil x => exact ⟨hmem, .nil x⟩
  | cons head tail ih =>
    obtain ⟨hnext, hspared⟩ := ih (h.step head) hdistinct hmem
    have hx := hdistinct.of_prefix (head.registered.trans (registered_of_run tail))
    obtain ⟨hfirst, hclear⟩ := (h.mem_entries hx head).mp hnext
    exact ⟨hfirst, .cons ⟨head, hclear⟩ hspared⟩

/-- What nobody removes stays in the store. -/
theorem Deserted.kept (h : Deserted first n e x) (hrun : Run (Spares e.id) x ds y)
    (hdistinct : y.exchange.Distinct) (hmem : e ∈ x.exchange.store.entries) :
    e ∈ y.exchange.store.entries := by
  induction hrun with
  | nil x => exact hmem
  | @cons x z y ev ds head tail ih =>
    have hrest : Run Step z ds y := tail.mono fun _ _ _ hspared => hspared.1
    have hx := hdistinct.of_prefix (head.1.registered.trans (registered_of_run hrest))
    exact ih (h.step head.1) hdistinct ((h.mem_entries hx head.1).mpr ⟨hmem, head.2⟩)

/-! ## Runs -/

variable {bus : Bus τ ι κ} {nativeHeaders : Bool} {clock : Instant} {tokens : Tokens}

/-- **The lifetime of pending requests.**  Requests are taken to have different ids, which are drawn
at random.  However the steps of senders, responses and sweeps follow one another and whichever
senders go away, the store holds what is pending and what is on its way out.  So it holds the
requests that were registered, are not resolved and were not refused by the transport, and no
others, where nobody is between resolving a request and removing it, and whoever is there can go on
to remove it.  A call that has its result has left nothing behind, unless a response or a sweep that
has resolved its request is about to remove it.  The request of a dropped call stays until a
response or a sweep removes it, and it does not come back. -/
theorem pending_lifetime (hrun : Run Step (initial bus nativeHeaders clock tokens) es x)
    (hdistinct : x.exchange.Distinct) :
    x.exchange.HoldsPending (acts es) ∧
    (∀ id, ¬x.exchange.Removing id →
      ((x.exchange.store.find? id).isSome = true ↔
        ∃ n e, x.exchange.Owns n e ∧ e.id = id ∧ ¬x.exchange.Resolved e ∧
          ¬Exchange.Failed (acts es) n)) ∧
    (∀ id, x.exchange.Removing id →
      ∃ ds y, Run Step x ds y ∧ y.exchange.store.find? id = none) ∧
    (∀ (n : Nat) d q result, x.exchange.calls[n]? = some ⟨d, .underway q⟩ →
      q.stage = .ended result → ¬x.exchange.Clearing q.id →
      x.exchange.store.find? q.id = none) ∧
    ∀ n e, n ∈ x.dropped → x.exchange.Owns n e → e ∈ x.exchange.store.entries →
      ∀ ds y, Run Step x ds y → y.exchange.Distinct →
        (e ∈ y.exchange.store.entries ↔ Run (Spares e.id) x ds y) := by
  have h := Followed.of_run hrun
  have htidy : Exchange.Tidy (acts es) x.exchange.awaiting := .of_run h.run hdistinct
  have hparked : x.Parked := hrun.invariant Parked (fun n hn => absurd hn List.not_mem_nil)
    fun _ _ _ hparked hstep => hparked.step hstep
  refine ⟨(htidy.holdsPending hdistinct).of_awaiting, fun id hfree => ?_,
    fun id hremoving => exists_run_removed hparked hremoving,
    fun n d q result hcall hresult hfree => ?_, ?_⟩
  · have hpending := htidy.isSome_find?_iff hfree
    simp only [Exchange.resolved_awaiting] at hpending
    exact hpending
  · have hgone : ¬x.exchange.awaiting.Removing q.id := fun hremoving =>
      hfree (htidy.clearing_of_underway hdistinct hcall hremoving)
    exact htidy.find?_of_ended hdistinct hcall hresult hgone
  · intro n e hdropped howns hmem ds y hnext hy
    have hdeserted : Deserted _ n e x := ⟨⟨es, h⟩, hdropped, howns⟩
    exact ⟨fun hlast => (hdeserted.spared hnext hy hlast).2,
      fun hspared => hdeserted.kept hspared hy hmem⟩

/-! ## A request that outlives its call -/

/-- Two requests are sent.  A response resolves the first one, and the sender takes the error before
the response has removed the entry. -/
def lingering : List Event :=
  [.act (.call Exchange.question), .act (.ask 0), .act (.stamp 0), .act (.register 0 ⟨"a"⟩),
    .act (.produced 0 (.ok ())), .act (.call Exchange.question), .act (.ask 1), .act (.stamp 1),
    .act (.register 1 ⟨"b"⟩), .act (.arrive ⟨⟨"a"⟩, [], some "no"⟩), .act (.answer 0),
    .act (.poll 0)]

/-- The response removes its request, and the second sender goes away while the transport is at work
for it. -/
def parting : List Event := [.act (.clear 0), .drop 1]

/-- A sweep finds nothing that is due. -/
def sweeping : List Event := [.act .sweep, .act (.gather 0), .act (.finish 0)]

theorem exists_run_lingering : ∃ (w x y : Traffic Unit Unit Unit) (q p : Request)
    (a b : PendingRequest),
    Run Step (initial Exchange.asking true .epoch {}) lingering w ∧ Run Step w parting x ∧
    Run (Spares b.id) x sweeping y ∧
    (a.id = ⟨"a"⟩ ∧ b.id = ⟨"b"⟩ ∧ b.slot = 1) ∧
    (q.id = ⟨"a"⟩ ∧ q.stage = .ended (.error (.requestFaulted "no"))) ∧
    (w.exchange.registered = [⟨0, a⟩, ⟨1, b⟩] ∧
      w.exchange.calls[0]? = some ⟨Exchange.question, .underway q⟩ ∧
      w.exchange.replies = [⟨⟨⟨"a"⟩, [], some "no"⟩, a, .resolved⟩] ∧
      w.exchange.store.find? ⟨"a"⟩ = some a ∧ w.exchange.Resolved a) ∧
    (x.exchange.registered = [⟨0, a⟩, ⟨1, b⟩] ∧
      x.exchange.calls = [⟨Exchange.question, .underway q⟩, ⟨Exchange.question, .underway p⟩] ∧
      x.exchange.replies = [⟨⟨⟨"a"⟩, [], some "no"⟩, a, .cleared⟩] ∧ x.exchange.sweeps = [] ∧
      (x.exchange.store.slot 1).outcome = none ∧ x.dropped = [1]) ∧
    y.exchange.registered = [⟨0, a⟩, ⟨1, b⟩] :=
  ⟨_, _, _, _, _, _, _, .cons (.act (.call _) nofun) <|
    .cons (.act (.ask rfl) fun _ _ => List.not_mem_nil) <|
    .cons (.act (.stamp rfl) fun _ _ => List.not_mem_nil) <|
    .cons (.act (.register rfl rfl rfl) fun _ _ => List.not_mem_nil) <|
    .cons (.act (.produced rfl rfl (.ok ())) fun _ _ => List.not_mem_nil) <|
    .cons (.act (.call _) nofun) <|
    .cons (.act (.ask rfl) fun _ _ => List.not_mem_nil) <|
    .cons (.act (.stamp rfl) fun _ _ => List.not_mem_nil) <|
    .cons (.act (.register rfl rfl rfl) fun _ _ => List.not_mem_nil) <|
    .cons (.act (.arrive rfl) nofun) <| .cons (.act (.answer rfl rfl) nofun) <|
    .cons (.act (.poll rfl rfl) fun _ _ => List.not_mem_nil) <| .nil _,
    .cons (.act (.clear rfl rfl) nofun) <| .cons (.drop rfl List.not_mem_nil rfl) <| .nil _,
    .cons ⟨.act .sweep nofun, List.not_mem_nil⟩ <|
    .cons ⟨.act (.gather rfl) nofun, List.not_mem_nil⟩ <|
    .cons ⟨.act (.finish rfl) nofun, List.not_mem_nil⟩ <| .nil _,
    ⟨rfl, rfl, rfl⟩, ⟨rfl, rfl⟩, ⟨rfl, rfl, rfl, rfl, rfl⟩, ⟨rfl, rfl, rfl, rfl, rfl, rfl⟩, rfl⟩

/-- The sender has returned with the error of its response, and the entry of its request, which is
resolved, is still in the store. -/
theorem pending_after_return : ∃ (w : Traffic Unit Unit Unit) (q : Request) (a : PendingRequest),
    Run Step (initial Exchange.asking true .epoch {}) lingering w ∧
    w.exchange.calls[0]? = some ⟨Exchange.question, .underway q⟩ ∧
    q.stage = .ended (.error (.requestFaulted "no")) ∧
    w.exchange.store.find? q.id = some a ∧ w.exchange.Resolved a := by
  obtain ⟨w, -, -, q, -, a, -, hrun, -, -, -, ⟨hq, hended⟩, ⟨-, hcall, -, hfind, hresolved⟩, -⟩ :=
    exists_run_lingering
  exact ⟨w, q, a, hrun, hcall, hended, hq ▸ hfind, hresolved⟩

/-- The entry that outlived its call can be removed, and once it is, the call has left nothing.  The
request of a dropped call is pending, and it outlasts a sweep for which it is not due. -/
theorem pending_lifetime_parting : ∃ (w x y : Traffic Unit Unit Unit) (q : Request)
    (b : PendingRequest), Run Step (initial Exchange.asking true .epoch {}) lingering w ∧
    (∃ ds v, Run Step w ds v ∧ v.exchange.store.find? ⟨"a"⟩ = none) ∧
    Run Step w parting x ∧
    x.exchange.calls[0]? = some ⟨Exchange.question, .underway q⟩ ∧
    q.stage = .ended (.error (.requestFaulted "no")) ∧ x.exchange.store.find? q.id = none ∧
    1 ∈ x.dropped ∧ x.exchange.Owns 1 b ∧ (x.exchange.store.find? b.id).isSome = true ∧
    Run Step x sweeping y ∧ b ∈ y.exchange.store.entries := by
  obtain ⟨w, x, y, q, p, a, b, hw, hx, hspared, ⟨ha, hb, hslot⟩, ⟨hq, hended⟩,
    ⟨hwregistered, -, hwreplies, -, -⟩, ⟨hxregistered, hcalls, hreplies, hsweeps, hnone, hdropped⟩,
    hyregistered⟩ := exists_run_lingering
  have hwdistinct : w.exchange.Distinct := by simp [Exchange.Distinct, hwregistered, ha, hb]
  have hxdistinct : x.exchange.Distinct := by simp [Exchange.Distinct, hxregistered, ha, hb]
  have hydistinct : y.exchange.Distinct := by simp [Exchange.Distinct, hyregistered, ha, hb]
  have hremoving : w.exchange.Removing ⟨"a"⟩ := .inl ⟨0, _, by rw [hwreplies]; rfl, rfl, rfl⟩
  obtain ⟨-, -, hremoved, -, -⟩ := pending_lifetime hw hwdistinct
  obtain ⟨hholds, hstore, -, hleft, hstays⟩ := pending_lifetime (hw.append hx) hxdistinct
  have hfree : ∀ id, ¬x.exchange.Removing id := by
    rintro id (⟨i, r, hr, hstage, -⟩ | ⟨n, d, q', hcall, -⟩ | ⟨k, v, hv, -⟩)
    · obtain rfl := List.mem_singleton.mp (hreplies ▸ List.mem_of_getElem? hr)
      cases hstage
    · have hmem := List.mem_of_getElem? hcall
      simp [hcalls] at hmem
    · simp [hsweeps] at hv
  have howns : x.exchange.Owns 1 b := by simp [Exchange.Owns, hxregistered, hslot]
  have hcall : x.exchange.calls[0]? = some ⟨Exchange.question, .underway q⟩ := by simp [hcalls]
  have hopen : ¬x.exchange.Resolved b := by
    simp [Exchange.Resolved, hslot, Slot.isResolved, hnone]
  have hgoing : ¬Exchange.Failed (acts (lingering ++ parting)) 1 := by
    simp [Exchange.Failed, acts, lingering, parting, Event.act?]
  have hpending : (x.exchange.store.find? b.id).isSome = true :=
    (hstore b.id (hfree b.id)).mpr ⟨1, b, howns, rfl, hopen, hgoing⟩
  have hmem : b ∈ x.exchange.store.entries :=
    PendingStore.mem_of_find? (hholds.present 1 b howns hopen hgoing)
  have hclear : ¬x.exchange.Clearing q.id := fun h => hfree q.id (h.imp_right .inr)
  have hnext : Run Step x sweeping y := hspared.mono fun _ _ _ h => h.1
  have hiff := hstays 1 b (by simp [hdropped]) howns hmem sweeping y hnext hydistinct
  exact ⟨w, x, y, q, b, hw, hremoved ⟨"a"⟩ hremoving, hx, hcall, hended,
    hleft 0 _ q _ hcall hended hclear, by simp [hdropped], howns, hpending, hnext,
    hiff.mpr hspared⟩

end Traffic
end Courier
