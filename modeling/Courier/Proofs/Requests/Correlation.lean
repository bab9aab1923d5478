import Courier.Proofs.Requests.Agreement

/-!
# Correlation

However the steps of senders, responses and sweeps follow one another, no slot is resolved twice,
and a sender gets what its own request has earned: the message or the error of a response with its
id, a timeout that a sweep saw, or the cancellation of its own token.

A transport may answer a call that it was cancelled although nobody has cancelled its token.
Nothing else depends on this, so `Correlated` leaves such answers out, and `Heeded` says what holds
of them where the transport is honest (`HonestStep`).

Few things happen to an exchange in the end: calls, replies and sweeps come to other stages, entries
leave the store, a slot gets its outcome or its outcome is taken, a request is registered, or what
is remembered grows.  Each of these keeps `Correlated`, and every step is made of them.

Main statement: `resolved_once_and_earned`.
-/

namespace Courier

namespace Exchange

variable {τ ι κ : Type} {s t u : Exchange τ ι κ} {n i : Nat} {d : RequestDraft}
variable {e : PendingRequest} {q : Request} {o : Outcome} {m : Response}

/-! ## What happens under way -/

theorem Correlated.kept_of_mem (h : Correlated s) (he : e ∈ s.store.entries) :
    e.keptBySender = true := by
  obtain ⟨n, howns⟩ := h.entries e he
  exact h.kept _ (List.mem_of_getElem? howns)

theorem Correlated.slot_lt (h : Correlated s) (howns : s.Owns n e) :
    e.slot < s.store.slots.length := by
  obtain ⟨hi, -⟩ := List.getElem?_eq_some_iff.mp howns
  rw [← h.size]
  exact hi

/-- The slot of a registered request is sound. -/
theorem Correlated.soundSlot (h : Correlated s) (howns : s.Owns n e) :
    s.SoundSlot e.slot (s.store.slot e.slot) := by
  have hslot : s.store.slots[e.slot]? = some (s.store.slot e.slot) :=
    PendingStore.getElem?_of_lt (h.slot_lt howns)
  exact h.slots _ _ hslot

/-- Nothing has resolved a slot that has no outcome. -/
theorem Correlated.slot_notMem (h : Correlated s) (hnone : (s.store.slot i).outcome = none) :
    i ∉ s.resolutions.map (·.slot) := by
  intro hmem
  obtain ⟨r, hr, hslot⟩ := List.mem_map.mp hmem
  have hsome := (h.resolutions r hr).outcome
  rw [hslot, hnone] at hsome
  cases hsome

theorem not_hasEnded {stage : Call.Stage} (hcall : s.calls[n]? = some ⟨d, stage⟩)
    (hgoing : ∀ q, stage = .underway q → ∀ result, q.stage ≠ .ended result) : ¬s.HasEnded n := by
  rintro ⟨d', q, result, hended, hresult⟩
  obtain ⟨rfl, rfl⟩ := Call.mk.inj (Option.some.inj (hcall.symm.trans hended))
  exact hgoing q rfl result hresult

/-- A call whose request is not under way has no result. -/
theorem not_hasEnded_of_ne {stage : Call.Stage} (hcall : s.calls[n]? = some ⟨d, stage⟩)
    (hne : ∀ q, stage ≠ .underway q) : ¬s.HasEnded n :=
  not_hasEnded hcall fun q hq => absurd hq (hne q)

/-- A call that waits for something has no result. -/
theorem not_hasEnded_of_stage (hcall : s.calls[n]? = some ⟨d, .underway q⟩)
    (hstage : ∀ result, q.stage ≠ .ended result) : ¬s.HasEnded n :=
  not_hasEnded hcall fun _ hq => Call.Stage.underway.inj hq ▸ hstage

/-- A call that had not ended has come to another stage. -/
theorem Correlated.withCall {stage : Call.Stage} (h : Correlated s) (hgoing : ¬s.HasEnded n)
    (hstage : s.SoundCall n d stage) : Correlated (s.withCall n d stage) := by
  have hext : Extends s (s.withCall n d stage) :=
    { Extends.refl s with
      ended := by
        rintro k ⟨d', q, result, hcall, hresult⟩
        have hk : n ≠ k := by
          rintro rfl
          exact hgoing ⟨d', q, result, hcall, hresult⟩
        exact ⟨d', q, result, (List.getElem?_set_ne hk).trans hcall, hresult⟩ }
  have hs := h.toAgrees.mono hext
  refine { hs, h with calls := ?_ }
  intro k c hc
  simp only [Exchange.withCall, List.getElem?_set] at hc
  split at hc
  · next hk =>
    subst hk
    split at hc
    · obtain rfl := Option.some.inj hc
      exact hstage.mono hext
    · cases hc
  · exact hs.calls k c hc

/-- Entries have left the store. -/
theorem Correlated.leave {entries : List PendingRequest} (h : Correlated s)
    (hsub : entries ⊆ s.store.entries) :
    Correlated { s with store := { s.store with entries } } := by
  have hs : Agrees { s with store := { s.store with entries } } s :=
    h.toAgrees.mono { Extends.refl s with }
  exact { hs, h with entries := fun e he => hs.entries e (hsub he) }

theorem Correlated.remove (h : Correlated s) (id : RequestId) :
    Correlated { s with store := s.store.remove id } := by
  rw [PendingStore.remove_of_kept fun r hr => h.kept_of_mem hr]
  exact h.leave (List.filter_subset_self ..)

theorem Correlated.removeAll (h : Correlated s) (ids : List RequestId) :
    Correlated { s with store := s.store.removeAll ids } := by
  obtain ⟨entries, hsub, hall⟩ := PendingStore.removeAll_of_kept (fun r hr => h.kept_of_mem hr) ids
  rw [hall]
  exact h.leave hsub.subset

/-- Replies have come further, or a response has found its request. -/
theorem Correlated.withReplies {replies : List Reply} (h : Correlated s)
    (hreplies : ∀ r ∈ replies, s.Knows r.entry ∧ r.response.id = r.entry.id) :
    Correlated { s with replies } := by
  have hs : Agrees { s with replies } s := h.toAgrees.mono { Extends.refl s with }
  exact { hs, h with replies := hreplies }

/-- Sweeps have begun or come further. -/
theorem Correlated.withSweeps {sweeps : List Sweeping} (h : Correlated s)
    (hsweeps : ∀ k ∈ sweeps, s.SoundSweep k.now k.stage) : Correlated { s with sweeps } := by
  have hext : Extends s { s with sweeps } := { Extends.refl s with }
  exact { h.toAgrees.mono hext, h with sweeps := fun k hk => (hsweeps k hk).mono hext }

/-- A slot has changed, and this is what resolved it. -/
def put (s : Exchange τ ι κ) (i : SlotIndex) (x : Slot) (won : List Resolution) :
    Exchange τ ι κ :=
  { s with store := s.store.setSlot i x, resolutions := s.resolutions ++ won }

theorem Extends.put {x : Slot} (won : List Resolution) (hlt : i < s.store.slots.length)
    (houtcome : ∀ o, (s.store.slot i).outcome = some o → x.outcome = some o) :
    Extends s (s.put i x won) :=
  { Extends.refl s with
    resolutions := List.subset_append_left _ _
    outcomes := fun j o ho => by
      rw [Exchange.put, PendingStore.slot_setSlot hlt]
      split
      · next hj => exact houtcome o (hj ▸ ho)
      · exact ho }

/-- A slot that keeps its outcome may change. -/
theorem Correlated.put (h : Correlated s) (howns : s.Owns n e) (x : Slot) (won : List Resolution)
    (houtcome : ∀ o, (s.store.slot e.slot).outcome = some o → x.outcome = some o)
    (hslot : (s.put e.slot x won).SoundSlot e.slot x)
    (hwon : ∀ r ∈ won, (s.put e.slot x won).SoundResolution r)
    (honce : ((s.resolutions ++ won).map (·.slot)).Nodup) : Correlated (s.put e.slot x won) := by
  have hs := h.toAgrees.mono (.put won (h.slot_lt howns) houtcome)
  refine { hs, h with slots := ?_, resolutions := ?_, once := honce, size := ?_ }
  · intro i y hy
    simp only [Exchange.put, PendingStore.setSlot, List.getElem?_set] at hy
    split at hy
    · next hi =>
      subst hi
      rw [if_pos (h.slot_lt howns)] at hy
      exact Option.some.inj hy ▸ hslot
    · exact hs.slots i y hy
  · exact List.forall_mem_append.mpr ⟨hs.resolutions, hwon⟩
  · simpa [Exchange.put, PendingStore.setSlot] using h.size

/-- Somebody has resolved the slot of a registered request, with good reason if this was the first
resolution. -/
theorem Correlated.resolve {resolver : Resolver} (h : Correlated s) (hknows : s.Knows e)
    (hjustified : (s.store.slot e.slot).isResolved = false → s.Justified e o resolver) :
    Correlated (s.resolve e.slot o resolver) := by
  cases hresolved : (s.store.slot e.slot).isResolved with
  | true =>
    have hsame : s.resolve e.slot o resolver = s := by
      rw [Exchange.resolve, PendingStore.resolve_of_resolved o hresolved]
      rfl
    rw [hsame]
    exact h
  | false =>
    obtain ⟨n, howns⟩ := hknows
    have hnone : (s.store.slot e.slot).outcome = none := by simpa [Slot.isResolved] using hresolved
    have hold := h.soundSlot howns
    have hput : s.resolve e.slot o resolver =
        s.put e.slot { s.store.slot e.slot with outcome := some o } [⟨e.slot, o, resolver⟩] := by
      rw [Exchange.resolve, PendingStore.resolve_of_unresolved o hresolved]
      rfl
    have houtcome : ∀ o', (s.store.slot e.slot).outcome = some o' → some o = some o' := by
      simp [hnone]
    have honce : ((s.resolutions ++ [Resolution.mk e.slot o resolver]).map (·.slot)).Nodup := by
      rw [List.map_append, List.map_singleton, ← List.concat_eq_append]
      exact List.Nodup.concat (h.slot_notMem hnone) h.once
    rw [hput]
    refine h.put howns _ _ houtcome ⟨⟨hold.isOpen.awaited, hold.isOpen.resolvable⟩, ?_, hold.taken⟩
      ?_ honce
    · intro o' ho'
      exact ⟨_, List.mem_append_right _ (List.mem_singleton_self _), rfl, Option.some.inj ho'⟩
    · intro r hr
      obtain rfl := List.mem_singleton.mp hr
      refine ⟨?_, e, ⟨n, howns⟩, rfl, ?_⟩
      · simp [Exchange.put, PendingStore.slot_setSlot (h.slot_lt howns)]
      · exact (hjustified hresolved).mono (.put _ (h.slot_lt howns) houtcome)

/-- The call of a registered request has ended, and it has taken the outcome. -/
theorem Correlated.take (h : Correlated s) (howns : s.Owns n e) (hended : s.HasEnded n) :
    Correlated
      { s with store := s.store.setSlot e.slot { s.store.slot e.slot with taken := true } } := by
  have hold := h.soundSlot howns
  have hput : Correlated (s.put e.slot { s.store.slot e.slot with taken := true } []) := by
    refine h.put howns _ _ (fun o ho => ho) ?_ ?_ ?_
    · refine ⟨⟨hold.isOpen.awaited, hold.isOpen.resolvable⟩, ?_, ?_⟩
      · simpa [Exchange.put] using hold.resolved
      · intro _
        exact ⟨_, howns, hended⟩
    · intro r hr
      exact absurd hr List.not_mem_nil
    · simpa using h.once
  simpa only [Exchange.put, List.append_nil] using hput

/-- Call `n` has registered a request, which gets a slot. -/
def enroll (s : Exchange τ ι κ) (n : Nat) (e : PendingRequest) : Exchange τ ι κ :=
  { s with
    store := { entries := s.store.entries ++ [e], slots := s.store.slots ++ [{}] }
    registered := s.registered ++ [⟨n, e⟩] }

theorem Extends.enroll (s : Exchange τ ι κ) (n : Nat) (e : PendingRequest) :
    Extends s (s.enroll n e) :=
  { Extends.refl s with
    registered := List.prefix_append _ _
    outcomes := fun _ _ => PendingStore.outcome_append _ _ }

theorem Correlated.owns_enroll (h : Correlated s) (n : Nat)
    (hslot : e.slot = s.store.slots.length) : (s.enroll n e).Owns n e := by
  have hlast : e.slot = s.registered.length := hslot.trans h.size.symm
  rw [Owns, hlast]
  exact List.getElem?_concat_length

/-- A request has been registered. -/
theorem Correlated.enroll (h : Correlated s) (n : Nat) (hslot : e.slot = s.store.slots.length)
    (hkept : e.keptBySender = true) : Correlated (s.enroll n e) := by
  have hs := h.toAgrees.mono (.enroll s n e)
  have howns := h.owns_enroll n hslot
  refine { hs, h with entries := ?_, slots := ?_, size := ?_, kept := ?_ }
  · exact List.forall_mem_append.mpr ⟨hs.entries, List.forall_mem_singleton.mpr ⟨n, howns⟩⟩
  · intro i x hx
    rcases getElem?_or_eq_of_concat hx with hold | rfl
    · exact hs.slots i x hold
    · exact ⟨⟨rfl, rfl⟩, nofun, nofun⟩
  · simpa [Exchange.enroll] using h.size
  · exact List.forall_mem_append.mpr ⟨h.kept, List.forall_mem_singleton.mpr hkept⟩

/-- What else an exchange remembers has grown. -/
theorem Correlated.grow (h : Correlated s) (hext : Extends s u) (hstore : u.store = s.store)
    (hcalls : u.calls = s.calls) (hreplies : u.replies = s.replies)
    (hsweeps : u.sweeps = s.sweeps) (hregistered : u.registered = s.registered)
    (hresolutions : u.resolutions = s.resolutions) : Correlated u := by
  have hs := h.toAgrees.mono hext
  exact {
    entries := hstore ▸ hs.entries
    slots := hstore ▸ hs.slots
    calls := hcalls ▸ hs.calls
    replies := hreplies ▸ hs.replies
    sweeps := hsweeps ▸ hs.sweeps
    resolutions := hresolutions ▸ hs.resolutions
    size := by rw [hregistered, hstore, h.size]
    kept := hregistered ▸ h.kept
    once := hresolutions ▸ h.once }

/-! ## Results -/

/-- A slot has one request. -/
theorem Owns.unique {k : Nat} {e' : PendingRequest} (howns : s.Owns n e) (howns' : s.Owns k e')
    (hslot : e.slot = e'.slot) : n = k ∧ e = e' := by
  have hsame : some (Registration.mk n e) = some ⟨k, e'⟩ := by
    rw [← howns, ← howns', hslot]
  exact Registration.mk.inj (Option.some.inj hsame)

/-- A response with the id of a request earns what can be read from it. -/
theorem earned_of_response (hresponse : q.response = d.response) (hanswered : s.AnsweredBy e m) :
    s.Earned d e
      (q.resultOf (.outcome (s.bus.outcomeOf d.response.type m.payload m.error))) := by
  unfold Bus.outcomeOf
  split
  · next text herror => exact ⟨m, hanswered, herror⟩
  · next herror =>
    split
    · next value hread =>
      simp only [Request.resultOf, hresponse]
      cases hvalue : d.response.read value with
      | ok message => exact ⟨m, value, hanswered, herror, hread, hvalue⟩
      | error cause => exact ⟨m, hanswered, herror, .inr ⟨value, hread, hvalue⟩⟩
    · next cause hread => exact ⟨m, hanswered, herror, .inl hread⟩

/-- The outcome of a registered request is what its sender has earned. -/
theorem Correlated.earned (h : Correlated s) (hregistered : s.Registered n d e q)
    (ho : (s.store.slot e.slot).outcome = some o) :
    s.Earned d e (q.resultOf (.outcome o)) := by
  obtain ⟨howns, settings, -, hopened⟩ := hregistered
  obtain ⟨⟨i, o, resolver⟩, hr, rfl, rfl⟩ := (h.soundSlot howns).resolved o ho
  -- The resolution names a request of its own, and a slot has only one.
  obtain ⟨e', ⟨k, howns'⟩, hslot', hjustified⟩ := (h.resolutions _ hr).justified
  obtain ⟨rfl, rfl⟩ := howns.unique howns' hslot'.symm
  have hcancelled : s.tokens.isCancelled e.token = true →
      s.Earned d e (q.resultOf (.outcome (.cancelled .cancelled))) := by
    intro hc
    rw [hopened.entryToken] at hc
    exact hc
  cases resolver with
  | sender =>
    obtain ⟨rfl, hc⟩ := hjustified
    exact hcancelled hc
  | sweep now =>
    rcases hjustified with ⟨rfl, hseen⟩ | ⟨rfl, hc⟩
    · have hid : q.id.text = e.id.text := congrArg RequestId.text hopened.id
      exact ⟨hid, now, hseen⟩
    · exact hcancelled hc
  | response m =>
    obtain ⟨hid, houtcome⟩ := hjustified
    have hanswered : s.AnsweredBy e m := ⟨hid, _, hr, rfl, rfl⟩
    have htype : o = s.bus.outcomeOf d.response.type m.payload m.error :=
      hopened.responseType ▸ houtcome
    rw [htype]
    exact earned_of_response hopened.response hanswered

/-! ## Calls -/

theorem Registered.withStage (h : s.Registered n d e q) (stage : Request.Stage) :
    s.Registered n d e { q with stage } := by
  obtain ⟨howns, settings, hsettings, hopened⟩ := h
  exact ⟨howns, settings, hsettings, { hopened with }⟩

/-- Nobody but its sender takes the outcome of a request. -/
theorem Correlated.not_taken (h : Correlated s) (howns : s.Owns n e) (hgoing : ¬s.HasEnded n) :
    (s.store.slot e.slot).taken = false := by
  cases htaken : (s.store.slot e.slot).taken with
  | false => rfl
  | true =>
    obtain ⟨g, hg, hended⟩ := (h.soundSlot howns).taken htaken
    obtain rfl := Option.some.inj (howns.symm.trans hg)
    exact absurd hended hgoing

/-- A call takes the outcome of its request: nobody else could, and it has earned it. -/
theorem Correlated.conclude {stage : Call.Stage} (h : Correlated s)
    (hcall : s.calls[n]? = some ⟨d, stage⟩) (hgoing : ¬s.HasEnded n)
    (hregistered : s.Registered n d e q) (ho : (s.store.slot q.slot).outcome = some o) :
    (s.store.slot q.slot).IsOpen ∧ (s.store.slot q.slot).taken = false ∧
      Correlated
        { s.withCall n d (.underway { q with stage := .ended (q.resultOf (.outcome o)) }) with
          store := s.store.setSlot q.slot { s.store.slot q.slot with taken := true } } := by
  obtain ⟨howns, settings, -, hopened⟩ := id hregistered
  rw [hopened.slot] at ho
  have hsound : s.SoundCall n d
      (.underway { q with stage := .ended (q.resultOf (.outcome o)) }) := by
    refine ⟨e, hregistered.withStage _, fun result hresult _ => ?_⟩
    obtain rfl := Request.Stage.ended.inj hresult
    exact h.earned hregistered ho
  have hended : (s.withCall n d
      (.underway { q with stage := .ended (q.resultOf (.outcome o)) })).HasEnded n := by
    obtain ⟨hn, -⟩ := List.getElem?_eq_some_iff.mp hcall
    exact ⟨d, _, _, List.getElem?_set_self hn, rfl⟩
  have hopen := (h.soundSlot howns).isOpen
  have htaken := h.not_taken howns hgoing
  have htake := (h.withCall hgoing hsound).take howns hended
  rw [← hopened.slot] at hopen htaken htake
  exact ⟨hopen, htaken, htake⟩

/-- A call has looked at its slot. -/
theorem Correlated.poll (h : Correlated s) (hcall : s.calls[n]? = some ⟨d, .underway q⟩)
    (hstage : q.stage = .waiting) :
    Correlated
      { s.withCall n d (.underway (q.poll s.store false).2) with
        store := (q.poll s.store false).1 } := by
  have hgoing := not_hasEnded_of_stage hcall fun _ => hstage ▸ nofun
  have hsound : s.SoundCall n d (.underway q) := h.calls _ _ hcall
  obtain ⟨e, hregistered, -⟩ := id hsound
  cases houtcome : (s.store.slot q.slot).outcome with
  | none =>
    obtain ⟨howns, settings, -, hopened⟩ := hregistered
    have hopen := (h.soundSlot howns).isOpen
    rw [← hopened.slot] at hopen
    rw [Request.poll_of_unresolved hopen houtcome]
    exact h.withCall hgoing hsound
  | some o =>
    obtain ⟨hopen, htaken, hconclude⟩ := h.conclude hcall hgoing hregistered houtcome
    rw [Request.poll_of_resolved hopen houtcome htaken]
    exact hconclude

/-- The transport has answered. -/
theorem Correlated.produced {message : TransportMessage} {result : Except Failure Unit}
    (h : Correlated s) (hcall : s.calls[n]? = some ⟨d, .underway q⟩)
    (hstage : q.stage = .producing message) :
    Correlated
      { s.withCall n d (.underway (q.produced s.store message result).2) with
        store := (q.produced s.store message result).1 } := by
  have hgoing := not_hasEnded_of_stage hcall fun _ => hstage ▸ nofun
  obtain ⟨e, hregistered, -⟩ := h.calls _ _ hcall
  cases result with
  | ok _ => exact h.withCall hgoing ⟨e, hregistered.withStage _, nofun⟩
  | error cause =>
    have hsound : s.SoundCall n d
        (.underway { q with stage := .ended (.error (message.reported cause)) }) := by
      refine ⟨e, hregistered.withStage _, fun result hresult hne => ?_⟩
      obtain rfl := Request.Stage.ended.inj hresult
      cases cause with
      | cancelled => exact absurd rfl hne
      | _ => trivial
    exact (h.withCall hgoing hsound).remove q.id

/-- A request is to be sent. -/
theorem Correlated.call (h : Correlated s) (draft : RequestDraft) :
    Correlated { s with calls := s.calls ++ [{ draft }] } := by
  have hext : Extends s { s with calls := s.calls ++ [{ draft }] } :=
    { Extends.refl s with
      ended := by
        rintro k ⟨d, q, result, hcall, hresult⟩
        obtain ⟨hk, -⟩ := List.getElem?_eq_some_iff.mp hcall
        exact ⟨d, q, result, (List.getElem?_append_left hk).trans hcall, hresult⟩ }
  have hs := h.toAgrees.mono hext
  refine { hs, h with calls := ?_ }
  intro k c hc
  rcases getElem?_or_eq_of_concat hc with hold | rfl
  · exact hs.calls k c hold
  · trivial

/-- A call is admitted with the settings of the bus, or refused for a reason of its own. -/
theorem soundCall_admission (s : Exchange τ ι κ) (n : Nat) (d : RequestDraft) :
    s.SoundCall n d (s.admission d) := by
  unfold admission
  split
  · next settings hadmit => exact Bus.admitRequest_ok hadmit
  · next cause hadmit =>
    rcases Bus.admitRequest_error hadmit with ⟨c, rfl⟩ | ⟨rfl, hc⟩
    · trivial
    · exact hc

/-- A call has registered its request. -/
theorem Correlated.register {settings : RequestResponseSettings} {created : Instant}
    {id : RequestId} {store : PendingStore} (h : Correlated s)
    (hcall : s.calls[n]? = some ⟨d, .stamped settings created⟩)
    (hopen : s.bus.openRequest s.nativeHeaders settings s.store id created d = .ok (store, q))
    (hentry : store.find? id = some e) :
    Correlated
      { s.withCall n d (.underway q) with store, registered := s.registered ++ [⟨n, e⟩] } := by
  have hsettings : s.SoundCall n d (.stamped settings created) := h.calls _ _ hcall
  have hgoing : ¬s.HasEnded n := not_hasEnded_of_ne hcall fun _ => nofun
  obtain ⟨e', message, rfl, hfind, -, hslot, hstage, hopened⟩ := Bus.openRequest_ok hopen
  obtain rfl := Option.some.inj (hfind.symm.trans hentry)
  have hsound : (s.enroll n e').SoundCall n d (.underway q) := by
    refine ⟨e', ⟨h.owns_enroll n hslot, settings, hsettings, hopened⟩, ?_⟩
    intro result hresult
    rw [hstage] at hresult
    cases hresult
  exact (h.enroll n hslot hopened.kept).withCall hgoing hsound

/-- A request that cannot be registered is refused for a reason of its own. -/
theorem Correlated.mayRefuse {settings : RequestResponseSettings} {created : Instant}
    {id : RequestId} {cause : Failure} (h : Correlated s)
    (hopen : s.bus.openRequest s.nativeHeaders settings s.store id created d = .error cause) :
    s.MayRefuse d cause := by
  rcases Bus.openRequest_error hopen with ⟨c, rfl⟩ | ⟨c, rfl⟩ | ⟨rfl, hpending⟩
  · trivial
  · trivial
  · obtain ⟨e, hfind⟩ := Option.isSome_iff_exists.mp hpending
    obtain ⟨k, howns⟩ := h.entries e (PendingStore.mem_of_find? hfind)
    exact ⟨⟨k, e⟩, List.mem_of_getElem? howns, congrArg _ (PendingStore.id_of_find? hfind)⟩

/-- A call whose token is cancelled has resolved its own slot. -/
theorem Correlated.resign (h : Correlated s) (hcall : s.calls[n]? = some ⟨d, .underway q⟩)
    (hstage : q.stage = .waiting) (hcancelled : s.tokens.isCancelled q.token = true) :
    Correlated ((s.resolve q.slot (.cancelled .cancelled) .sender).withCall n d (.resigned q)) := by
  have hgoing := not_hasEnded_of_stage hcall fun _ => hstage ▸ nofun
  obtain ⟨e, hregistered, -⟩ := h.calls _ _ hcall
  obtain ⟨howns, settings, -, hopened⟩ := id hregistered
  rw [hopened.token, ← hopened.entryToken] at hcancelled
  rw [hopened.slot]
  have hjustified : s.Justified e (.cancelled .cancelled) .sender := ⟨rfl, hcancelled⟩
  have hresigned : (s.resolve e.slot (.cancelled .cancelled) .sender).SoundCall n d
      (.resigned q) :=
    ⟨e, hregistered, PendingStore.isResolved_resolve (h.slot_lt howns) _⟩
  exact (h.resolve ⟨n, howns⟩ fun _ => hjustified).withCall hgoing hresigned

/-- A call that resigned has taken the outcome. -/
theorem Correlated.collect (h : Correlated s) (hcall : s.calls[n]? = some ⟨d, .withdrawn q⟩) :
    Correlated
      { s.withCall n d (.underway
          { q with stage := .ended (q.resultOf (s.store.receive q.slot).2) }) with
        store := (s.store.receive q.slot).1 } := by
  have hgoing : ¬s.HasEnded n := not_hasEnded_of_ne hcall fun _ => nofun
  obtain ⟨e, hregistered, hresolved⟩ := h.calls _ _ hcall
  obtain ⟨-, settings, -, hopened⟩ := id hregistered
  obtain ⟨o, ho⟩ := Option.isSome_iff_exists.mp hresolved
  rw [← hopened.slot] at ho
  obtain ⟨hopen, htaken, hconclude⟩ := h.conclude hcall hgoing hregistered ho
  rw [PendingStore.receive_of_resolved hopen ho htaken]
  exact hconclude

/-! ## Responses and sweeps -/

theorem Correlated.withSweep {k : Nat} {now : Instant} {stage : Sweeping.Stage} (h : Correlated s)
    (hstage : s.SoundSweep now stage) : Correlated (s.withSweep k now stage) := by
  refine h.withSweeps fun x hx => ?_
  rcases List.mem_or_eq_of_mem_set hx with hx | rfl
  · exact h.sweeps x hx
  · exact hstage

theorem Correlated.withReply {r : Reply} {stage : Reply.Stage} (h : Correlated s)
    (hr : s.Knows r.entry ∧ r.response.id = r.entry.id) : Correlated (s.withReply i r stage) := by
  refine h.withReplies fun x hx => ?_
  rcases List.mem_or_eq_of_mem_set hx with hx | rfl
  · exact h.replies x hx
  · exact hr

/-- A sweep has looked at the token of a request that was due. -/
theorem Correlated.inspect {k : Nat} {now : Instant} {remaining : List PendingRequest}
    {processed : List RequestId} (h : Correlated s)
    (hsweep : s.sweeps[k]? = some ⟨now, .visiting (e :: remaining) processed⟩) :
    Correlated (s.afterInspection k now e remaining processed) := by
  have hvisiting : s.SoundSweep now (.visiting (e :: remaining) processed) :=
    h.sweeps _ (List.mem_of_getElem? hsweep)
  obtain ⟨hknows, hdue⟩ := hvisiting e List.mem_cons_self
  have hremaining : ∀ r ∈ remaining, s.Knows r ∧
      (r.expires ≤ now ∨ s.tokens.isCancelled r.token = true) := by
    intro r hr
    exact hvisiting r (List.mem_cons_of_mem e hr)
  let seen : Inspection :=
    ⟨now, e.slot, s.tokens.isCancelled e.token, (s.store.slot e.slot).isResolved⟩
  have hgrown : Correlated { s with inspections := s.inspections ++ [seen] } :=
    h.grow { Extends.refl s with inspections := List.subset_append_left _ _ } rfl rfl rfl rfl rfl rfl
  -- What resolves the slot between this look and the strike makes the strike lose.
  have hjustified : (s.store.slot e.slot).isResolved = false →
      Justified { s with inspections := s.inspections ++ [seen] } e
        (.cancelled (Sweep.reason (s.setting now) e)) (.sweep now) := by
    intro hfree
    cases hcancelled : s.tokens.isCancelled e.token with
    | true =>
      have hreason : Sweep.reason (s.setting now) e = .cancelled := by
        simp [Sweep.reason, setting, hcancelled]
      exact .inr ⟨by rw [hreason], hcancelled⟩
    | false =>
      have hreason : Sweep.reason (s.setting now) e = .timedOut := by
        simp [Sweep.reason, setting, hcancelled]
      have hexpired : e.expires ≤ now := hdue.resolve_right (by simp [hcancelled])
      exact .inl ⟨by rw [hreason], hexpired, by simp [seen, hcancelled, hfree]⟩
  exact hgrown.withSweep ⟨⟨hknows, hjustified⟩, hremaining⟩

/-- A response has found its request. -/
theorem Correlated.arrive (h : Correlated s) (hfind : s.store.find? m.id = some e) :
    Correlated { s with replies := s.replies ++ [{ response := m, entry := e }] } := by
  have hknows : s.Knows e := h.entries e (PendingStore.mem_of_find? hfind)
  have hid : m.id = e.id := (PendingStore.id_of_find? hfind).symm
  exact h.withReplies (List.forall_mem_append.mpr
    ⟨h.replies, List.forall_mem_singleton.mpr ⟨hknows, hid⟩⟩)

/-- A response has resolved the slot of its request. -/
theorem Correlated.answer {r : Reply} (h : Correlated s) (hreply : s.replies[i]? = some r) :
    Correlated
      ((s.resolve r.entry.slot
        (s.bus.outcomeOf r.entry.responseType r.response.payload r.response.error)
        (.response r.response)).withReply i r .resolved) := by
  have hreplied := h.replies r (List.mem_of_getElem? hreply)
  have hjustified : s.Justified r.entry
      (s.bus.outcomeOf r.entry.responseType r.response.payload r.response.error)
      (.response r.response) := ⟨hreplied.2, rfl⟩
  exact (h.resolve hreplied.1 fun _ => hjustified).withReply hreplied

/-- A sweep has begun. -/
theorem Correlated.sweep (h : Correlated s) :
    Correlated { s with sweeps := s.sweeps ++ [{ now := s.clock }] } := by
  have hreading : s.SoundSweep s.clock .reading := trivial
  exact h.withSweeps (List.forall_mem_append.mpr
    ⟨h.sweeps, List.forall_mem_singleton.mpr hreading⟩)

/-- A sweep finds registered requests that are due. -/
theorem Correlated.soundSweep_due (h : Correlated s) (now : Instant) :
    s.SoundSweep now (.visiting (s.store.due s.tokens.isCancelled now) []) := by
  intro e he
  obtain ⟨hmem, hdue⟩ := List.mem_filter.mp he
  exact ⟨h.entries e hmem, by simpa [PendingRequest.isDue] using hdue⟩

/-- A sweep has given up a request. -/
theorem Correlated.strike {k : Nat} {now : Instant} {reason : CancelReason}
    {remaining : List PendingRequest} {processed : List RequestId} (h : Correlated s)
    (hsweep : s.sweeps[k]? = some ⟨now, .striking reason e remaining processed⟩) :
    Correlated
      ((s.resolve e.slot (.cancelled reason) (.sweep now)).withSweep k now
        (.visiting remaining (e.id :: processed))) := by
  have hstriking : s.SoundSweep now (.striking reason e remaining processed) :=
    h.sweeps _ (List.mem_of_getElem? hsweep)
  obtain ⟨⟨hknows, hjustified⟩, hremaining⟩ := hstriking
  exact (h.resolve hknows hjustified).withSweep hremaining

/-! ## Steps -/

/-- **Every step keeps what is under way in agreement with what happened.** -/
theorem Correlated.step {ev : Event} (h : Correlated s) (hstep : Step s ev u) : Correlated u := by
  cases hstep with
  | clock now => exact h.grow { Extends.refl s with } rfl rfl rfl rfl rfl rfl
  | cancel token =>
    exact h.grow
      { Extends.refl s with tokens := fun k => Tokens.isCancelled_cancel_of_isCancelled token }
      rfl rfl rfl rfl rfl rfl
  | dispose hbegin =>
    obtain ⟨hserializer, hsettings, hproducers⟩ := Bus.beginDisposal_some hbegin
    exact h.grow
      { Extends.refl s with
        serializer := hserializer, requestResponse := hsettings, producers := hproducers }
      rfl rfl rfl rfl rfl rfl
  | disposed => exact h.grow { Extends.refl s with } rfl rfl rfl rfl rfl rfl
  | call draft => exact h.call draft
  | @ask n d hcall =>
    exact h.withCall (not_hasEnded_of_ne hcall fun _ => nofun) (soundCall_admission s n d)
  | @stamp n d settings hcall =>
    have hsettings : s.SoundCall n d (.admitted settings) := h.calls _ _ hcall
    exact h.withCall (not_hasEnded_of_ne hcall fun _ => nofun) hsettings
  | register hcall hopen hentry => exact h.register hcall hopen hentry
  | refuse hcall hopen =>
    exact h.withCall (not_hasEnded_of_ne hcall fun _ => nofun) (h.mayRefuse hopen)
  | produced hcall hstage result => exact h.produced hcall hstage
  | poll hcall hstage => exact h.poll hcall hstage
  | resign hcall hstage hcancelled => exact h.resign hcall hstage hcancelled
  | @withdraw n d q hcall =>
    have hresigned : s.SoundCall n d (.resigned q) := h.calls _ _ hcall
    have hwithdrawn : s.SoundCall n d (.withdrawn q) := hresigned
    exact (h.withCall (not_hasEnded_of_ne hcall fun _ => nofun) hwithdrawn).remove q.id
  | collect hcall => exact h.collect hcall
  | arrive hfind => exact h.arrive hfind
  | discard hfind => exact h
  | answer hreply hstage => exact h.answer hreply
  | @clear i r hreply hstage =>
    exact (h.withReply (h.replies r (List.mem_of_getElem? hreply))).remove r.response.id
  | sweep => exact h.sweep
  | gather hsweep => exact h.withSweep (h.soundSweep_due _)
  | inspect hsweep => exact h.inspect hsweep
  | strike hsweep => exact h.strike hsweep
  | @finish k now processed hsweep =>
    have hended : s.SoundSweep now .ended := trivial
    exact (h.withSweep hended).removeAll processed.reverse

/-! ## Runs -/

variable {bus : Bus τ ι κ} {nativeHeaders : Bool} {clock : Instant} {tokens : Tokens}
variable {es : List Event}

/-- At first nothing is under way. -/
theorem Correlated.initial (bus : Bus τ ι κ) (nativeHeaders : Bool) (clock : Instant)
    (tokens : Tokens) : Correlated (Exchange.initial bus nativeHeaders clock tokens) where
  entries _ he := absurd he List.not_mem_nil
  slots _ _ hx := absurd hx nofun
  calls _ _ hc := absurd hc nofun
  replies _ hr := absurd hr List.not_mem_nil
  sweeps _ hk := absurd hk List.not_mem_nil
  resolutions _ hr := absurd hr List.not_mem_nil
  size := rfl
  kept _ hg := absurd hg List.not_mem_nil
  once := List.nodup_nil

/-- Every run keeps what is under way in agreement with what happened. -/
theorem Correlated.of_run (hrun : Run Step (Exchange.initial bus nativeHeaders clock tokens) es t) :
    Correlated t :=
  hrun.invariant Correlated (.initial bus nativeHeaders clock tokens) fun _ _ _ h hstep =>
    h.step hstep

/-! ## Calls that were cancelled -/

/-- A step at which the transport answers `cancelled` only to a call whose token is cancelled. -/
def HonestStep (s : Exchange τ ι κ) (ev : Event) (u : Exchange τ ι κ) : Prop :=
  Step s ev u ∧ ∀ n c, ev = .produced n (.error .cancelled) → s.calls[n]? = some c →
    s.tokens.isCancelled c.draft.token = true

/-- A run in which the transport never answers `cancelled` is honest. -/
theorem honest_of_run (hrun : Run Step s es t)
    (hnever : ∀ n, Event.produced n (.error .cancelled) ∉ es) : Run HonestStep s es t := by
  induction hrun with
  | nil s => exact .nil s
  | cons head tail ih =>
    have hhead : ∀ n, _ ≠ Event.produced n (.error .cancelled) := fun n hev =>
      hnever n (hev ▸ List.mem_cons_self)
    exact .cons ⟨head, fun n _ hev => absurd hev (hhead n)⟩
      (ih fun n hmem => hnever n (List.mem_cons_of_mem _ hmem))

/-- Whoever got `cancelled` has a cancelled token. -/
def Heeded (s : Exchange τ ι κ) : Prop :=
  ∀ (n : Nat) d q, s.calls[n]? = some ⟨d, .underway q⟩ → q.stage = .ended (.error .cancelled) →
    s.tokens.isCancelled d.token = true

theorem Heeded.withCall {stage : Call.Stage} (h : s.Heeded)
    (hstage : ∀ q, stage = .underway q → q.stage = .ended (.error .cancelled) →
      s.tokens.isCancelled d.token = true) : (s.withCall n d stage).Heeded := by
  intro k d' q hcall hended
  simp only [Exchange.withCall, List.getElem?_set] at hcall
  split at hcall
  · split at hcall
    · obtain ⟨rfl, rfl⟩ := Call.mk.inj (Option.some.inj hcall)
      exact hstage q rfl hended
    · cases hcall
  · exact h k d' q hcall hended

/-- What a call takes from its slot says `cancelled` only if its token is cancelled. -/
theorem Correlated.isCancelled_of_resultOf (h : Correlated s) (hregistered : s.Registered n d e q)
    (ho : (s.store.slot q.slot).outcome = some o)
    (hcancelled : q.resultOf (.outcome o) = .error .cancelled) :
    s.tokens.isCancelled d.token = true := by
  obtain ⟨-, settings, -, hopened⟩ := id hregistered
  have hearned : s.Earned d e (q.resultOf (.outcome o)) := h.earned hregistered (hopened.slot ▸ ho)
  rw [hcancelled] at hearned
  exact hearned

theorem Heeded.produced {message : TransportMessage} {result : Except Failure Unit}
    (h : s.Heeded) (hcall : s.calls[n]? = some ⟨d, .underway q⟩)
    (hhonest : ∀ c, result = .error .cancelled → s.calls[n]? = some c →
      s.tokens.isCancelled c.draft.token = true) :
    (s.withCall n d (.underway (q.produced s.store message result).2)).Heeded := by
  refine h.withCall fun q' hq hended => ?_
  obtain rfl := Call.Stage.underway.inj hq
  cases result with
  | ok _ => cases hended
  | error cause =>
    have hreported : message.reported cause = .cancelled :=
      Except.error.inj (Request.Stage.ended.inj hended)
    cases cause with
    | cancelled => exact hhonest _ rfl hcall
    | _ => cases hreported

theorem Heeded.poll (h : s.Heeded) (hs : Correlated s)
    (hcall : s.calls[n]? = some ⟨d, .underway q⟩) (hstage : q.stage = .waiting) :
    (s.withCall n d (.underway (q.poll s.store false).2)).Heeded := by
  have hgoing := not_hasEnded_of_stage hcall fun _ => hstage ▸ nofun
  obtain ⟨e, hregistered, -⟩ := hs.calls _ _ hcall
  refine h.withCall fun q' hq hended => ?_
  obtain rfl := Call.Stage.underway.inj hq
  cases houtcome : (s.store.slot q.slot).outcome with
  | none =>
    obtain ⟨howns, settings, -, hopened⟩ := hregistered
    have hopen := (hs.soundSlot howns).isOpen
    rw [← hopened.slot] at hopen
    rw [Request.poll_of_unresolved hopen houtcome, hstage] at hended
    cases hended
  | some o =>
    obtain ⟨hopen, htaken, -⟩ := hs.conclude hcall hgoing hregistered houtcome
    rw [Request.poll_of_resolved hopen houtcome htaken] at hended
    exact hs.isCancelled_of_resultOf hregistered houtcome (Request.Stage.ended.inj hended)

theorem Heeded.collect (h : s.Heeded) (hs : Correlated s)
    (hcall : s.calls[n]? = some ⟨d, .withdrawn q⟩) :
    (s.withCall n d (.underway
      { q with stage := .ended (q.resultOf (s.store.receive q.slot).2) })).Heeded := by
  have hgoing : ¬s.HasEnded n := not_hasEnded_of_ne hcall fun _ => nofun
  obtain ⟨e, hregistered, hresolved⟩ := hs.calls _ _ hcall
  obtain ⟨-, settings, -, hopened⟩ := id hregistered
  obtain ⟨o, ho⟩ := Option.isSome_iff_exists.mp hresolved
  rw [← hopened.slot] at ho
  obtain ⟨hopen, htaken, -⟩ := hs.conclude hcall hgoing hregistered ho
  rw [PendingStore.receive_of_resolved hopen ho htaken]
  refine h.withCall fun q' hq hended => ?_
  obtain rfl := Call.Stage.underway.inj hq
  exact hs.isCancelled_of_resultOf hregistered ho (Request.Stage.ended.inj hended)

theorem Heeded.step {ev : Event} (h : s.Heeded) (hs : Correlated s) (hstep : HonestStep s ev u) :
    u.Heeded := by
  obtain ⟨hstep, hhonest⟩ := hstep
  cases hstep with
  | cancel token =>
    intro n d q hcall hended
    exact Tokens.isCancelled_cancel_of_isCancelled token (h n d q hcall hended)
  | call draft =>
    intro n d q hcall hended
    rcases getElem?_or_eq_of_concat hcall with hold | hnew
    · exact h n d q hold hended
    · cases hnew
  | @ask n d hcall =>
    refine h.withCall fun q hq => ?_
    unfold admission at hq
    split at hq <;> cases hq
  | stamp hcall => exact h.withCall nofun
  | @register n d settings created id store q e hcall hopen hentry =>
    obtain ⟨e', message, -, -, -, -, hstage, -⟩ := Bus.openRequest_ok hopen
    refine h.withCall fun q' hq hended => ?_
    obtain rfl := Call.Stage.underway.inj hq
    rw [hstage] at hended
    cases hended
  | refuse hcall hopen => exact h.withCall nofun
  | produced hcall hstage result =>
    exact h.produced hcall fun c hresult => hhonest _ c (congrArg _ hresult)
  | poll hcall hstage => exact h.poll hs hcall hstage
  | resign hcall hstage hcancelled => exact h.withCall nofun
  | withdraw hcall => exact h.withCall nofun
  | collect hcall => exact h.collect hs hcall
  | _ => exact h

theorem Heeded.of_run
    (hrun : Run HonestStep (Exchange.initial bus nativeHeaders clock tokens) es t) :
    t.Heeded := by
  have hboth := hrun.invariant (fun s => Correlated s ∧ s.Heeded)
    ⟨.initial bus nativeHeaders clock tokens, fun _ _ _ hcall => absurd hcall nofun⟩
    fun _ _ _ h hstep => ⟨h.1.step hstep.1, h.2.step h.1 hstep⟩
  exact hboth.2

/-! ## Correlation -/

/-- **Correlation.**  However the steps of senders, responses and sweeps follow one another, no slot
is resolved twice, and a slot keeps the outcome that resolved it.  A registered request gets what it
has earned, and one that was not registered was refused for a reason of its own.  A response whose
request is not pending changes nothing.  The transport is taken to answer `cancelled` only to a call
whose token is cancelled. -/
theorem resolved_once_and_earned
    (hrun : Run HonestStep (Exchange.initial bus nativeHeaders clock tokens) es t) :
    ((t.resolutions.map (·.slot)).Nodup ∧
      ∀ r ∈ t.resolutions, (t.store.slot r.slot).outcome = some r.outcome) ∧
    (∀ (n : Nat) d q result, t.calls[n]? = some ⟨d, .underway q⟩ → q.stage = .ended result →
      ∃ e, t.Registered n d e q ∧ t.Earned d e result) ∧
    (∀ (n : Nat) d cause, t.calls[n]? = some ⟨d, .refused cause⟩ → t.MayRefuse d cause) ∧
    ∀ m u, t.store.find? m.id = none → Step t (.arrive m) u → u = t := by
  have h := Correlated.of_run (hrun.mono fun _ _ _ hstep => hstep.1)
  refine ⟨⟨h.once, fun r hr => (h.resolutions r hr).outcome⟩, ?_, ?_, ?_⟩
  · intro n d q result hcall hresult
    obtain ⟨e, hregistered, hearned⟩ := h.calls _ _ hcall
    refine ⟨e, hregistered, ?_⟩
    by_cases hcancelled : result = .error .cancelled
    · subst hcancelled
      exact Heeded.of_run hrun n d q hcall hresult
    · exact hearned result hresult hcancelled
  · intro n d cause hcall
    exact h.calls _ _ hcall
  · intro m u hnone hstep
    cases hstep with
    | arrive hfind => exact absurd (hnone.symm.trans hfind) nofun
    | discard hfind => rfl

/-- A bus that produces one type of requests. -/
def asking : Bus Unit Unit Unit :=
  { name := none, transport := (), serializer := .json
    producers := [{ messageType := ⟨"Ask"⟩, defaultPath := some "questions" }]
    requestResponse := some {}, publishInterceptors := [], observers := []
    sweeper := { interval := ⟨3000000000⟩ } }

/-- A request of that type. -/
def question : RequestDraft :=
  { token := ⟨0⟩, request := ⟨⟨"Ask"⟩, .any⟩, response := ⟨⟨"Told"⟩, .any⟩, message := .null
    options := {} }

/-- The request is sent, and an error comes back before the transport has answered. -/
def early : List Event :=
  [.call question, .ask 0, .stamp 0, .register 0 ⟨"a"⟩, .arrive ⟨⟨"a"⟩, [], some "no"⟩, .answer 0,
    .clear 0, .produced 0 (.ok ()), .poll 0]

theorem exists_run_early : ∃ (t : Exchange Unit Unit Unit) (q : Request),
    Run Step (Exchange.initial asking true .epoch {}) early t ∧
    t.calls[0]? = some ⟨question, .underway q⟩ ∧
    q.stage = .ended (.error (.requestFaulted "no")) :=
  ⟨_, _, .cons (.call _) <| .cons (.ask rfl) <| .cons (.stamp rfl) <|
    .cons (.register rfl rfl rfl) <| .cons (.arrive rfl) <| .cons (.answer rfl rfl) <|
    .cons (.clear rfl rfl) <| .cons (.produced rfl rfl (.ok ())) <| .cons (.poll rfl rfl) <| .nil _,
    rfl, rfl⟩

/-- A response that arrives early is the one that the sender gets. -/
theorem resolved_once_and_earned_early : ∃ (t : Exchange Unit Unit Unit) (e : PendingRequest)
    (q : Request), Run HonestStep (Exchange.initial asking true .epoch {}) early t ∧
    (t.resolutions.map (·.slot)).Nodup ∧ t.Registered 0 question e q ∧
    q.stage = .ended (.error (.requestFaulted "no")) ∧
    t.Earned question e (.error (.requestFaulted "no")) := by
  obtain ⟨t, q, hrun, hcall, hresult⟩ := exists_run_early
  have hhonest : Run HonestStep (Exchange.initial asking true .epoch {}) early t :=
    honest_of_run hrun fun n => by simp [early]
  obtain ⟨⟨honce, -⟩, hearned, -, -⟩ := resolved_once_and_earned hhonest
  obtain ⟨e, hregistered, he⟩ := hearned 0 question q _ hcall hresult
  exact ⟨t, e, q, hhonest, honce, hregistered, hresult, he⟩

end Exchange
end Courier
