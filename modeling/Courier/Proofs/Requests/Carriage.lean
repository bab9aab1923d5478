import Courier.Proofs.Messages.Sealing
import Courier.Proofs.Requests.Lifetime

/-!
# Exchanges over another transport

The transport of an exchange matters to the messages that are on their way to it, and to nothing
else: the exchange over another transport (`carried`) has these messages in the form which that
transport carries, and takes the same steps.  Nobody looks into a message on its way; if the
transport fails, the failure names its path and its type, which both forms have.

A call waits for its transport with one message, and that message holds its request (`Carries`).

Main statements: `Step.carried` and `Step.producing`.
-/

namespace Courier

namespace Request

/-- The stage over another transport. -/
def Stage.rewrap (native native' : Bool) : Stage → Stage
  | .producing m => .producing (m.rewrap native native')
  | .waiting => .waiting
  | .ended result => .ended result

/-- The request over another transport. -/
def rewrap (native native' : Bool) (q : Request) : Request :=
  { q with stage := q.stage.rewrap native native' }

variable {q : Request} {native native' : Bool}

/-- A request that does not wait for the transport is the same over every one. -/
theorem rewrap_of_ne (h : ∀ m, q.stage ≠ .producing m) : q.rewrap native native' = q := by
  obtain ⟨id, slot, token, response, stage⟩ := q
  cases stage with
  | producing m => exact absurd rfl (h m)
  | _ => rfl

theorem rewrap_of_waiting (h : q.stage = .waiting) : q.rewrap native native' = q := by
  apply rewrap_of_ne
  intro m hproducing
  cases h.symm.trans hproducing

/-- The answer of either transport comes to the same. -/
theorem produced_rewrap (q : Request) (s : PendingStore) (m : TransportMessage)
    (result : Except Failure Unit) :
    (q.rewrap native native').produced s (m.rewrap native native') result =
      ((q.produced s m result).1, (q.produced s m result).2.rewrap native native') := by
  cases result with
  | ok _ => rfl
  | error cause =>
    simp only [produced, TransportMessage.reported_rewrap]
    rfl

/-- Who looks at the slot does not wait for the transport again. -/
theorem poll_stage_ne {s : PendingStore} (h : q.stage = .waiting) (m : TransportMessage) :
    (q.poll s false).2.stage ≠ .producing m := by
  obtain ⟨u, received, hreceived⟩ : ∃ u received, s.receive q.slot = (u, received) := ⟨_, _, rfl⟩
  simp only [poll, hreceived]
  cases received with
  | empty =>
    intro hproducing
    cases h.symm.trans hproducing
  | _ =>
    intro hproducing
    cases hproducing

theorem rewrap_poll (h : q.stage = .waiting) (s : PendingStore) :
    (q.poll s false).2.rewrap native native' = (q.poll s false).2 :=
  rewrap_of_ne (poll_stage_ne h)

end Request

namespace Call

/-- The stage over another transport. -/
def Stage.rewrap (native native' : Bool) : Stage → Stage
  | .underway q => .underway (q.rewrap native native')
  | .resigned q => .resigned (q.rewrap native native')
  | .withdrawn q => .withdrawn (q.rewrap native native')
  | stage => stage

/-- The call over another transport. -/
def rewrap (native native' : Bool) (c : Call) : Call :=
  { c with stage := c.stage.rewrap native native' }

/-- What has become of a call, if it has ended. -/
def result? (c : Call) : Option (Except Failure Json) :=
  match c.stage with
  | .underway q =>
    match q.stage with
    | .ended result => some result
    | .producing _ | .waiting => none
  | .refused cause => some (.error cause)
  | .called | .admitted _ | .stamped .. | .resigned _ | .withdrawn _ => none

theorem result?_rewrap (native native' : Bool) (c : Call) :
    (c.rewrap native native').result? = c.result? := by
  obtain ⟨d, stage⟩ := c
  cases stage with
  | underway q =>
    obtain ⟨id, slot, token, response, stage⟩ := q
    cases stage <;> rfl
  | _ => rfl

end Call

namespace Bus

variable {τ ι κ : Type} {b : Bus τ ι κ} {settings : RequestResponseSettings} {s u : PendingStore}
variable {id : RequestId} {now : Instant} {d : RequestDraft} {e : PendingRequest} {q : Request}
variable {m : TransportMessage} {native : Bool}

theorem ordered_requestHeaders {headers : Headers} (h : headers.Ordered)
    (settings : RequestResponseSettings) (id : RequestId) (expires : Instant) :
    (requestHeaders settings headers id expires).Ordered :=
  ((h.insert _ _).insert _ _).insert _ _

/-- A request is opened alike over every transport. -/
theorem openRequest_rewrap (native native' : Bool) (h : d.options.headers.Ordered) :
    b.openRequest native' settings s id now d =
      (b.openRequest native settings s id now d).map fun p =>
        (p.1, p.2.rewrap native native') := by
  simp only [openRequest, bind, Except.bind, pure, Except.pure, throw, throwThe,
    MonadExceptOf.throw]
  split
  · rfl
  split
  · rfl
  split
  · rfl
  split
  · rfl
  · have hordered := ordered_requestHeaders h settings id
    simp only [Except.map, Request.rewrap, Request.Stage.rewrap]
    rw [TransportMessage.rewrap_wrap native native' (hordered _)]

/-- The message holds the request: the headers of the caller with those of the bus over them, and
the request as the bus writes it. -/
structure Composes (b : Bus τ ι κ) (settings : RequestResponseSettings) (d : RequestDraft)
    (e : PendingRequest) (m : TransportMessage) : Prop where
  headers : m.headers = requestHeaders settings d.options.headers e.id e.expires
  payload : ∃ value, d.request.write d.message = .ok value ∧
    b.serializer.serialize value d.request.type = .ok m.payload

/-- What goes to the transport holds the request. -/
theorem openRequest_composes (h : b.openRequest native settings s id now d = .ok (u, q))
    (hfind : u.find? id = some e) (hstage : q.stage = .producing m) :
    ∃ content, b.Composes settings d e content ∧ m = content.wrap native := by
  obtain ⟨p, path, value, payload, -, hvalue, hpayload, hfree, rfl, rfl⟩ := openRequest_cases h
  obtain rfl := Option.some.inj ((PendingStore.find?_append hfree).symm.trans hfind)
  obtain rfl := Request.Stage.producing.inj hstage
  exact ⟨_, ⟨rfl, value, hvalue, hpayload⟩, rfl⟩

end Bus

namespace Exchange

variable {τ ι κ : Type} {s u : Exchange τ ι κ} {n : Nat} {d : RequestDraft} {stage : Call.Stage}
variable {ev : Event} {m : TransportMessage}

/-! ## What the calls have to send -/

def drafts (s : Exchange τ ι κ) : List RequestDraft := s.calls.map (·.draft)

/-- The request that somebody sends in this step. -/
def Event.draft? : Event → Option RequestDraft
  | .call d => some d
  | _ => none

theorem getElem?_drafts (hcall : s.calls[n]? = some ⟨d, stage⟩) : s.drafts[n]? = some d := by
  simp [drafts, hcall]

theorem drafts_withCall (hcall : s.calls[n]? = some ⟨d, stage⟩) (stage' : Call.Stage) :
    (s.withCall n d stage').drafts = s.drafts := by
  obtain ⟨hn, hd⟩ := List.getElem?_eq_some_iff.mp (getElem?_drafts hcall)
  rw [drafts, withCall, List.map_set, ← hd]
  exact List.set_getElem_self hn

/-- A call keeps what it has to send. -/
theorem Step.drafts (hstep : Step s ev u) : u.drafts = s.drafts ++ ev.draft?.toList := by
  have hkept {k : Nat} {d : RequestDraft} {stage : Call.Stage}
      (hcall : s.calls[k]? = some ⟨d, stage⟩) (stage' : Call.Stage) :
      (s.withCall k d stage').drafts = s.drafts ++ [] := by
    rw [drafts_withCall hcall, List.append_nil]
  cases hstep with
  | call draft => simp [Exchange.drafts, Event.draft?]
  | ask hcall => exact hkept hcall _
  | stamp hcall => exact hkept hcall _
  | register hcall hopen hentry => exact hkept hcall _
  | refuse hcall hopen => exact hkept hcall _
  | produced hcall hstage result => exact hkept hcall _
  | poll hcall hstage => exact hkept hcall _
  | resign hcall hstage hcancelled => exact hkept hcall _
  | withdraw hcall => exact hkept hcall _
  | collect hcall => exact hkept hcall _
  | _ => exact (List.append_nil _).symm

/-- What a step finds decides what it does. -/
theorem Step.unique {u' : Exchange τ ι κ} (hstep : Step s ev u) (hstep' : Step s ev u') :
    u = u' := by
  -- Two steps at one event find the same call, reply or sweep at the same stage.
  cases hstep <;> cases hstep' <;> grind

/-! ## The same exchange over another transport -/

/-- The exchange over another transport. -/
def carried (native' : Bool) (s : Exchange τ ι κ) : Exchange τ ι κ :=
  { s with
    nativeHeaders := native'
    calls := s.calls.map (Call.rewrap s.nativeHeaders native') }

theorem getElem?_carried (native' : Bool) (hcall : s.calls[n]? = some ⟨d, stage⟩) :
    (s.carried native').calls[n]? = some ⟨d, stage.rewrap s.nativeHeaders native'⟩ := by
  simp [carried, hcall, Call.rewrap]

/-- What the sender at number `n` has got, if its call has ended. -/
def result? (s : Exchange τ ι κ) (n : Nat) : Option (Except Failure Json) :=
  s.calls[n]?.bind Call.result?

theorem result?_carried (native' : Bool) (s : Exchange τ ι κ) (n : Nat) :
    (s.carried native').result? n = s.result? n := by
  simp only [result?, carried, List.getElem?_map]
  cases s.calls[n]? with
  | none => rfl
  | some c => exact c.result?_rewrap s.nativeHeaders native'

theorem rewrap_admission (native native' : Bool) (s : Exchange τ ι κ) (d : RequestDraft) :
    (s.admission d).rewrap native native' = s.admission d := by
  unfold admission
  split <;> rfl

theorem map_rewrap_set (native native' : Bool) (cs : List Call) (n : Nat) (d : RequestDraft)
    (stage : Call.Stage) :
    (cs.set n ⟨d, stage⟩).map (Call.rewrap native native') =
      (cs.map (Call.rewrap native native')).set n ⟨d, stage.rewrap native native'⟩ := by
  rw [List.map_set]
  rfl

/-- **An exchange takes the same steps over every transport.** -/
theorem Step.carried (native' : Bool) (hordered : ∀ d ∈ s.drafts, d.options.headers.Ordered)
    (hstep : Step s ev u) : Step (s.carried native') ev (u.carried native') := by
  cases hstep with
  | clock now => exact .clock now
  | cancel token => exact .cancel token
  | dispose hbegin => exact .dispose hbegin
  | disposed => exact .disposed
  | call draft =>
    have hnext := Step.call (s := s.carried native') draft
    simpa [Exchange.carried, Call.rewrap, Call.Stage.rewrap] using hnext
  | @ask n d hcall =>
    have hnext := Step.ask (getElem?_carried native' hcall)
    simp only [Exchange.carried, withCall, map_rewrap_set, rewrap_admission]
    exact hnext
  | @stamp n d settings hcall =>
    have hnext := Step.stamp (getElem?_carried native' hcall)
    simp only [Exchange.carried, withCall, map_rewrap_set]
    exact hnext
  | @register n d settings created id store q e hcall hopen hentry =>
    have hd := hordered d (List.mem_of_getElem? (getElem?_drafts hcall))
    have hopened : s.bus.openRequest native' settings s.store id created d =
        .ok (store, q.rewrap s.nativeHeaders native') := by
      rw [Bus.openRequest_rewrap s.nativeHeaders native' hd, hopen]
      rfl
    have hcall' := getElem?_carried native' hcall
    have hnext := Step.register (s := s.carried native') hcall' hopened hentry
    simp only [Exchange.carried, withCall, map_rewrap_set]
    exact hnext
  | @refuse n d settings created id cause hcall hopen =>
    have hd := hordered d (List.mem_of_getElem? (getElem?_drafts hcall))
    have hrefused : s.bus.openRequest native' settings s.store id created d = .error cause := by
      rw [Bus.openRequest_rewrap s.nativeHeaders native' hd, hopen]
      rfl
    have hnext := Step.refuse (s := s.carried native') (getElem?_carried native' hcall) hrefused
    simp only [Exchange.carried, withCall, map_rewrap_set]
    exact hnext
  | @produced n d q message hcall hstage result =>
    have hproducing : (q.rewrap s.nativeHeaders native').stage =
        .producing (message.rewrap s.nativeHeaders native') := by
      rw [Request.rewrap, hstage]
      rfl
    have hnext := Step.produced (getElem?_carried native' hcall) hproducing result
    have hsame :
        (q.rewrap s.nativeHeaders native').produced (s.carried native').store _ result = _ :=
      q.produced_rewrap s.store message result
    rw [hsame] at hnext
    simp only [Exchange.carried, withCall, map_rewrap_set]
    exact hnext
  | @poll n d q hcall hstage =>
    have hcall' := getElem?_carried native' hcall
    have hwaiting : q.rewrap s.nativeHeaders native' = q := Request.rewrap_of_waiting hstage
    simp only [Call.Stage.rewrap, hwaiting] at hcall'
    have hnext := Step.poll hcall' hstage
    simp only [Exchange.carried, withCall, map_rewrap_set, Call.Stage.rewrap,
      Request.rewrap_poll hstage]
    exact hnext
  | @resign n d q hcall hstage hcancelled =>
    have hcall' := getElem?_carried native' hcall
    have hwaiting : q.rewrap s.nativeHeaders native' = q := Request.rewrap_of_waiting hstage
    simp only [Call.Stage.rewrap, hwaiting] at hcall'
    have hnext := Step.resign hcall' hstage hcancelled
    simp only [Exchange.carried, withCall, resolve, map_rewrap_set, Call.Stage.rewrap, hwaiting]
    exact hnext
  | @withdraw n d q hcall =>
    have hnext := Step.withdraw (getElem?_carried native' hcall)
    simp only [Exchange.carried, withCall, map_rewrap_set]
    exact hnext
  | @collect n d q hcall =>
    have hnext := Step.collect (getElem?_carried native' hcall)
    simp only [Exchange.carried, withCall, map_rewrap_set]
    exact hnext
  | arrive hfind => exact .arrive hfind
  | discard hfind => exact .discard hfind
  | answer hreply hstage => exact .answer (s := s.carried native') hreply hstage
  | clear hreply hstage => exact .clear (s := s.carried native') hreply hstage
  | sweep => exact .sweep
  | gather hsweep => exact .gather (s := s.carried native') hsweep
  | inspect hsweep => exact .inspect (s := s.carried native') hsweep
  | strike hsweep => exact .strike (s := s.carried native') hsweep
  | finish hsweep => exact .finish (s := s.carried native') hsweep

/-! ## The messages of requests -/

/-- The transport gets the request of call `n` in this message. -/
def Carries (s : Exchange τ ι κ) (n : Nat) (m : TransportMessage) : Prop :=
  ∃ d e settings content, s.drafts[n]? = some d ∧ s.Owns n e ∧
    s.bus.requestResponse = some settings ∧ s.bus.Composes settings d e content ∧
    m = content.wrap s.nativeHeaders

/-- Neither the transport nor how a bus works changes. -/
structure SameWays (s u : Exchange τ ι κ) : Prop where
  nativeHeaders : u.nativeHeaders = s.nativeHeaders
  serializer : u.bus.serializer = s.bus.serializer
  requestResponse : u.bus.requestResponse = s.bus.requestResponse

theorem Step.sameWays (hstep : Step s ev u) : SameWays s u := by
  cases hstep with
  | dispose hbegin =>
    obtain ⟨hserializer, hsettings, -⟩ := Bus.beginDisposal_some hbegin
    exact ⟨rfl, hserializer, hsettings⟩
  | _ => exact ⟨rfl, rfl, rfl⟩

theorem Carries.step (h : s.Carries n m) (hstep : Step s ev u) : u.Carries n m := by
  obtain ⟨d, e, settings, content, hdraft, howns, hsettings, hcomposes, hm⟩ := h
  have hways := hstep.sameWays
  refine ⟨d, e, settings, content, ?_, ?_, hways.requestResponse.trans hsettings, ?_, ?_⟩
  · obtain ⟨hn, -⟩ := List.getElem?_eq_some_iff.mp hdraft
    rw [hstep.drafts, List.getElem?_append_left hn, hdraft]
  · obtain ⟨rest, hrest⟩ := hstep.registered
    obtain ⟨hlt, -⟩ := List.getElem?_eq_some_iff.mp howns
    rw [Owns, ← hrest, List.getElem?_append_left hlt]
    exact howns
  · exact ⟨hcomposes.headers, hways.serializer ▸ hcomposes.payload⟩
  · rw [hways.nativeHeaders, hm]

/-- Call `n` waits for the transport to take this message. -/
def Producing (s : Exchange τ ι κ) (n : Nat) (m : TransportMessage) : Prop :=
  ∃ d q, s.calls[n]? = some ⟨d, .underway q⟩ ∧ q.stage = .producing m

theorem Producing.unique {m' : TransportMessage} (h : s.Producing n m) (h' : s.Producing n m') :
    m = m' := by
  obtain ⟨d, q, hcall, hstage⟩ := h
  obtain ⟨d', q', hcall', hstage'⟩ := h'
  obtain ⟨rfl, hq⟩ := Call.mk.inj (Option.some.inj (hcall.symm.trans hcall'))
  obtain rfl := Call.Stage.underway.inj hq
  exact Request.Stage.producing.inj (hstage.symm.trans hstage')

/-- A call that comes to a stage without a message waits for no transport. -/
theorem Producing.of_withCall {k : Nat} {stage : Call.Stage}
    (h : (s.withCall k d stage).Producing n m)
    (hstage : ∀ q, stage = .underway q → ∀ message, q.stage ≠ .producing message) :
    s.Producing n m := by
  obtain ⟨d', q, hcall, hproducing⟩ := h
  simp only [withCall, List.getElem?_set] at hcall
  split at hcall
  · split at hcall
    · obtain ⟨rfl, rfl⟩ := Call.mk.inj (Option.some.inj hcall)
      exact absurd hproducing (hstage q rfl m)
    · cases hcall
  · exact ⟨d', q, hcall, hproducing⟩

/-- A call waits for the transport because it did so before, or because it has just registered its
request. -/
theorem Step.producing (h : Correlated s) (hstep : Step s ev u) (hproducing : u.Producing n m) :
    s.Producing n m ∨ u.Carries n m := by
  cases hstep with
  | call draft =>
    obtain ⟨d, q, hcall, hstage⟩ := hproducing
    rcases getElem?_or_eq_of_concat hcall with hold | hnew
    · exact .inl ⟨d, q, hold, hstage⟩
    · cases hnew
  | ask hcall =>
    refine .inl (hproducing.of_withCall fun q hq => ?_)
    unfold admission at hq
    split at hq <;> cases hq
  | stamp hcall => exact .inl (hproducing.of_withCall nofun)
  | @register k d settings created id store q e hcall hopen hentry =>
    obtain ⟨d', q', hcall', hstage⟩ := hproducing
    by_cases hk : k = n
    · subst hk
      obtain ⟨hn, -⟩ := List.getElem?_eq_some_iff.mp hcall
      obtain ⟨rfl, hq⟩ := Call.mk.inj (Option.some.inj
        ((List.getElem?_set_self hn).symm.trans hcall'))
      obtain rfl := Call.Stage.underway.inj hq
      have hsettings : s.SoundCall k d (.stamped settings created) := h.calls _ _ hcall
      obtain ⟨content, hcomposes, hm⟩ := Bus.openRequest_composes hopen hentry hstage
      obtain ⟨e', m', rfl, hfind, -, hslot, -⟩ := Bus.openRequest_ok hopen
      obtain rfl := Option.some.inj (hfind.symm.trans hentry)
      have hdraft := getElem?_drafts hcall
      rw [← drafts_withCall hcall (.underway q)] at hdraft
      exact .inr ⟨d, e', settings, content, hdraft, h.owns_enroll k hslot, hsettings, hcomposes, hm⟩
    · exact .inl ⟨d', q', (List.getElem?_set_ne hk).symm.trans hcall', hstage⟩
  | refuse hcall hopen => exact .inl (hproducing.of_withCall nofun)
  | @produced k d q message hcall hstage result =>
    have hold : (s.withCall k d (.underway (q.produced s.store message result).2)).Producing n m :=
      hproducing
    refine .inl (hold.of_withCall fun q' hq => ?_)
    obtain rfl := Call.Stage.underway.inj hq
    cases result <;> exact nofun
  | @poll k d q hcall hstage =>
    have hold : (s.withCall k d (.underway (q.poll s.store false).2)).Producing n m := hproducing
    refine .inl (hold.of_withCall fun q' hq => ?_)
    obtain rfl := Call.Stage.underway.inj hq
    exact Request.poll_stage_ne hstage
  | resign hcall hstage hcancelled => exact .inl (Producing.of_withCall (s := s) hproducing nofun)
  | withdraw hcall => exact .inl (Producing.of_withCall (s := s) hproducing nofun)
  | collect hcall =>
    refine .inl (Producing.of_withCall (s := s) hproducing fun q' hq => ?_)
    obtain rfl := Call.Stage.underway.inj hq
    exact nofun
  | _ => exact .inl hproducing

end Exchange

end Courier
