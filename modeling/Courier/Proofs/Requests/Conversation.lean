import Courier.Proofs.Requests.Carriage

/-!
# Conversations over transports of either kind

A conversation is an exchange together with its transport and everybody at the other end.  The
transport takes the messages of requests while their calls wait for it, and it takes the responses
that are made from what responders receive, and messages of others.  It may bring any message any
number of times, in any order, to a responder or back to the bus.  Whoever receives a message finds
headers and payload beside each other, or reads both from an envelope.

The bus may also be given bytes that were never sent as an envelope.

What was put into the transport comes out of it again (`Sound.wrapped`), so a conversation over one
kind of transport takes the same steps over the other kind: `Step.carried`.

Main statement: `same_over_every_transport`.
-/

namespace Courier

/-! ## What is received -/

/-- The response that a received message names, if it names one. -/
def Envelope.response? (e : Envelope) : Option Response :=
  match e.headers.find? requestIdHeader with
  | none => none
  | some text =>
    match RequestId.ofText text with
    | .ok id => some { id, payload := e.payload, error := e.headers.find? errorHeader }
    | .error _ => none

namespace TransportMessage

variable {m : TransportMessage} {native : Bool}

/-- The message is in the form in which the transport carries messages. -/
def IsWrapped (native : Bool) (m : TransportMessage) : Prop :=
  ∃ content : TransportMessage, content.headers.Ordered ∧ m = content.wrap native

/-- Over either transport the same comes out. -/
theorem IsWrapped.opened_rewrap (h : m.IsWrapped native) (native' : Bool) :
    (m.rewrap native native').opened native' = m.opened native := by
  obtain ⟨content, hordered, rfl⟩ := h
  rw [rewrap_wrap native native' hordered, opened_wrap native hordered,
    opened_wrap native' hordered]

/-- What a transport carries can be read. -/
theorem IsWrapped.exists_opened (h : m.IsWrapped native) : ∃ e, m.opened native = .ok e := by
  obtain ⟨content, hordered, rfl⟩ := h
  exact ⟨_, opened_wrap native hordered⟩

end TransportMessage

namespace Bus

variable {τ ι κ : Type} {b : Bus τ ι κ} {m : TransportMessage} {native : Bool}

theorem onResponseMessage_eq (b : Bus τ ι κ) (s : PendingStore) (e : Envelope) :
    b.onResponseMessage s e.payload e.headers =
      match e.response? with
      | some r => b.onResponse s r.id r.payload r.error
      | none => s := by
  unfold onResponseMessage Envelope.response?
  cases e.headers.find? requestIdHeader with
  | none => rfl
  | some text => cases hid : RequestId.ofText text <;> simp only [hid]

/-- A transport has brought a message as a response. -/
def onDelivery (b : Bus τ ι κ) (native : Bool) (s : PendingStore) (m : TransportMessage) :
    Except Failure PendingStore :=
  if native then .ok (b.onResponseMessage s m.payload m.headers)
  else b.onResponseEnvelope s m.payload

theorem onDelivery_eq (b : Bus τ ι κ) (native : Bool) (s : PendingStore) (m : TransportMessage) :
    b.onDelivery native s m =
      match m.opened native with
      | .ok e => .ok (b.onResponseMessage s e.payload e.headers)
      | .error cause => .error (.serialization cause) := by
  cases native with
  | true => rfl
  | false =>
    simp only [onDelivery, onResponseEnvelope, TransportMessage.opened, Bool.false_eq_true,
      if_false]
    cases Envelope.ofBytes m.payload <;> rfl

section Response

variable {headers : Headers} {type : MessageType} {response : Except String Json}

/-- The transport gets the response in the form in which it carries messages. -/
theorem responseTo_eq (native : Bool) (b : Bus τ ι κ) (headers : Headers) (type : MessageType)
    (response : Except String Json) :
    b.responseTo native headers type response =
      (b.responseTo true headers type response).map (·.wrap native) := by
  simp only [responseTo, bind, Except.bind, pure, Except.pure, throw, throwThe,
    MonadExceptOf.throw]
  split
  · rfl
  split
  · rfl
  split
  · rfl
  split
  · rfl
  · split <;> rfl

theorem ordered_responseTo (h : b.responseTo true headers type response = .ok m) :
    m.headers.Ordered := by
  have hid (text : String) : Dictionary.Ordered (Dictionary.insert requestIdHeader text []) :=
    Dictionary.ordered_nil.insert _ _
  simp only [responseTo, bind, Except.bind, pure, Except.pure, throw, throwThe,
    MonadExceptOf.throw] at h
  split at h
  · exact absurd h nofun
  split at h
  · exact absurd h nofun
  next text _ =>
  split at h
  · exact absurd h nofun
  split at h
  · next message =>
    obtain rfl := Except.ok.inj h
    exact (hid text).insert errorHeader message
  · split at h
    · exact absurd h nofun
    · obtain rfl := Except.ok.inj h
      exact hid text

theorem isWrapped_responseTo (h : b.responseTo native headers type response = .ok m) :
    m.IsWrapped native := by
  rw [responseTo_eq] at h
  cases hcontent : b.responseTo true headers type response with
  | error cause =>
    rw [hcontent] at h
    cases h
  | ok content =>
    rw [hcontent] at h
    exact ⟨content, ordered_responseTo hcontent, (Except.ok.inj h).symm⟩

/-- A response is made alike over every transport. -/
theorem responseTo_rewrap (b : Bus τ ι κ) (native native' : Bool) (headers : Headers)
    (type : MessageType) (response : Except String Json) :
    b.responseTo native' headers type response =
      (b.responseTo native headers type response).map (·.rewrap native native') := by
  rw [responseTo_eq native, responseTo_eq native']
  cases hcontent : b.responseTo true headers type response with
  | error cause => rfl
  | ok content =>
    have hsame := TransportMessage.rewrap_wrap native native' (ordered_responseTo hcontent)
    exact congrArg Except.ok hsame.symm

end Response

end Bus

namespace Parcel

/-- Where a message comes from. -/
inductive Origin
  /-- It carries the request of the call at this number. -/
  | request (n : Nat)
  /-- It answers what was received as the parcel at this number. -/
  | response (k : Nat)
  | elsewhere

end Parcel

/-- A message that a transport has taken. -/
structure Parcel where
  message : TransportMessage
  origin : Parcel.Origin

namespace Parcel

/-- What the receiver of a parcel sees. -/
structure View where
  type : MessageType
  path : String
  content : Except SerializationFailure Envelope
  origin : Origin

def view (native : Bool) (p : Parcel) : View :=
  { type := p.message.messageType, path := p.message.path
    content := p.message.opened native, origin := p.origin }

/-- The parcel over another transport. -/
def rewrap (native native' : Bool) (p : Parcel) : Parcel :=
  { p with message := p.message.rewrap native native' }

theorem view_rewrap {native : Bool} {p : Parcel} (h : p.message.IsWrapped native)
    (native' : Bool) : (p.rewrap native native').view native' = p.view native := by
  simp only [view, rewrap, TransportMessage.messageType_rewrap, TransportMessage.path_rewrap,
    h.opened_rewrap]

end Parcel

/-! ## Conversations -/

/-- An exchange and what its transport has taken, oldest first. -/
structure Conversation (τ ι κ : Type) where
  exchange : Exchange τ ι κ
  wire : List Parcel := []

/-- Events of an exchange in which nothing is sent and nothing arrives. -/
def Exchange.Event.isInner : Exchange.Event → Bool
  | .call _ | .arrive _ => false
  | _ => true

namespace Conversation

variable {τ ι κ : Type}

/-- What can happen in a conversation. -/
inductive Event (τ ι κ : Type)
  /-- A request is to be sent. -/
  | call (draft : RequestDraft) (hordered : draft.options.headers.Ordered)
  /-- The exchange goes on. -/
  | act (ev : Exchange.Event)
  /-- The transport takes the request of a call. -/
  | take (n : Nat)
  /-- The transport takes a message of somebody else. -/
  | post (m : TransportMessage) (hordered : m.headers.Ordered)
  /-- A bus receives a parcel and makes a response to it. -/
  | respond (k : Nat) (responder : Bus τ ι κ) (type : MessageType) (response : Except String Json)
      (failure : Option Failure)
  /-- A parcel arrives as a response. -/
  | deliver (k : Nat) (failure : Option Failure)
  /-- Bytes arrive as a response in an envelope. -/
  | envelope (bytes : Bytes) (failure : Option Failure)

/-- The transport has taken a message. -/
def put (s : Conversation τ ι κ) (m : TransportMessage) (origin : Parcel.Origin) :
    Conversation τ ι κ :=
  { s with wire := s.wire ++ [{ message := m, origin }] }

/-- What becomes of what was read from a response, and how this fails. -/
inductive Heard (s : Conversation τ ι κ) :
    Except SerializationFailure Envelope → Option Failure → Conversation τ ι κ → Prop
  | arrived {e : Envelope} {r : Response} {u : Exchange τ ι κ} (hresponse : e.response? = some r)
      (hstep : Exchange.Step s.exchange (.arrive r) u) :
      Heard s (.ok e) none { s with exchange := u }
  | nameless {e : Envelope} (hresponse : e.response? = none) : Heard s (.ok e) none s
  | refused {cause : SerializationFailure} :
      Heard s (.error cause) (some (.serialization cause)) s

/-- One step of a conversation. -/
inductive Step : Conversation τ ι κ → Event τ ι κ → Conversation τ ι κ → Prop
  | call {s : Conversation τ ι κ} {draft : RequestDraft}
      {hordered : draft.options.headers.Ordered} {u : Exchange τ ι κ}
      (hstep : Exchange.Step s.exchange (.call draft) u) :
      Step s (.call draft hordered) { s with exchange := u }
  | act {s : Conversation τ ι κ} {ev : Exchange.Event} {u : Exchange τ ι κ}
      (hinner : ev.isInner = true) (hstep : Exchange.Step s.exchange ev u) :
      Step s (.act ev) { s with exchange := u }
  | take {s : Conversation τ ι κ} {n : Nat} {m : TransportMessage}
      (hproducing : s.exchange.Producing n m) : Step s (.take n) (s.put m (.request n))
  | post {s : Conversation τ ι κ} {m : TransportMessage} {hordered : m.headers.Ordered} :
      Step s (.post m hordered) (s.put (m.wrap s.exchange.nativeHeaders) .elsewhere)
  | respond {s : Conversation τ ι κ} {k : Nat} {responder : Bus τ ι κ} {type : MessageType}
      {response : Except String Json} {p : Parcel} {e : Envelope} {m : TransportMessage}
      (hparcel : s.wire[k]? = some p)
      (hopen : p.message.opened s.exchange.nativeHeaders = .ok e)
      (hmake : responder.responseTo s.exchange.nativeHeaders e.headers type response = .ok m) :
      Step s (.respond k responder type response none) (s.put m (.response k))
  | decline {s : Conversation τ ι κ} {k : Nat} {responder : Bus τ ι κ} {type : MessageType}
      {response : Except String Json} {p : Parcel} {e : Envelope} {cause : Failure}
      (hparcel : s.wire[k]? = some p)
      (hopen : p.message.opened s.exchange.nativeHeaders = .ok e)
      (hmake : responder.responseTo s.exchange.nativeHeaders e.headers type response =
        .error cause) :
      Step s (.respond k responder type response (some cause)) s
  | deliver {s t : Conversation τ ι κ} {k : Nat} {p : Parcel} {failure : Option Failure}
      (hparcel : s.wire[k]? = some p)
      (hheard : s.Heard (p.message.opened s.exchange.nativeHeaders) failure t) :
      Step s (.deliver k failure) t
  | envelope {s t : Conversation τ ι κ} {bytes : Bytes} {failure : Option Failure}
      (hheard : s.Heard (Envelope.ofBytes bytes) failure t) :
      Step s (.envelope bytes failure) t

/-- A conversation in which nothing was sent. -/
def initial (bus : Bus τ ι κ) (native : Bool) (clock : Instant) (tokens : Tokens) :
    Conversation τ ι κ :=
  { exchange := .initial bus native clock tokens }

/-- The conversation over another transport. -/
def carried (native' : Bool) (s : Conversation τ ι κ) : Conversation τ ι κ where
  exchange := s.exchange.carried native'
  wire := s.wire.map (·.rewrap s.exchange.nativeHeaders native')

variable {s t : Conversation τ ι κ} {u : Exchange τ ι κ} {ev : Event τ ι κ}
variable {es : List (Event τ ι κ)} {m : TransportMessage} {origin : Parcel.Origin} {failure : Option Failure}
variable {read : Except SerializationFailure Envelope}

/-! ## What decides a step -/

theorem Heard.unique {t' : Conversation τ ι κ} (hheard : s.Heard read failure t)
    (hheard' : s.Heard read failure t') : t = t' := by
  cases hheard with
  | arrived hresponse hstep =>
    cases hheard' with
    | arrived hresponse' hstep' =>
      obtain rfl := Option.some.inj (hresponse.symm.trans hresponse')
      rw [hstep.unique hstep']
    | nameless hresponse' => cases hresponse.symm.trans hresponse'
  | nameless hresponse =>
    cases hheard' with
    | arrived hresponse' hstep' => cases hresponse'.symm.trans hresponse
    | nameless hresponse' => rfl
  | refused =>
    cases hheard'
    rfl

theorem Step.unique {t' : Conversation τ ι κ} (hstep : Step s ev t) (hstep' : Step s ev t') :
    t = t' := by
  cases hstep with
  | call hnext =>
    cases hstep' with
    | call hnext' => rw [hnext.unique hnext']
  | act hinner hnext =>
    cases hstep' with
    | act hinner' hnext' => rw [hnext.unique hnext']
  | take hproducing =>
    cases hstep' with
    | take hproducing' => rw [hproducing.unique hproducing']
  | post =>
    cases hstep'
    rfl
  | respond hparcel hopen hmake =>
    cases hstep' with
    | respond hparcel' hopen' hmake' =>
      obtain rfl := Option.some.inj (hparcel.symm.trans hparcel')
      obtain rfl := Except.ok.inj (hopen.symm.trans hopen')
      rw [Except.ok.inj (hmake.symm.trans hmake')]
  | decline hparcel hopen hmake =>
    cases hstep' with
    | decline hparcel' hopen' hmake' => rfl
  | deliver hparcel hheard =>
    cases hstep' with
    | deliver hparcel' hheard' =>
      obtain rfl := Option.some.inj (hparcel.symm.trans hparcel')
      exact hheard.unique hheard'
  | envelope hheard =>
    cases hstep' with
    | envelope hheard' => exact hheard.unique hheard'

/-! ## Responses that nobody disturbs -/

theorem run_act {evs : List Exchange.Event} (hrun : Run Exchange.Step s.exchange evs u)
    (hinner : ∀ ev ∈ evs, ev.isInner = true) :
    Run Step s (evs.map .act) { s with exchange := u } := by
  generalize hfirst : s.exchange = first at hrun
  induction hrun generalizing s with
  | nil first =>
    subst hfirst
    exact .nil s
  | @cons first middle last ev evs head tail ih =>
    subst hfirst
    have hhead : ev.isInner = true := hinner ev List.mem_cons_self
    have htail : ∀ ev ∈ evs, ev.isInner = true :=
      fun ev hev => hinner ev (List.mem_cons_of_mem _ hev)
    exact .cons (.act hhead head) (ih (s := { s with exchange := middle }) htail rfl)

/-- Without anybody in between, what was read from a response does to the store what the bus does
with it. -/
theorem exists_run_heard (s : Conversation τ ι κ) (e : Envelope) : ∃ t, s.Heard (.ok e) none t ∧
    ∃ es last, Run Step t es last ∧ last.exchange.store =
      s.exchange.bus.onResponseMessage s.exchange.store e.payload e.headers := by
  rw [Bus.onResponseMessage_eq]
  cases hresponse : e.response? with
  | none => exact ⟨s, .nameless hresponse, [], s, .nil s, rfl⟩
  | some r =>
    cases hfind : s.exchange.store.find? r.id with
    | none =>
      refine ⟨s, .arrived hresponse (.discard hfind), [], s, .nil s, ?_⟩
      simp only [Bus.onResponse, hfind]
    | some entry =>
      let arrived : Exchange τ ι κ :=
        { s.exchange with replies := s.exchange.replies ++ [{ response := r, entry }] }
      let i := s.exchange.replies.length
      have hlt : i < arrived.replies.length := by simp [arrived, i]
      have hrun : Run Exchange.Step arrived [.answer i, .clear i] _ :=
        .cons (.answer List.getElem?_concat_length rfl)
          (.cons (.clear (List.getElem?_set_self hlt) rfl) (.nil _))
      refine ⟨_, .arrived hresponse (.arrive hfind), _, _,
        run_act (s := { s with exchange := arrived }) hrun ?_, ?_⟩
      · intro ev hev
        rcases List.mem_pair.mp hev with rfl | rfl <;> rfl
      · simp only [Bus.onResponse, hfind]
        rfl

/-- Without anybody in between, a parcel that arrives as a response does to the store what the bus
does with what its transport brings. -/
theorem exists_run_deliver {k : Nat} {p : Parcel} {store : PendingStore}
    (hparcel : s.wire[k]? = some p)
    (hdelivery : s.exchange.bus.onDelivery s.exchange.nativeHeaders s.exchange.store p.message =
      .ok store) :
    ∃ es last, Run Step s (.deliver k none :: es) last ∧ last.exchange.store = store := by
  rw [Bus.onDelivery_eq] at hdelivery
  cases hopen : p.message.opened s.exchange.nativeHeaders with
  | error cause =>
    rw [hopen] at hdelivery
    cases hdelivery
  | ok e =>
    rw [hopen] at hdelivery
    obtain ⟨t, hheard, es, last, hrun, hstore⟩ := s.exists_run_heard e
    exact ⟨es, last, .cons (.deliver hparcel (hopen ▸ hheard)) hrun,
      hstore.trans (Except.ok.inj hdelivery)⟩

/-! ## What comes out of the transport -/

/-- What a transport has taken can be read, and requests are in it as they were sent. -/
structure Sound (s : Conversation τ ι κ) : Prop where
  correlated : s.exchange.Correlated
  ordered : ∀ d ∈ s.exchange.drafts, d.options.headers.Ordered
  producing : ∀ n m, s.exchange.Producing n m → s.exchange.Carries n m
  wrapped : ∀ p ∈ s.wire, p.message.IsWrapped s.exchange.nativeHeaders
  requests : ∀ p ∈ s.wire, ∀ n, p.origin = .request n → s.exchange.Carries n p.message

theorem Sound.initial (bus : Bus τ ι κ) (native : Bool) (clock : Instant) (tokens : Tokens) :
    Sound (initial bus native clock tokens) where
  correlated := .initial bus native clock tokens
  ordered := nofun
  producing n m := by
    rintro ⟨d, q, hcall, -⟩
    cases hcall
  wrapped := nofun
  requests := nofun

/-- The message of a request is in the form in which the transport carries messages. -/
theorem Sound.isWrapped {n : Nat} (h : Sound s) (hcarries : s.exchange.Carries n m) :
    m.IsWrapped s.exchange.nativeHeaders := by
  obtain ⟨d, e, settings, content, hdraft, -, -, hcomposes, hm⟩ := hcarries
  have hd := h.ordered d (List.mem_of_getElem? hdraft)
  refine ⟨content, ?_, hm⟩
  rw [hcomposes.headers]
  exact Bus.ordered_requestHeaders hd settings e.id e.expires

/-- The exchange goes on. -/
theorem Sound.exchange {ev : Exchange.Event} (h : Sound s) (hstep : Exchange.Step s.exchange ev u)
    (hdraft : ∀ d, ev.draft? = some d → d.options.headers.Ordered) :
    Sound { s with exchange := u } where
  correlated := h.correlated.step hstep
  ordered := by
    intro d hd
    rw [hstep.drafts] at hd
    rcases List.mem_append.mp hd with hd | hd
    · exact h.ordered d hd
    · exact hdraft d (by simpa using hd)
  producing n m hproducing := by
    rcases hstep.producing h.correlated hproducing with hold | hnew
    · exact (h.producing n m hold).step hstep
    · exact hnew
  wrapped p hp := by
    rw [hstep.sameWays.nativeHeaders]
    exact h.wrapped p hp
  requests p hp n hn := (h.requests p hp n hn).step hstep

/-- The transport has taken a message. -/
theorem Sound.put (h : Sound s) (hwrapped : m.IsWrapped s.exchange.nativeHeaders)
    (hrequest : ∀ n, origin = .request n → s.exchange.Carries n m) : Sound (s.put m origin) :=
  { h with
    wrapped := List.forall_mem_append.mpr ⟨h.wrapped, List.forall_mem_singleton.mpr hwrapped⟩
    requests := List.forall_mem_append.mpr ⟨h.requests, List.forall_mem_singleton.mpr hrequest⟩ }

theorem Sound.heard (h : Sound s) (hheard : s.Heard read failure t) : Sound t := by
  cases hheard with
  | arrived hresponse hstep => exact h.exchange hstep nofun
  | nameless hresponse => exact h
  | refused => exact h

/-- **Whatever happens, what was put into the transport comes out of it again.** -/
theorem Sound.step (h : Sound s) (hstep : Step s ev t) : Sound t := by
  cases hstep with
  | @call draft hordered u hstep =>
    refine h.exchange hstep fun d hd => ?_
    obtain rfl := Option.some.inj hd
    exact hordered
  | @act ev u hinner hstep =>
    refine h.exchange hstep fun d hd => ?_
    cases ev with
    | call draft => cases hinner
    | _ => cases hd
  | @take n m hproducing =>
    have hcarries := h.producing n m hproducing
    refine h.put (h.isWrapped hcarries) fun k hk => ?_
    obtain rfl := Parcel.Origin.request.inj hk
    exact hcarries
  | @post m hordered => exact h.put ⟨m, hordered, rfl⟩ nofun
  | respond hparcel hopen hmake => exact h.put (Bus.isWrapped_responseTo hmake) nofun
  | decline hparcel hopen hmake => exact h
  | deliver hparcel hheard => exact h.heard hheard
  | envelope hheard => exact h.heard hheard

/-! ## The same conversation over another transport -/

theorem carried_put (native' : Bool) (s : Conversation τ ι κ) (m : TransportMessage)
    (origin : Parcel.Origin) :
    (s.put m origin).carried native' =
      (s.carried native').put (m.rewrap s.exchange.nativeHeaders native') origin := by
  simp only [carried, put, List.map_append, List.map_cons, List.map_nil, Parcel.rewrap]

theorem Sound.carried_exchange {ev : Exchange.Event} (native' : Bool) (h : Sound s)
    (hstep : Exchange.Step s.exchange ev u) :
    Exchange.Step (s.carried native').exchange ev (u.carried native') ∧
      carried native' { s with exchange := u } =
        { s.carried native' with exchange := u.carried native' } := by
  refine ⟨hstep.carried native' h.ordered, ?_⟩
  simp only [carried, hstep.sameWays.nativeHeaders]

theorem Sound.carried_heard (native' : Bool) (h : Sound s) (hheard : s.Heard read failure t) :
    (s.carried native').Heard read failure (t.carried native') := by
  cases hheard with
  | arrived hresponse hstep =>
    obtain ⟨hnext, hsame⟩ := h.carried_exchange native' hstep
    rw [hsame]
    exact .arrived hresponse hnext
  | nameless hresponse => exact .nameless hresponse
  | refused => exact .refused

/-- A parcel has the same content over the other transport. -/
theorem Sound.carried_parcel {k : Nat} {p : Parcel} (native' : Bool) (h : Sound s)
    (hparcel : s.wire[k]? = some p) :
    (s.carried native').wire[k]? = some (p.rewrap s.exchange.nativeHeaders native') ∧
      (p.rewrap s.exchange.nativeHeaders native').message.opened native' =
        p.message.opened s.exchange.nativeHeaders := by
  have hwrapped := h.wrapped p (List.mem_of_getElem? hparcel)
  exact ⟨by simp [carried, hparcel], hwrapped.opened_rewrap native'⟩

/-- **A conversation takes the same steps over every transport.** -/
theorem Step.carried (native' : Bool) (h : Sound s) (hstep : Step s ev t) :
    Step (s.carried native') ev (t.carried native') := by
  cases hstep with
  | call hstep =>
    obtain ⟨hnext, hsame⟩ := h.carried_exchange native' hstep
    rw [hsame]
    exact .call hnext
  | act hinner hstep =>
    obtain ⟨hnext, hsame⟩ := h.carried_exchange native' hstep
    rw [hsame]
    exact .act hinner hnext
  | @take n m hproducing =>
    obtain ⟨d, q, hcall, hstage⟩ := hproducing
    have hproducing' : (s.carried native').exchange.Producing n
        (m.rewrap s.exchange.nativeHeaders native') := by
      refine ⟨d, _, Exchange.getElem?_carried native' hcall, ?_⟩
      rw [Request.rewrap, hstage]
      rfl
    rw [carried_put]
    exact .take hproducing'
  | @post m hordered =>
    rw [carried_put, TransportMessage.rewrap_wrap _ native' hordered]
    exact .post
  | @respond k responder type response p e m hparcel hopen hmake =>
    obtain ⟨hparcel', hopen'⟩ := h.carried_parcel native' hparcel
    have hmake' := responder.responseTo_rewrap s.exchange.nativeHeaders native' e.headers type
      response
    rw [hmake] at hmake'
    rw [carried_put]
    exact .respond hparcel' (hopen'.trans hopen) hmake'
  | @decline k responder type response p e cause hparcel hopen hmake =>
    obtain ⟨hparcel', hopen'⟩ := h.carried_parcel native' hparcel
    have hmake' := responder.responseTo_rewrap s.exchange.nativeHeaders native' e.headers type
      response
    rw [hmake] at hmake'
    exact .decline hparcel' (hopen'.trans hopen) hmake'
  | deliver hparcel hheard =>
    obtain ⟨hparcel', hopen'⟩ := h.carried_parcel native' hparcel
    have hheard' := h.carried_heard native' hheard
    rw [← hopen'] at hheard'
    exact .deliver hparcel' hheard'
  | envelope hheard => exact .envelope (h.carried_heard native' hheard)

/-! ## Runs -/

/-- What a responder sees of a request: the request as the bus writes it, and the headers of the
caller, with those that belong to the bus in place of the caller's own. -/
structure SeesRequest (b : Bus τ ι κ) (settings : RequestResponseSettings) (d : RequestDraft)
    (r : PendingRequest) (e : Envelope) : Prop where
  id : e.headers.find? requestIdHeader = some r.id.text
  expires : e.headers.find? expiresHeader = some r.expires.headerText
  replyTo : e.headers.find? replyToHeader = some settings.path
  others : ∀ key, key ≠ requestIdHeader → key ≠ expiresHeader → key ≠ replyToHeader →
    e.headers.find? key = d.options.headers.find? key
  payload : ∃ value, d.request.write d.message = .ok value ∧
    b.serializer.serialize value d.request.type = .ok e.payload

theorem seesRequest_of_composes {b : Bus τ ι κ} {settings : RequestResponseSettings}
    {d : RequestDraft} {r : PendingRequest} (h : b.Composes settings d r m) :
    SeesRequest b settings d r ⟨m.headers, m.payload⟩ where
  id := by
    have hexpires : requestIdHeader ≠ expiresHeader := by decide
    have hreply : requestIdHeader ≠ replyToHeader := by decide
    rw [h.headers, Bus.requestHeaders, Dictionary.find?_insert_of_ne _ _ hreply,
      Dictionary.find?_insert_of_ne _ _ hexpires, Dictionary.find?_insert_self]
  expires := by
    have hreply : expiresHeader ≠ replyToHeader := by decide
    rw [h.headers, Bus.requestHeaders, Dictionary.find?_insert_of_ne _ _ hreply,
      Dictionary.find?_insert_self]
  replyTo := by rw [h.headers, Bus.requestHeaders, Dictionary.find?_insert_self]
  others key hid hexpires hreply := by
    rw [h.headers, Bus.requestHeaders, Dictionary.find?_insert_of_ne _ _ hreply,
      Dictionary.find?_insert_of_ne _ _ hexpires, Dictionary.find?_insert_of_ne _ _ hid]
  payload := h.payload

theorem Sound.seesRequest {p : Parcel} {n : Nat} (h : Sound s) (hp : p ∈ s.wire)
    (hn : p.origin = .request n) :
    ∃ d r settings e, s.exchange.drafts[n]? = some d ∧ s.exchange.Owns n r ∧
      s.exchange.bus.requestResponse = some settings ∧
      p.message.opened s.exchange.nativeHeaders = .ok e ∧
      SeesRequest s.exchange.bus settings d r e := by
  obtain ⟨d, r, settings, content, hdraft, howns, hsettings, hcomposes, hm⟩ := h.requests p hp n hn
  have hd := h.ordered d (List.mem_of_getElem? hdraft)
  have hordered : content.headers.Ordered := by
    rw [hcomposes.headers]
    exact Bus.ordered_requestHeaders hd settings r.id r.expires
  refine ⟨d, r, settings, _, hdraft, howns, hsettings, ?_, seesRequest_of_composes hcomposes⟩
  rw [hm]
  exact TransportMessage.opened_wrap _ hordered

/-- A run over one transport is one over the other as well. -/
theorem Sound.carried_run (native' : Bool) (h : Sound s) (hrun : Run Step s es t) :
    Sound t ∧ Run Step (s.carried native') es (t.carried native') := by
  induction hrun with
  | nil s => exact ⟨h, .nil _⟩
  | cons head tail ih =>
    obtain ⟨hlast, hrest⟩ := ih (h.step head)
    exact ⟨hlast, .cons (head.carried native' h) hrest⟩

theorem Step.nativeHeaders (hstep : Step s ev t) :
    t.exchange.nativeHeaders = s.exchange.nativeHeaders := by
  have hheard {read : Except SerializationFailure Envelope} {failure : Option Failure}
      (hheard : s.Heard read failure t) :
      t.exchange.nativeHeaders = s.exchange.nativeHeaders := by
    cases hheard with
    | arrived hresponse hnext => exact hnext.sameWays.nativeHeaders
    | _ => rfl
  cases hstep with
  | call hnext => exact hnext.sameWays.nativeHeaders
  | act hinner hnext => exact hnext.sameWays.nativeHeaders
  | deliver hparcel h => exact hheard h
  | envelope h => exact hheard h
  | _ => rfl

variable {bus : Bus τ ι κ} {native : Bool} {clock : Instant} {tokens : Tokens}

/-- **Every conversation is the same over every transport.**  Whatever happens over a transport that
carries headers can happen over one that does not, and the other way round.  It then ends in one
state, with the same store, the same results for all senders and the same contents for all
receivers; and each response does the same to every store.  All that was sent can be read.  A
request is seen with the headers of the bus in place of those of its caller.  Bytes that are no
envelope fail and change nothing. -/
theorem same_over_every_transport (hrun : Run Step (initial bus native clock tokens) es s)
    (native' : Bool) :
    (∃ t, Run Step (initial bus native' clock tokens) es t ∧
      (∀ t', Run Step (initial bus native' clock tokens) es t' → t' = t) ∧
      t.exchange.store = s.exchange.store ∧
      (∀ n, t.exchange.result? n = s.exchange.result? n) ∧
      t.wire.map (·.view native') = s.wire.map (·.view native) ∧
      ∀ (k : Nat) p p', s.wire[k]? = some p → t.wire[k]? = some p' →
        ∀ store, bus.onDelivery native' store p'.message =
          bus.onDelivery native store p.message) ∧
    (∀ p ∈ s.wire, ∃ e, p.message.opened native = .ok e) ∧
    (∀ p ∈ s.wire, ∀ n, p.origin = .request n →
      ∃ d r settings e, s.exchange.drafts[n]? = some d ∧ s.exchange.Owns n r ∧
        s.exchange.bus.requestResponse = some settings ∧ p.message.opened native = .ok e ∧
        SeesRequest s.exchange.bus settings d r e) ∧
    ∀ bytes cause, Envelope.ofBytes bytes = .error cause →
      (∀ store, bus.onResponseEnvelope store bytes = .error (.serialization cause)) ∧
      ∀ failure t, Step s (.envelope bytes failure) t →
        failure = some (.serialization cause) ∧ t = s := by
  obtain ⟨hsound, hover⟩ := (Sound.initial bus native clock tokens).carried_run native' hrun
  have hnative : s.exchange.nativeHeaders = native :=
    hrun.invariant (·.exchange.nativeHeaders = native) rfl
      fun _ _ _ h hstep => hstep.nativeHeaders.trans h
  subst hnative
  refine ⟨⟨s.carried native', hover, ?_, rfl, ?_, ?_, ?_⟩, ?_, ?_, ?_⟩
  · intro t' hother
    exact hother.unique (fun _ _ _ _ h h' => h.unique h') hover
  · exact s.exchange.result?_carried native'
  · rw [carried, List.map_map]
    exact List.map_congr_left fun p hp => Parcel.view_rewrap (hsound.wrapped p hp) native'
  · intro k p p' hp hp' store
    obtain ⟨hparcel, hopen⟩ := hsound.carried_parcel native' hp
    obtain rfl := Option.some.inj (hparcel.symm.trans hp')
    rw [Bus.onDelivery_eq, Bus.onDelivery_eq, hopen]
  · exact fun p hp => (hsound.wrapped p hp).exists_opened
  · exact fun p hp n hn => hsound.seesRequest hp hn
  · intro bytes cause hbytes
    refine ⟨fun store => by rw [Bus.onResponseEnvelope, hbytes], fun failure t hstep => ?_⟩
    cases hstep with
    | envelope hheard =>
      rw [hbytes] at hheard
      cases hheard
      exact ⟨rfl, rfl⟩

/-- A request whose caller sets an id of its own beside a header for the responder. -/
def titled : RequestDraft :=
  { Exchange.question with options := { headers := [("RequestId", "mine"), ("Title", "Dr")] } }

theorem ordered_titled : titled.options.headers.Ordered := by decide

/-- The request is answered by an error without a text, which arrives before the transport has said
that it took the request. -/
def answered : List (Event Unit Unit Unit) :=
  [.call titled ordered_titled, .act (.ask 0), .act (.stamp 0), .act (.register 0 ⟨"a"⟩), .take 0,
    .respond 0 Exchange.asking ⟨"Told"⟩ (.error "") none, .deliver 1 none, .act (.answer 0),
    .act (.clear 0), .act (.produced 0 (.ok ())), .act (.poll 0)]

theorem exists_run_answered : ∃ (s : Conversation Unit Unit Unit) (p : Parcel),
    Run Step (initial Exchange.asking true .epoch {}) answered s ∧
    s.exchange.result? 0 = some (.error (.requestFaulted "")) ∧ s.exchange.store.entries = [] ∧
    p ∈ s.wire ∧ p.origin = .request 0 ∧ s.exchange.drafts[0]? = some titled :=
  ⟨_, _, .cons (.call (.call _)) <| .cons (.act rfl (.ask rfl)) <| .cons (.act rfl (.stamp rfl)) <|
    .cons (.act rfl (.register rfl rfl rfl)) <| .cons (.take ⟨_, _, rfl, rfl⟩) <|
    .cons (.respond rfl rfl rfl) <| .cons (.deliver rfl (.arrived rfl (.arrive rfl))) <|
    .cons (.act rfl (.answer rfl rfl)) <| .cons (.act rfl (.clear rfl rfl)) <|
    .cons (.act rfl (.produced rfl rfl (.ok ()))) <| .cons (.act rfl (.poll rfl rfl)) <| .nil _,
    rfl, rfl, List.mem_cons_self, rfl, rfl⟩

/-- Over a transport without headers the sender gets the same error, and the responder has seen the
header of the caller. -/
theorem same_over_every_transport_answered : ∃ (s t : Conversation Unit Unit Unit) (p : Parcel)
    (e : Envelope),
    Run Step (initial Exchange.asking true .epoch {}) answered s ∧
    Run Step (initial Exchange.asking false .epoch {}) answered t ∧
    t.exchange.store = s.exchange.store ∧ t.exchange.store.entries = [] ∧
    t.exchange.result? 0 = some (.error (.requestFaulted "")) ∧
    t.wire.map (·.view false) = s.wire.map (·.view true) ∧
    p ∈ s.wire ∧ p.message.opened true = .ok e ∧ e.headers.find? "Title" = some "Dr" := by
  obtain ⟨s, p, hrun, hresult, hempty, hp, horigin, hdraft⟩ := exists_run_answered
  obtain ⟨⟨t, hover, -, hstore, hresults, hviews, -⟩, -, hseen, -⟩ :=
    same_over_every_transport hrun false
  obtain ⟨d, r, settings, e, hd, -, -, hopen, hsees⟩ := hseen p hp 0 horigin
  obtain rfl := Option.some.inj (hdraft.symm.trans hd)
  have htitle := hsees.others "Title" (by decide) (by decide) (by decide)
  refine ⟨s, t, p, e, hrun, hover, hstore, ?_, ?_, hviews, hp, hopen, htitle.trans (by decide)⟩
  · rw [hstore, hempty]
  · rw [hresults, hresult]

end Conversation
end Courier
