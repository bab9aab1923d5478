import Courier.Proofs.Pending.Undisturbed
import Courier.Proofs.Requests.Store
import Courier.Proofs.Run

/-!
# Exchanges

An exchange is a bus with its pending store and everybody who works on it at the same time: any
number of senders, the responses that arrive, and sweeps.  A response finds its request, resolves
its slot and removes it; a sweep reads the clock, finds what is due, gives up one request after the
other and removes them at the end; a sender whose token is cancelled resolves its own slot, removes
its request and takes the outcome.  Each of them takes its steps in between those of the others, and
a response may arrive while its request is still on its way through the transport.

Steps use the functions of the bus and of the store, cut where another party may come in between.
An exchange remembers what happened to its store: `registered` has the request of every slot,
`resolutions` every resolution that won, and `inspections` what sweeps saw of the requests that they
were about to give up.

Main statements: `wellFormed_of_run` (the store is always as sweeps expect it), and
`exists_run_onResponse`, `exists_run_poll` and `exists_run_clean` (a response, a sender and a sweep
that nobody disturbs do what `Bus.onResponse`, `Request.poll` and `Sweep.clean` do).
-/

namespace Courier

namespace Call

/-- How far the sending of a request has come. -/
inductive Stage
  /-- Nothing has been checked. -/
  | called
  /-- The bus takes requests. -/
  | admitted (settings : RequestResponseSettings)
  /-- The clock has been read. -/
  | stamped (settings : RequestResponseSettings) (created : Instant)
  /-- The request is registered, and it may have ended. -/
  | underway (request : Request)
  /-- The sender has resolved the slot itself, for its token is cancelled. -/
  | resigned (request : Request)
  /-- And it has removed the request. -/
  | withdrawn (request : Request)
  /-- The request was never registered. -/
  | refused (cause : Failure)

end Call

/-- The sending of a request. -/
structure Call where
  draft : RequestDraft
  stage : Call.Stage := .called

/-- A response on its way in. -/
structure Response where
  id : RequestId
  payload : Bytes
  error : Option String := none

namespace Reply

/-- How far a response has come. -/
inductive Stage
  | found
  | resolved
  | cleared

end Reply

/-- A response that found its request. -/
structure Reply where
  response : Response
  entry : PendingRequest
  stage : Reply.Stage := .found

namespace Sweeping

/-- How far a sweep has come. -/
inductive Stage
  /-- It has read the clock. -/
  | reading
  /-- It has found the requests that are due, and has dealt with some, last one first. -/
  | visiting (remaining : List PendingRequest) (processed : List RequestId)
  /-- It is about to give up a request. -/
  | striking (reason : CancelReason) (entry : PendingRequest) (remaining : List PendingRequest)
      (processed : List RequestId)
  | ended

end Sweeping

/-- A sweep under way. -/
structure Sweeping where
  now : Instant
  stage : Sweeping.Stage := .reading

/-- Who resolves a slot. -/
inductive Resolver
  | response (m : Response)
  /-- A sweep that began at this time. -/
  | sweep (now : Instant)
  | sender

/-- A resolution that won. -/
structure Resolution where
  slot : SlotIndex
  outcome : Outcome
  resolver : Resolver

/-- What a sweep that began at `now` saw of a request before it gave it up. -/
structure Inspection where
  now : Instant
  slot : SlotIndex
  isCancelled : Bool
  isResolved : Bool

/-- The request of a slot, and the number of its call. -/
structure Registration where
  call : Nat
  entry : PendingRequest

/-- A bus at work on its requests. -/
structure Exchange (τ ι κ : Type) where
  bus : Bus τ ι κ
  /-- Whether the transport carries headers. -/
  nativeHeaders : Bool
  clock : Instant
  tokens : Tokens := {}
  store : PendingStore := {}
  calls : List Call := []
  replies : List Reply := []
  sweeps : List Sweeping := []
  /-- The request of every slot. -/
  registered : List Registration := []
  /-- The resolutions that won, oldest first. -/
  resolutions : List Resolution := []
  /-- What sweeps saw, oldest first. -/
  inspections : List Inspection := []

namespace Exchange

variable {τ ι κ : Type}

/-- What can happen in an exchange. -/
inductive Event
  /-- The clock shows a time. -/
  | clock (now : Instant)
  /-- Somebody cancels a token. -/
  | cancel (token : Token)
  /-- The bus is about to be disposed. -/
  | dispose
  /-- The bus has been disposed. -/
  | disposed
  /-- A request is to be sent. -/
  | call (draft : RequestDraft)
  /-- A call asks whether the bus takes requests. -/
  | ask (n : Nat)
  /-- A call reads the clock. -/
  | stamp (n : Nat)
  /-- A call registers its request under an id. -/
  | register (n : Nat) (id : RequestId)
  /-- The transport answers a call. -/
  | produced (n : Nat) (result : Except Failure Unit)
  /-- A call looks at its slot. -/
  | poll (n : Nat)
  /-- A call sees that its token is cancelled, and resolves its slot. -/
  | resign (n : Nat)
  /-- It removes its request. -/
  | withdraw (n : Nat)
  /-- And it takes the outcome. -/
  | collect (n : Nat)
  /-- A response arrives and looks for its request. -/
  | arrive (m : Response)
  /-- A response that found its request resolves the slot. -/
  | answer (i : Nat)
  /-- It removes the request. -/
  | clear (i : Nat)
  /-- A sweep begins. -/
  | sweep
  /-- A sweep finds what is due. -/
  | gather (k : Nat)
  /-- A sweep looks at the token of the next request. -/
  | inspect (k : Nat)
  /-- It gives up the request. -/
  | strike (k : Nat)
  /-- A sweep removes what it has dealt with. -/
  | finish (k : Nat)

/-! ## Steps -/

/-- The call at number `n` has come to a stage. -/
def withCall (s : Exchange τ ι κ) (n : Nat) (d : RequestDraft) (stage : Call.Stage) :
    Exchange τ ι κ :=
  { s with calls := s.calls.set n { draft := d, stage } }

/-- The reply at number `i` has come to a stage. -/
def withReply (s : Exchange τ ι κ) (i : Nat) (r : Reply) (stage : Reply.Stage) :
    Exchange τ ι κ :=
  { s with replies := s.replies.set i { r with stage } }

/-- The sweep at number `k` has come to a stage. -/
def withSweep (s : Exchange τ ι κ) (k : Nat) (now : Instant) (stage : Sweeping.Stage) :
    Exchange τ ι κ :=
  { s with sweeps := s.sweeps.set k { now, stage } }

/-- Somebody resolves a slot; it is remembered if this outcome wins. -/
def resolve (s : Exchange τ ι κ) (i : SlotIndex) (o : Outcome) (resolver : Resolver) :
    Exchange τ ι κ :=
  { s with
    store := (s.store.resolve i o).1
    resolutions :=
      if (s.store.resolve i o).2 then s.resolutions ++ [⟨i, o, resolver⟩] else s.resolutions }

/-- The stage of a call that asked whether the bus takes requests. -/
def admission (s : Exchange τ ι κ) (d : RequestDraft) : Call.Stage :=
  match s.bus.admitRequest (s.tokens.isCancelled d.token) with
  | .ok settings => .admitted settings
  | .error cause => .refused cause

/-- What a sweep that began at `now` reads. -/
def setting (s : Exchange τ ι κ) (now : Instant) : Sweep.Setting :=
  { now, isCancelled := s.tokens.isCancelled, owner := [], told := false }

/-- A sweep that began at `now` has looked at the token of a request. -/
def afterInspection (s : Exchange τ ι κ) (k : Nat) (now : Instant) (e : PendingRequest)
    (remaining : List PendingRequest) (processed : List RequestId) : Exchange τ ι κ :=
  { s.withSweep k now (.striking (Sweep.reason (s.setting now) e) e remaining processed) with
    inspections := s.inspections ++
      [⟨now, e.slot, s.tokens.isCancelled e.token, (s.store.slot e.slot).isResolved⟩] }

/-- One step of an exchange. -/
inductive Step : Exchange τ ι κ → Event → Exchange τ ι κ → Prop
  | clock {s : Exchange τ ι κ} (now : Instant) : Step s (.clock now) { s with clock := now }
  | cancel {s : Exchange τ ι κ} (token : Token) :
      Step s (.cancel token) { s with tokens := s.tokens.cancel token }
  | dispose {s : Exchange τ ι κ} {b : Bus τ ι κ} {change : Change κ}
      (hbegin : s.bus.beginDisposal = some (b, change)) : Step s .dispose { s with bus := b }
  | disposed {s : Exchange τ ι κ} : Step s .disposed { s with bus := s.bus.endDisposal }
  | call {s : Exchange τ ι κ} (draft : RequestDraft) :
      Step s (.call draft) { s with calls := s.calls ++ [{ draft }] }
  | ask {s : Exchange τ ι κ} {n : Nat} {d : RequestDraft}
      (hcall : s.calls[n]? = some ⟨d, .called⟩) :
      Step s (.ask n) (s.withCall n d (s.admission d))
  | stamp {s : Exchange τ ι κ} {n : Nat} {d : RequestDraft} {settings : RequestResponseSettings}
      (hcall : s.calls[n]? = some ⟨d, .admitted settings⟩) :
      Step s (.stamp n) (s.withCall n d (.stamped settings s.clock))
  | register {s : Exchange τ ι κ} {n : Nat} {d : RequestDraft} {settings : RequestResponseSettings}
      {created : Instant} {id : RequestId} {store : PendingStore} {q : Request}
      {e : PendingRequest} (hcall : s.calls[n]? = some ⟨d, .stamped settings created⟩)
      (hopen : s.bus.openRequest s.nativeHeaders settings s.store id created d = .ok (store, q))
      (hentry : store.find? id = some e) :
      Step s (.register n id)
        { s.withCall n d (.underway q) with store, registered := s.registered ++ [⟨n, e⟩] }
  | refuse {s : Exchange τ ι κ} {n : Nat} {d : RequestDraft} {settings : RequestResponseSettings}
      {created : Instant} {id : RequestId} {cause : Failure}
      (hcall : s.calls[n]? = some ⟨d, .stamped settings created⟩)
      (hopen : s.bus.openRequest s.nativeHeaders settings s.store id created d = .error cause) :
      Step s (.register n id) (s.withCall n d (.refused cause))
  | produced {s : Exchange τ ι κ} {n : Nat} {d : RequestDraft} {q : Request}
      {message : TransportMessage} (hcall : s.calls[n]? = some ⟨d, .underway q⟩)
      (hstage : q.stage = .producing message) (result : Except Failure Unit) :
      Step s (.produced n result)
        { s.withCall n d (.underway (q.produced s.store message result).2) with
          store := (q.produced s.store message result).1 }
  | poll {s : Exchange τ ι κ} {n : Nat} {d : RequestDraft} {q : Request}
      (hcall : s.calls[n]? = some ⟨d, .underway q⟩) (hstage : q.stage = .waiting) :
      Step s (.poll n)
        { s.withCall n d (.underway (q.poll s.store false).2) with
          store := (q.poll s.store false).1 }
  | resign {s : Exchange τ ι κ} {n : Nat} {d : RequestDraft} {q : Request}
      (hcall : s.calls[n]? = some ⟨d, .underway q⟩) (hstage : q.stage = .waiting)
      (hcancelled : s.tokens.isCancelled q.token = true) :
      Step s (.resign n)
        ((s.resolve q.slot (.cancelled .cancelled) .sender).withCall n d (.resigned q))
  | withdraw {s : Exchange τ ι κ} {n : Nat} {d : RequestDraft} {q : Request}
      (hcall : s.calls[n]? = some ⟨d, .resigned q⟩) :
      Step s (.withdraw n)
        { s.withCall n d (.withdrawn q) with store := s.store.remove q.id }
  | collect {s : Exchange τ ι κ} {n : Nat} {d : RequestDraft} {q : Request}
      (hcall : s.calls[n]? = some ⟨d, .withdrawn q⟩) :
      Step s (.collect n)
        { s.withCall n d (.underway
            { q with stage := .ended (q.resultOf (s.store.receive q.slot).2) }) with
          store := (s.store.receive q.slot).1 }
  | arrive {s : Exchange τ ι κ} {m : Response} {e : PendingRequest}
      (hfind : s.store.find? m.id = some e) :
      Step s (.arrive m) { s with replies := s.replies ++ [{ response := m, entry := e }] }
  | discard {s : Exchange τ ι κ} {m : Response} (hfind : s.store.find? m.id = none) :
      Step s (.arrive m) s
  | answer {s : Exchange τ ι κ} {i : Nat} {r : Reply} (hreply : s.replies[i]? = some r)
      (hstage : r.stage = .found) :
      Step s (.answer i)
        ((s.resolve r.entry.slot
          (s.bus.outcomeOf r.entry.responseType r.response.payload r.response.error)
          (.response r.response)).withReply i r .resolved)
  | clear {s : Exchange τ ι κ} {i : Nat} {r : Reply} (hreply : s.replies[i]? = some r)
      (hstage : r.stage = .resolved) :
      Step s (.clear i)
        { s.withReply i r .cleared with store := s.store.remove r.response.id }
  | sweep {s : Exchange τ ι κ} :
      Step s .sweep { s with sweeps := s.sweeps ++ [{ now := s.clock }] }
  | gather {s : Exchange τ ι κ} {k : Nat} {now : Instant}
      (hsweep : s.sweeps[k]? = some ⟨now, .reading⟩) :
      Step s (.gather k)
        (s.withSweep k now (.visiting (s.store.due s.tokens.isCancelled now) []))
  | inspect {s : Exchange τ ι κ} {k : Nat} {now : Instant} {e : PendingRequest}
      {remaining : List PendingRequest} {processed : List RequestId}
      (hsweep : s.sweeps[k]? = some ⟨now, .visiting (e :: remaining) processed⟩) :
      Step s (.inspect k) (s.afterInspection k now e remaining processed)
  | strike {s : Exchange τ ι κ} {k : Nat} {now : Instant} {reason : CancelReason}
      {e : PendingRequest} {remaining : List PendingRequest} {processed : List RequestId}
      (hsweep : s.sweeps[k]? = some ⟨now, .striking reason e remaining processed⟩) :
      Step s (.strike k)
        ((s.resolve e.slot (.cancelled reason) (.sweep now)).withSweep k now
          (.visiting remaining (e.id :: processed)))
  | finish {s : Exchange τ ι κ} {k : Nat} {now : Instant} {processed : List RequestId}
      (hsweep : s.sweeps[k]? = some ⟨now, .visiting [] processed⟩) :
      Step s (.finish k)
        { s.withSweep k now .ended with store := s.store.removeAll processed.reverse }

/-- An exchange in which nothing was sent. -/
def initial (bus : Bus τ ι κ) (nativeHeaders : Bool) (clock : Instant) (tokens : Tokens) :
    Exchange τ ι κ :=
  { bus, nativeHeaders, clock, tokens }

/-! ## The store -/

theorem wellFormed_openRequest {b : Bus τ ι κ} {nativeHeaders : Bool}
    {settings : RequestResponseSettings} {store u : PendingStore} {id : RequestId} {now : Instant}
    {d : RequestDraft} {q : Request} (h : store.WellFormed)
    (hopen : b.openRequest nativeHeaders settings store id now d = .ok (u, q)) : u.WellFormed := by
  obtain ⟨p, path, value, payload, -, -, -, hfree, rfl, -⟩ := Bus.openRequest_cases hopen
  let e := Bus.entryOf settings p store id now d value
  have hfind : store.newSlot.1.find? e.id = none := hfree
  have hadd : store.newSlot.1.add e =
      .ok { entries := store.entries ++ [e], slots := store.slots ++ [{}] } := by
    rw [PendingStore.add, hfind]
    rfl
  exact h.add rfl hadd

/-- Every step leaves a store in which no two entries share an id or a slot. -/
theorem Step.wellFormed {s u : Exchange τ ι κ} {ev : Event} (h : s.store.WellFormed)
    (hstep : Step s ev u) : u.store.WellFormed := by
  cases hstep with
  | register hcall hopen hentry => exact wellFormed_openRequest h hopen
  | @produced n d q message hcall hstage result =>
    cases result with
    | ok _ => exact h
    | error cause => exact h.remove q.id
  | poll hcall hstage =>
    rw [Request.poll_store]
    exact h.setSlot _ _
  | resign hcall hstage hcancelled => exact h.setSlot _ _
  | withdraw hcall => exact h.remove _
  | collect hcall => exact h.setSlot _ _
  | answer hreply hstage => exact h.setSlot _ _
  | clear hreply hstage => exact h.remove _
  | strike hsweep => exact h.setSlot _ _
  | finish hsweep => exact h.removeAll _
  | _ => exact h

/-- A sweep finds a well-formed store at any time. -/
theorem wellFormed_of_run {bus : Bus τ ι κ} {nativeHeaders : Bool} {clock : Instant}
    {tokens : Tokens} {es : List Event} {t : Exchange τ ι κ}
    (hrun : Run Step (initial bus nativeHeaders clock tokens) es t) : t.store.WellFormed :=
  hrun.invariant (fun s => s.store.WellFormed) PendingStore.wellFormed_empty
    fun _ _ _ h hstep => hstep.wellFormed h

/-! ## Parties that nobody disturbs -/

variable {s : Exchange τ ι κ} {n k : Nat} {d : RequestDraft} {q : Request}

/-- Without anybody in between, a response does to the store what `Bus.onResponse` does. -/
theorem exists_run_onResponse (s : Exchange τ ι κ) (m : Response) : ∃ es t,
    Run Step s (.arrive m :: es) t ∧
    t.store = s.bus.onResponse s.store m.id m.payload m.error ∧ t.calls = s.calls := by
  cases hfind : s.store.find? m.id with
  | none =>
    refine ⟨[], s, .cons (.discard hfind) (.nil s), ?_, rfl⟩
    rw [Bus.onResponse, hfind]
  | some e =>
    have hlt : s.replies.length < (s.replies ++ [Reply.mk m e .found]).length := by simp
    refine ⟨[.answer s.replies.length, .clear s.replies.length], _,
      .cons (.arrive hfind) (.cons (.answer List.getElem?_concat_length rfl)
        (.cons (.clear (List.getElem?_set_self hlt) rfl) (.nil _))), ?_, rfl⟩
    rw [Bus.onResponse, hfind]
    rfl

/-- Without anybody in between, a waiting sender does to the store what `Request.poll` does, and it
gets the same. -/
theorem exists_run_poll (hcall : s.calls[n]? = some ⟨d, .underway q⟩)
    (hstage : q.stage = .waiting) : ∃ es t,
    Run Step s es t ∧
    t.store = (q.poll s.store (s.tokens.isCancelled q.token)).1 ∧
    t.calls[n]? = some ⟨d, .underway (q.poll s.store (s.tokens.isCancelled q.token)).2⟩ := by
  obtain ⟨hn, -⟩ := List.getElem?_eq_some_iff.mp hcall
  by_cases hleave : (s.store.receive q.slot).2 = .empty ∧ s.tokens.isCancelled q.token = true
  · obtain ⟨hempty, hcancelled⟩ := hleave
    have hset (c : Call) : n < (s.calls.set n c).length := by simpa using hn
    rw [hcancelled, Request.poll_of_empty hempty]
    exact ⟨[.resign n, .withdraw n, .collect n], _,
      .cons (.resign hcall hstage hcancelled)
        (.cons (.withdraw (List.getElem?_set_self hn))
          (.cons (.collect (List.getElem?_set_self (hset _))) (.nil _))),
      rfl, List.getElem?_set_self (by simpa [withCall, resolve] using hn)⟩
  · have hsame : q.poll s.store (s.tokens.isCancelled q.token) = q.poll s.store false := by
      by_cases hempty : (s.store.receive q.slot).2 = .empty
      · rw [Bool.eq_false_iff.mpr fun hcancelled => hleave ⟨hempty, hcancelled⟩]
      · exact Request.poll_of_ne_empty hempty _
    rw [hsame]
    exact ⟨[.poll n], _, .cons (.poll hcall hstage) (.nil _), rfl, List.getElem?_set_self hn⟩

/-- A sweep that has found what is due does to the store what `Sweep.run` does with its frame. -/
theorem exists_run_visiting {now : Instant} {v : Sweep.State} {f : Sweep.Frame} {fuel : Nat}
    (hsweep : s.sweeps[k]? = some ⟨now, .visiting f.remaining f.processed⟩)
    (hstore : v.store = s.store) (hframes : v.frames = [f]) (hreactions : f.reactions = [])
    (hfuel : f.remaining.length < fuel) : ∃ es t,
    Run Step s es t ∧ t.store = (Sweep.run (s.setting now) v fuel).store ∧ t.calls = s.calls := by
  obtain ⟨hk, -⟩ := List.getElem?_eq_some_iff.mp hsweep
  generalize hremaining : f.remaining = remaining at hsweep hfuel
  induction remaining generalizing s v f fuel with
  | nil =>
      obtain ⟨fuel, rfl⟩ := Nat.exists_eq_add_one.mpr hfuel
      refine ⟨[.finish k], _, .cons (.finish hsweep) (.nil _), ?_, rfl⟩
      simp only [Sweep.run, Sweep.step, hframes, hreactions, hremaining]
      rw [Sweep.run_idle rfl]
      simp only [Sweep.close, hstore]
  | cons e rest ih =>
      obtain ⟨fuel, rfl⟩ := Nat.exists_eq_add_one.mpr (Nat.zero_lt_of_lt hfuel)
      have hgo : Sweep.step (s.setting now) v =
          some (Sweep.giveUp (s.setting now) v f e rest []) := by
        simp only [Sweep.step, hframes, hreactions, hremaining]
      let inspected := s.afterInspection k now e rest f.processed
      let struck := (inspected.resolve e.slot (.cancelled (Sweep.reason (s.setting now) e))
        (.sweep now)).withSweep k now (.visiting rest (e.id :: f.processed))
      have hinspected : k < inspected.sweeps.length := by
        simpa [inspected, afterInspection, withSweep] using hk
      have hstruck : k < struck.sweeps.length := by
        simpa [struck, resolve, withSweep] using hinspected
      have hsame : (Sweep.giveUp (s.setting now) v f e rest []).store = struck.store := by
        simp [Sweep.giveUp, hstore, struck, inspected, afterInspection, withSweep, resolve]
      have hframe : (Sweep.giveUp (s.setting now) v f e rest []).frames =
          [{ f with remaining := rest, processed := e.id :: f.processed, reactions := [] }] := by
        simp [Sweep.giveUp, setting]
      have hshorter : rest.length < fuel := by simpa using hfuel
      obtain ⟨es, t, hrun, hfinal, hcalls⟩ :=
        ih (s := struck) hsame hframe rfl hstruck rfl (List.getElem?_set_self hinspected) hshorter
      refine ⟨.inspect k :: .strike k :: es, t,
        .cons (.inspect hsweep) (.cons (.strike (List.getElem?_set_self hk)) hrun), ?_, hcalls⟩
      rw [hfinal, Sweep.run, hgo]
      rfl

/-- Without anybody in between, a sweep does to the store what `Sweep.clean` does for an owner that
is not told. -/
theorem exists_run_clean (s : Exchange τ ι κ) (guard : Sweep.Guard) : ∃ es t,
    Run Step s (.sweep :: es) t ∧
    t.store = (Sweep.clean (s.setting s.clock) guard s.store).store ∧ t.calls = s.calls := by
  let due := s.store.due s.tokens.isCancelled s.clock
  let gathered := ({ s with sweeps := s.sweeps ++ [{ now := s.clock }] } : Exchange τ ι κ).withSweep
    s.sweeps.length s.clock (.visiting due [])
  have hlt : s.sweeps.length < (s.sweeps ++ [Sweeping.mk s.clock .reading]).length := by simp
  have hfuel : due.length < Sweep.fuel (s.setting s.clock) s.store := by
    have hle : due.length ≤ s.store.entries.length := List.length_filter_le ..
    simp only [Sweep.fuel, setting, List.length_nil]
    omega
  obtain ⟨es, t, hrun, hstore, hcalls⟩ := exists_run_visiting (s := gathered)
    (v := Sweep.startUnguarded (s.setting s.clock) false { guard, store := s.store })
    (f := Sweep.frame (s.setting s.clock) false false s.store) (List.getElem?_set_self hlt)
    rfl rfl rfl hfuel
  exact ⟨.gather s.sweeps.length :: es, t,
    .cons .sweep (.cons (.gather List.getElem?_concat_length) hrun), hstore, hcalls⟩

end Exchange
end Courier
