import Courier.Proofs.Requests.Exchange

/-!
# Agreement with the past

What is under way in an exchange agrees with what it remembers: entries, replies and sweeps refer to
registered requests, every outcome comes from a resolution that was justified at its time, and what
a call has got is earned.  `Correlated` says so, and that no slot was resolved twice.

What is remembered only grows (`Extends`), and what agrees with the past agrees with a longer one:
`Agrees.mono`.
-/

namespace Courier

namespace Exchange

variable {τ ι κ : Type} {s t u : Exchange τ ι κ} {n i : Nat} {d : RequestDraft}
variable {e : PendingRequest} {q : Request} {o : Outcome} {m : Response}

/-! ## What a call may get -/

/-- Call `n` has registered this request, and the slot of the request is its own. -/
def Owns (s : Exchange τ ι κ) (n : Nat) (e : PendingRequest) : Prop :=
  s.registered[e.slot]? = some ⟨n, e⟩

/-- Some call has registered this request. -/
def Knows (s : Exchange τ ι κ) (e : PendingRequest) : Prop := ∃ n, s.Owns n e

/-- A response with the id of this request has resolved its slot. -/
def AnsweredBy (s : Exchange τ ι κ) (e : PendingRequest) (m : Response) : Prop :=
  m.id = e.id ∧ ∃ r ∈ s.resolutions, r.slot = e.slot ∧ r.resolver = .response m

/-- A sweep that began at `now`, when this request had expired, saw it neither cancelled nor
resolved. -/
def SawExpired (s : Exchange τ ι κ) (e : PendingRequest) (now : Instant) : Prop :=
  e.expires ≤ now ∧ ⟨now, e.slot, false, false⟩ ∈ s.inspections

/-- What the sender of a registered request may get. -/
def Earned (s : Exchange τ ι κ) (d : RequestDraft) (e : PendingRequest) :
    Except Failure Json → Prop
  | .ok message => ∃ m value, s.AnsweredBy e m ∧ m.error = none ∧
      s.bus.serializer.deserialize d.response.type m.payload = .ok value ∧
      d.response.read value = .ok message
  | .error (.serialization cause) => ∃ m, s.AnsweredBy e m ∧ m.error = none ∧
      (s.bus.serializer.deserialize d.response.type m.payload = .error cause ∨
        ∃ value, s.bus.serializer.deserialize d.response.type m.payload = .ok value ∧
          d.response.read value = .error cause)
  | .error (.requestFaulted text) => ∃ m, s.AnsweredBy e m ∧ m.error = some text
  | .error (.requestTimeout id) => id = e.id.text ∧ ∃ now, s.SawExpired e now
  | .error .cancelled => s.tokens.isCancelled d.token = true
  -- A failure to produce is the transport's own.
  | .error (.produceFailed ..) => True
  | .error _ => False

/-- Why a request may be refused before it is registered. -/
def MayRefuse (s : Exchange τ ι κ) (d : RequestDraft) : Failure → Prop
  | .configuration _ | .serialization _ => True
  | .duplicateRequest id => ∃ g ∈ s.registered, g.entry.id.text = id
  | .cancelled => s.tokens.isCancelled d.token = true
  | _ => False

/-! ## The invariant -/

/-- Call `n` has registered a request that belongs to its draft. -/
def Registered (s : Exchange τ ι κ) (n : Nat) (d : RequestDraft) (e : PendingRequest)
    (q : Request) : Prop :=
  s.Owns n e ∧ ∃ settings, s.bus.requestResponse = some settings ∧ s.bus.Opened settings d e q

/-- The call at number `n` has its result. -/
def HasEnded (s : Exchange τ ι κ) (n : Nat) : Prop :=
  ∃ d q result, s.calls[n]? = some ⟨d, .underway q⟩ ∧ q.stage = .ended result

/-- A resolution with this outcome was right for a request. -/
def Justified (s : Exchange τ ι κ) (e : PendingRequest) (o : Outcome) : Resolver → Prop
  | .response m => m.id = e.id ∧ o = s.bus.outcomeOf e.responseType m.payload m.error
  | .sweep now => (o = .cancelled .timedOut ∧ s.SawExpired e now) ∨
      (o = .cancelled .cancelled ∧ s.tokens.isCancelled e.token = true)
  | .sender => o = .cancelled .cancelled ∧ s.tokens.isCancelled e.token = true

/-- A resolution is that of a registered request, and it stays. -/
structure SoundResolution (s : Exchange τ ι κ) (r : Resolution) : Prop where
  outcome : (s.store.slot r.slot).outcome = some r.outcome
  justified : ∃ e, s.Knows e ∧ e.slot = r.slot ∧ s.Justified e r.outcome r.resolver

/-- A slot has the outcome that resolved it, and only a call that ended has taken it. -/
structure SoundSlot (s : Exchange τ ι κ) (i : SlotIndex) (x : Slot) : Prop where
  isOpen : x.IsOpen
  resolved : ∀ o, x.outcome = some o → ∃ r ∈ s.resolutions, r.slot = i ∧ r.outcome = o
  taken : x.taken = true → ∃ g, s.registered[i]? = some g ∧ s.HasEnded g.call

/-- A call has registered what its stage says, and its result is earned.  The transport answers
`cancelled` as it likes. -/
def SoundCall (s : Exchange τ ι κ) (n : Nat) (d : RequestDraft) : Call.Stage → Prop
  | .called => True
  | .admitted settings | .stamped settings _ => s.bus.requestResponse = some settings
  | .underway q => ∃ e, s.Registered n d e q ∧
      ∀ result, q.stage = .ended result → result ≠ .error .cancelled → s.Earned d e result
  | .resigned q | .withdrawn q => ∃ e, s.Registered n d e q ∧
      (s.store.slot e.slot).isResolved = true
  | .refused cause => s.MayRefuse d cause

/-- A sweep gives up registered requests for the reason that it says. -/
def SoundSweep (s : Exchange τ ι κ) (now : Instant) : Sweeping.Stage → Prop
  | .reading | .ended => True
  | .visiting remaining _ => ∀ e ∈ remaining, s.Knows e ∧
      (e.expires ≤ now ∨ s.tokens.isCancelled e.token = true)
  | .striking reason e remaining _ =>
      (s.Knows e ∧ ((s.store.slot e.slot).isResolved = false →
        s.Justified e (.cancelled reason) (.sweep now))) ∧
      ∀ e ∈ remaining, s.Knows e ∧ (e.expires ≤ now ∨ s.tokens.isCancelled e.token = true)

/-- What is under way in `s` agrees with what `u` remembers. -/
structure Agrees (u s : Exchange τ ι κ) : Prop where
  entries : ∀ e ∈ s.store.entries, u.Knows e
  slots : ∀ i x, s.store.slots[i]? = some x → u.SoundSlot i x
  calls : ∀ n c, s.calls[n]? = some c → u.SoundCall n c.draft c.stage
  replies : ∀ r ∈ s.replies, u.Knows r.entry ∧ r.response.id = r.entry.id
  sweeps : ∀ k ∈ s.sweeps, u.SoundSweep k.now k.stage
  resolutions : ∀ r ∈ s.resolutions, u.SoundResolution r

/-- What is under way agrees with what happened, and no slot was resolved twice. -/
structure Correlated (s : Exchange τ ι κ) : Prop extends Agrees s s where
  size : s.registered.length = s.store.slots.length
  kept : ∀ g ∈ s.registered, g.entry.keptBySender = true
  once : (s.resolutions.map (·.slot)).Nodup

/-! ## What is remembered only grows -/

/-- `u` remembers all that `s` remembers. -/
structure Extends (s u : Exchange τ ι κ) : Prop where
  serializer : u.bus.serializer = s.bus.serializer
  requestResponse : u.bus.requestResponse = s.bus.requestResponse
  producers : u.bus.producers = s.bus.producers
  tokens : ∀ k, s.tokens.isCancelled k = true → u.tokens.isCancelled k = true
  registered : s.registered <+: u.registered
  resolutions : s.resolutions ⊆ u.resolutions
  inspections : s.inspections ⊆ u.inspections
  outcomes : ∀ i o, (s.store.slot i).outcome = some o → (u.store.slot i).outcome = some o
  ended : ∀ n, s.HasEnded n → u.HasEnded n

theorem Extends.refl (s : Exchange τ ι κ) : Extends s s where
  serializer := rfl
  requestResponse := rfl
  producers := rfl
  tokens _ h := h
  registered := List.prefix_refl _
  resolutions := List.Subset.refl _
  inspections := List.Subset.refl _
  outcomes _ _ h := h
  ended _ h := h

theorem Extends.getElem? {g : Registration} (h : Extends s u) (hg : s.registered[i]? = some g) :
    u.registered[i]? = some g := by
  obtain ⟨rest, hrest⟩ := h.registered
  obtain ⟨hi, -⟩ := List.getElem?_eq_some_iff.mp hg
  rw [← hrest, List.getElem?_append_left hi, hg]

theorem Extends.isResolved (h : Extends s u) (hi : (s.store.slot i).isResolved = true) :
    (u.store.slot i).isResolved = true := by
  obtain ⟨o, ho⟩ := Option.isSome_iff_exists.mp hi
  exact Option.isSome_iff_exists.mpr ⟨o, h.outcomes i o ho⟩

theorem Owns.mono (h : Extends s u) (howns : s.Owns n e) : u.Owns n e := h.getElem? howns

theorem Knows.mono (h : Extends s u) : s.Knows e → u.Knows e
  | ⟨n, howns⟩ => ⟨n, howns.mono h⟩

theorem Registered.mono (h : Extends s u) : s.Registered n d e q → u.Registered n d e q
  | ⟨howns, settings, hsettings, hopened⟩ => by
    refine ⟨howns.mono h, settings, h.requestResponse.trans hsettings, { hopened with expires := ?_ }⟩
    simpa only [Bus.producer, Bus.producer?, h.producers] using hopened.expires

theorem AnsweredBy.mono (h : Extends s u) : s.AnsweredBy e m → u.AnsweredBy e m
  | ⟨hid, r, hr, hslot⟩ => ⟨hid, r, h.resolutions hr, hslot⟩

theorem SawExpired.mono {now : Instant} (h : Extends s u) : s.SawExpired e now → u.SawExpired e now
  | ⟨hexpires, hseen⟩ => ⟨hexpires, h.inspections hseen⟩

theorem Earned.mono {result : Except Failure Json} (h : Extends s u)
    (hearned : s.Earned d e result) : u.Earned d e result := by
  cases result with
  | ok message =>
    obtain ⟨m, value, hm, herror, hread, hvalue⟩ := hearned
    exact ⟨m, value, hm.mono h, herror, h.serializer ▸ hread, hvalue⟩
  | error cause =>
    cases cause with
    | serialization cause =>
      obtain ⟨m, hm, herror, hread⟩ := hearned
      exact ⟨m, hm.mono h, herror, h.serializer ▸ hread⟩
    | requestFaulted text =>
      obtain ⟨m, hm, herror⟩ := hearned
      exact ⟨m, hm.mono h, herror⟩
    | requestTimeout id =>
      obtain ⟨hid, now, hnow⟩ := hearned
      exact ⟨hid, now, hnow.mono h⟩
    | cancelled => exact h.tokens _ hearned
    | produceFailed => trivial
    | _ => exact hearned

theorem MayRefuse.mono {cause : Failure} (h : Extends s u) (hcause : s.MayRefuse d cause) :
    u.MayRefuse d cause := by
  cases cause with
  | configuration cause => trivial
  | serialization cause => trivial
  | duplicateRequest id =>
    obtain ⟨g, hg, hid⟩ := hcause
    exact ⟨g, h.registered.subset hg, hid⟩
  | cancelled => exact h.tokens _ hcause
  | _ => exact hcause

theorem Justified.mono {resolver : Resolver} (h : Extends s u) (hj : s.Justified e o resolver) :
    u.Justified e o resolver := by
  cases resolver with
  | response m =>
    refine ⟨hj.1, hj.2.trans ?_⟩
    simp only [Bus.outcomeOf, h.serializer]
  | sweep now => exact hj.imp (And.imp_right (·.mono h)) (And.imp_right (h.tokens _))
  | sender => exact ⟨hj.1, h.tokens _ hj.2⟩

theorem SoundResolution.mono {r : Resolution} (h : Extends s u) (hr : s.SoundResolution r) :
    u.SoundResolution r where
  outcome := h.outcomes _ _ hr.outcome
  justified :=
    let ⟨e, hknows, hslot, hj⟩ := hr.justified
    ⟨e, hknows.mono h, hslot, hj.mono h⟩

theorem SoundSlot.mono {x : Slot} (h : Extends s u) (hx : s.SoundSlot i x) : u.SoundSlot i x where
  isOpen := hx.isOpen
  resolved o ho :=
    let ⟨r, hr, hslot⟩ := hx.resolved o ho
    ⟨r, h.resolutions hr, hslot⟩
  taken htaken :=
    let ⟨g, hg, hended⟩ := hx.taken htaken
    ⟨g, h.getElem? hg, h.ended _ hended⟩

theorem SoundCall.mono {stage : Call.Stage} (h : Extends s u) (hstage : s.SoundCall n d stage) :
    u.SoundCall n d stage := by
  cases stage with
  | called => trivial
  | admitted settings => exact h.requestResponse.trans hstage
  | stamped settings created => exact h.requestResponse.trans hstage
  | underway q =>
    obtain ⟨e, hregistered, hearned⟩ := hstage
    exact ⟨e, hregistered.mono h, fun result hresult hne => (hearned result hresult hne).mono h⟩
  | resigned q =>
    obtain ⟨e, hregistered, hresolved⟩ := hstage
    exact ⟨e, hregistered.mono h, h.isResolved hresolved⟩
  | withdrawn q =>
    obtain ⟨e, hregistered, hresolved⟩ := hstage
    exact ⟨e, hregistered.mono h, h.isResolved hresolved⟩
  | refused cause => exact MayRefuse.mono h hstage

theorem SoundSweep.mono {now : Instant} {stage : Sweeping.Stage} (h : Extends s u)
    (hstage : s.SoundSweep now stage) : u.SoundSweep now stage := by
  have hremaining : ∀ remaining : List PendingRequest,
      (∀ e ∈ remaining, s.Knows e ∧ (e.expires ≤ now ∨ s.tokens.isCancelled e.token = true)) →
      ∀ e ∈ remaining, u.Knows e ∧ (e.expires ≤ now ∨ u.tokens.isCancelled e.token = true) :=
    fun remaining hall e he => ⟨(hall e he).1.mono h, (hall e he).2.imp_right (h.tokens _)⟩
  cases stage with
  | reading => trivial
  | ended => trivial
  | visiting remaining processed => exact hremaining remaining hstage
  | striking reason e remaining processed =>
    obtain ⟨⟨hknows, hj⟩, hrest⟩ := hstage
    refine ⟨⟨hknows.mono h, fun hfree => (hj ?_).mono h⟩, hremaining remaining hrest⟩
    cases hresolved : (s.store.slot e.slot).isResolved with
    | false => rfl
    | true => exact absurd (h.isResolved hresolved) (by simp [hfree])

/-- What agrees with the past agrees with the longer past. -/
theorem Agrees.mono (h : Extends s u) (hs : Agrees s t) : Agrees u t where
  entries e he := (hs.entries e he).mono h
  slots i x hx := (hs.slots i x hx).mono h
  calls n c hc := (hs.calls n c hc).mono h
  replies r hr := (hs.replies r hr).imp_left (·.mono h)
  sweeps k hk := (hs.sweeps k hk).mono h
  resolutions r hr := (hs.resolutions r hr).mono h

end Exchange
end Courier
