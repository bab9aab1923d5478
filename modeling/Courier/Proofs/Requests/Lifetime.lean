import Courier.Proofs.Requests.Correlation

/-!
# The lifetime of pending requests

A request is in the store from the moment at which its call registers it until it is resolved or the
transport refuses it, and whoever resolves a request removes it next.  `Tidy` says so of a state and
of the events that led to it.

All steps but a registration are of one kind (`Tidy.change`): requests may be resolved by somebody
who removes them later, and requests that are resolved or refused may leave the store.

Request ids are drawn at random and taken to be different (`Distinct`); a request with the id of an
older one could be removed in its place.

Main statements: `Tidy.of_run`, `Tidy.isSome_find?_iff` (what is in the store) and
`Tidy.find?_of_ended` (what a call leaves behind).
-/

namespace Courier

/-- The requests that a sweep has dealt with and not removed yet. -/
def Sweeping.Stage.processed : Sweeping.Stage → List RequestId
  | .visiting _ ids | .striking _ _ _ ids => ids
  | .reading | .ended => []

namespace Exchange

variable {τ ι κ : Type} {s t u : Exchange τ ι κ} {n k : Nat} {d : RequestDraft}
variable {e e' : PendingRequest} {q : Request} {es : List Event} {ev : Event}

/-- The slot of a request has an outcome. -/
def Resolved (s : Exchange τ ι κ) (e : PendingRequest) : Prop :=
  (s.store.slot e.slot).isResolved = true

/-- The transport has refused the request of a call. -/
def Failed (es : List Event) (n : Nat) : Prop := ∃ cause, Event.produced n (.error cause) ∈ es

/-- Somebody has resolved a request with this id and is about to remove it. -/
def Removing (s : Exchange τ ι κ) (id : RequestId) : Prop :=
  (∃ (i : Nat) (r : Reply), s.replies[i]? = some r ∧ r.stage = .resolved ∧ r.response.id = id) ∨
  (∃ (n : Nat) (d : RequestDraft) (q : Request),
    s.calls[n]? = some ⟨d, .resigned q⟩ ∧ q.id = id) ∨
  ∃ (k : Nat) (x : Sweeping), s.sweeps[k]? = some x ∧ id ∈ x.stage.processed

/-- No two requests have the same id. -/
def Distinct (s : Exchange τ ι κ) : Prop := (s.registered.map (·.entry.id)).Nodup

theorem failed_append :
    Failed (es ++ [ev]) n ↔ Failed es n ∨ ∃ cause, ev = .produced n (.error cause) := by
  simp only [Failed, List.mem_append, List.mem_singleton, exists_or]
  exact or_congr_right (exists_congr fun _ => eq_comm)

theorem failed_append_of_ne (hev : ∀ n cause, ev ≠ .produced n (.error cause)) :
    Failed (es ++ [ev]) n ↔ Failed es n := by
  rw [failed_append]
  exact or_iff_left fun ⟨cause, hcause⟩ => hev n cause hcause

theorem failed_append_produced {m : Nat} {cause : Failure} :
    Failed (es ++ [.produced n (.error cause)]) m ↔ Failed es m ∨ m = n := by
  rw [failed_append]
  refine or_congr_right ⟨?_, ?_⟩
  · rintro ⟨c, hc⟩
    exact (Event.produced.inj hc).1.symm
  · rintro rfl
    exact ⟨cause, rfl⟩

theorem Distinct.unique (h : s.Distinct) (howns : s.Owns n e) (howns' : s.Owns k e')
    (hid : e.id = e'.id) : n = k ∧ e = e' := by
  have hsame : Registration.mk n e = ⟨k, e'⟩ :=
    List.inj_on_of_nodup_map h (List.mem_of_getElem? howns) (List.mem_of_getElem? howns') hid
  exact Registration.mk.inj hsame

/-- The stage of a call that has registered a request. -/
def Fits (s : Exchange τ ι κ) (es : List Event) (n : Nat) (e : PendingRequest) : Call.Stage → Prop
  | .underway q => q.id = e.id ∧ q.slot = e.slot ∧
      (Failed es n → ∃ result, q.stage = .ended result) ∧
      ∀ result, q.stage = .ended result → s.Resolved e ∨ Failed es n
  | .resigned q | .withdrawn q => q.id = e.id ∧ q.slot = e.slot ∧ s.Resolved e ∧ ¬Failed es n
  | _ => False

theorem Fits.mono {ds : List Event} {stage : Call.Stage} (h : s.Fits es n e stage)
    (hresolved : s.Resolved e → u.Resolved e) (hfailed : Failed ds n ↔ Failed es n) :
    u.Fits ds n e stage := by
  cases stage with
  | underway q =>
    obtain ⟨hid, hslot, hended, hwhy⟩ := h
    refine ⟨hid, hslot, fun hf => hended (hfailed.mp hf), fun result hresult => ?_⟩
    exact (hwhy result hresult).imp hresolved hfailed.mpr
  | resigned q =>
    obtain ⟨hid, hslot, hr, hf⟩ := h
    exact ⟨hid, hslot, hresolved hr, fun hnew => hf (hfailed.mp hnew)⟩
  | withdrawn q =>
    obtain ⟨hid, hslot, hr, hf⟩ := h
    exact ⟨hid, hslot, hresolved hr, fun hnew => hf (hfailed.mp hnew)⟩
  | _ => exact h

/-- After the events `es` the store holds what is pending, and what is resolved or refused has left
it or is about to. -/
structure Tidy (es : List Event) (s : Exchange τ ι κ) : Prop where
  correlated : Correlated s
  fits : ∀ n e, s.Owns n e → ∃ c, s.calls[n]? = some c ∧ s.Fits es n e c.stage
  known : ∀ n, Failed es n → ∃ e, s.Owns n e
  /-- What nobody has resolved or refused is pending. -/
  present : ∀ n e, s.Owns n e → ¬s.Resolved e → ¬Failed es n → e ∈ s.store.entries
  refused : ∀ n e, s.Owns n e → Failed es n → e ∉ s.store.entries
  /-- What is resolved is on its way out. -/
  leaving : ∀ e ∈ s.store.entries, s.Resolved e → s.Removing e.id
  replies : ∀ r ∈ s.replies, r.stage ≠ .found → s.Resolved r.entry
  processed : ∀ x ∈ s.sweeps, ∀ id ∈ x.stage.processed, ∃ e, s.Knows e ∧ e.id = id ∧ s.Resolved e

theorem Tidy.initial (bus : Bus τ ι κ) (nativeHeaders : Bool) (clock : Instant) (tokens : Tokens) :
    Tidy [] (Exchange.initial bus nativeHeaders clock tokens) where
  correlated := .initial bus nativeHeaders clock tokens
  fits _ _ howns := absurd howns nofun
  known _ hfailed := absurd hfailed (by simp [Failed])
  present _ _ howns := absurd howns nofun
  refused _ _ howns := absurd howns nofun
  leaving _ he := absurd he List.not_mem_nil
  replies _ hr := absurd hr List.not_mem_nil
  processed _ hx := absurd hx List.not_mem_nil

/-! ## Changes -/

/-- Requests may be resolved by somebody who is going to remove them, and requests with the ids
`ids`, which are resolved or refused, leave the store. -/
theorem Tidy.change (ids : List RequestId) (h : Tidy es s) (hu : Correlated u)
    (hregistered : u.registered = s.registered)
    (hentries : ∀ e, e ∈ u.store.entries ↔ e ∈ s.store.entries ∧ e.id ∉ ids)
    (hresolved : ∀ e, s.Resolved e → u.Resolved e)
    (hnew : ∀ e, s.Knows e → u.Resolved e → s.Resolved e ∨ u.Removing e.id)
    (hremoving : ∀ id, s.Removing id → id ∈ ids ∨ u.Removing id)
    (hgone : ∀ n e, s.Owns n e → e.id ∈ ids → s.Resolved e ∨ Failed (es ++ [ev]) n)
    (hfailed : ∀ n, Failed (es ++ [ev]) n →
      Failed es n ∨ ((∃ e, s.Owns n e) ∧ ∀ e, s.Owns n e → e.id ∈ ids))
    (hfits : ∀ n e, s.Owns n e → ∃ c, u.calls[n]? = some c ∧ u.Fits (es ++ [ev]) n e c.stage)
    (hreplies : ∀ r ∈ u.replies, r.stage ≠ .found → u.Resolved r.entry)
    (hprocessed : ∀ x ∈ u.sweeps, ∀ id ∈ x.stage.processed,
      ∃ e, s.Knows e ∧ e.id = id ∧ u.Resolved e) : Tidy (es ++ [ev]) u := by
  have howns : ∀ n e, u.Owns n e ↔ s.Owns n e := fun n e => by rw [Owns, Owns, hregistered]
  refine ⟨hu, ?_, ?_, ?_, ?_, ?_, hreplies, ?_⟩
  · intro n e he
    exact hfits n e ((howns n e).mp he)
  · intro n hf
    rcases hfailed n hf with hf | ⟨⟨e, he⟩, -⟩
    · obtain ⟨e, he⟩ := h.known n hf
      exact ⟨e, (howns n e).mpr he⟩
    · exact ⟨e, (howns n e).mpr he⟩
  · intro n e he hr hf
    rw [howns] at he
    have hbefore : e ∈ s.store.entries :=
      h.present n e he (fun hr' => hr (hresolved e hr')) fun hf' => hf (failed_append.mpr (.inl hf'))
    refine (hentries e).mpr ⟨hbefore, fun hid => ?_⟩
    rcases hgone n e he hid with hr' | hf'
    · exact hr (hresolved e hr')
    · exact hf hf'
  · intro n e he hf hmem
    rw [howns] at he
    obtain ⟨hbefore, hid⟩ := (hentries e).mp hmem
    rcases hfailed n hf with hf | ⟨-, hall⟩
    · exact h.refused n e he hf hbefore
    · exact hid (hall e he)
  · intro e hmem hr
    obtain ⟨hbefore, hid⟩ := (hentries e).mp hmem
    rcases hnew e (h.correlated.entries e hbefore) hr with hr' | hremoves
    · exact (hremoving e.id (h.leaving e hbefore hr')).resolve_left hid
    · exact hremoves
  · intro x hx id hid
    obtain ⟨e, ⟨n, he⟩, hsame, hr⟩ := hprocessed x hx id hid
    exact ⟨e, ⟨n, (howns n e).mpr he⟩, hsame, hr⟩

/-- From `s` to `u` nobody resolves a request and nothing leaves the store. -/
structure Quiet (es : List Event) (s u : Exchange τ ι κ) : Prop where
  registered : u.registered = s.registered
  entries : u.store.entries = s.store.entries
  resolved : ∀ e, u.Resolved e ↔ s.Resolved e
  calls : ∀ (n : Nat) c, s.calls[n]? = some c → ∃ c', u.calls[n]? = some c' ∧
    (∀ q, c.stage = .resigned q → c' = c) ∧
    ∀ e, s.Owns n e → s.Fits es n e c.stage → s.Fits es n e c'.stage
  replies : ∀ (i : Nat) r, s.replies[i]? = some r → u.replies[i]? = some r
  found : ∀ r ∈ u.replies, r ∈ s.replies ∨ r.stage = .found
  sweeps : ∀ (k : Nat) x, s.sweeps[k]? = some x →
    ∃ y, u.sweeps[k]? = some y ∧ x.stage.processed ⊆ y.stage.processed
  processed : ∀ y ∈ u.sweeps, ∀ id ∈ y.stage.processed, ∃ x ∈ s.sweeps, id ∈ x.stage.processed

theorem Quiet.refl (es : List Event) (s : Exchange τ ι κ) : Quiet es s s where
  registered := rfl
  entries := rfl
  resolved _ := Iff.rfl
  calls _ c hc := ⟨c, hc, fun _ _ => rfl, fun _ _ hfits => hfits⟩
  replies _ _ hr := hr
  found _ hr := .inl hr
  sweeps _ x hx := ⟨x, hx, List.Subset.refl _⟩
  processed x hx _ hid := ⟨x, hx, hid⟩

theorem Quiet.removing {id : RequestId} (h : Quiet es s u) (hid : s.Removing id) :
    u.Removing id := by
  rcases hid with ⟨i, r, hr, hstage, hid⟩ | ⟨n, d, q, hcall, hid⟩ | ⟨k, x, hx, hid⟩
  · exact .inl ⟨i, r, h.replies i r hr, hstage, hid⟩
  · obtain ⟨c, hc, hsame, -⟩ := h.calls n _ hcall
    obtain rfl := hsame q rfl
    exact .inr (.inl ⟨n, d, q, hc, hid⟩)
  · obtain ⟨y, hy, hsub⟩ := h.sweeps k x hx
    exact .inr (.inr ⟨k, y, hy, hsub hid⟩)

theorem Tidy.quiet (h : Tidy es s) (hu : Correlated u)
    (hev : ∀ n cause, ev ≠ .produced n (.error cause)) (hquiet : Quiet es s u) :
    Tidy (es ++ [ev]) u := by
  have hfailed : ∀ n, Failed (es ++ [ev]) n ↔ Failed es n := fun n => failed_append_of_ne hev
  refine h.change [] hu hquiet.registered ?_ (fun e => (hquiet.resolved e).mpr) ?_ ?_ ?_ ?_ ?_ ?_ ?_
  · intro e
    simp [hquiet.entries]
  · intro e _ hr
    exact .inl ((hquiet.resolved e).mp hr)
  · intro id hid
    exact .inr (hquiet.removing hid)
  · intro n e _ hid
    exact absurd hid List.not_mem_nil
  · intro n hf
    exact .inl ((hfailed n).mp hf)
  · intro n e howns
    obtain ⟨c, hc, hfits⟩ := h.fits n e howns
    obtain ⟨c', hc', -, hkeep⟩ := hquiet.calls n c hc
    exact ⟨c', hc', (hkeep e howns hfits).mono (hquiet.resolved e).mpr (hfailed n)⟩
  · intro r hr hstage
    refine (hquiet.resolved r.entry).mpr ?_
    rcases hquiet.found r hr with hr | hfound
    · exact h.replies r hr hstage
    · exact absurd hfound hstage
  · intro y hy id hid
    obtain ⟨x, hx, hid⟩ := hquiet.processed y hy id hid
    obtain ⟨e, hknows, hsame, hr⟩ := h.processed x hx id hid
    exact ⟨e, hknows, hsame, (hquiet.resolved e).mpr hr⟩

/-! ## Steps that change nothing in the store -/

/-- A call that did not resign moves on, and at most takes an outcome. -/
theorem Quiet.withCall {stage stage' : Call.Stage} {store : PendingStore}
    (hcall : s.calls[n]? = some ⟨d, stage⟩) (hold : ∀ q, stage ≠ .resigned q)
    (hfits : ∀ e, s.Owns n e → s.Fits es n e stage → s.Fits es n e stage')
    (hentries : store.entries = s.store.entries)
    (hresolved : ∀ i, (store.slot i).isResolved = (s.store.slot i).isResolved) :
    Quiet es s { s.withCall n d stage' with store } := by
  obtain ⟨hn, -⟩ := List.getElem?_eq_some_iff.mp hcall
  refine { Quiet.refl es s with entries := hentries, resolved := ?_, calls := ?_ }
  · intro e
    simp only [Resolved, hresolved]
  · intro k c hc
    rcases eq_or_getElem?_set hcall hc ⟨d, stage'⟩ with ⟨rfl, rfl⟩ | hc
    · exact ⟨⟨d, stage'⟩, List.getElem?_set_self hn, fun q hq => absurd hq (hold q),
        fun e howns => hfits e howns⟩
    · exact ⟨c, hc, fun _ _ => rfl, fun _ _ hsame => hsame⟩

/-- A call that has not registered its request owns none. -/
theorem Tidy.not_owns {stage : Call.Stage} (h : Tidy es s)
    (hcall : s.calls[n]? = some ⟨d, stage⟩) (hnone : ∀ e, ¬s.Fits es n e stage) :
    ¬s.Owns n e := by
  intro howns
  obtain ⟨c, hc, hfits⟩ := h.fits n e howns
  obtain rfl := Option.some.inj (hcall.symm.trans hc)
  exact hnone e hfits

theorem Tidy.fits_of_call {stage : Call.Stage} (h : Tidy es s)
    (hcall : s.calls[n]? = some ⟨d, stage⟩) (howns : s.Owns n e) : s.Fits es n e stage := by
  obtain ⟨c, hc, hfits⟩ := h.fits n e howns
  obtain rfl := Option.some.inj (hcall.symm.trans hc)
  exact hfits

/-- A call has moved on; the others are where they were. -/
theorem Tidy.fits_withCall {stage stage' : Call.Stage}
    {P : Nat → PendingRequest → Call.Stage → Prop} (h : Tidy es s)
    (hcall : s.calls[n]? = some ⟨d, stage⟩)
    (hself : ∀ e, s.Owns n e → s.Fits es n e stage → P n e stage')
    (hother : ∀ m e stage, n ≠ m → s.Fits es m e stage → P m e stage) (m : Nat)
    (e : PendingRequest) (howns : s.Owns m e) :
    ∃ c, (s.calls.set n ⟨d, stage'⟩)[m]? = some c ∧ P m e c.stage := by
  obtain ⟨c, hc, hfits⟩ := h.fits m e howns
  by_cases hm : n = m
  · subst hm
    obtain ⟨hn, -⟩ := List.getElem?_eq_some_iff.mp hcall
    obtain rfl := Option.some.inj (hcall.symm.trans hc)
    exact ⟨_, List.getElem?_set_self hn, hself e howns hfits⟩
  · exact ⟨c, (List.getElem?_set_ne hm).trans hc, hother m e c.stage hm hfits⟩

/-- A call that waits has not been refused by the transport. -/
theorem Tidy.not_failed (h : Tidy es s) (hcall : s.calls[n]? = some ⟨d, .underway q⟩)
    (hgoing : ∀ result, q.stage ≠ .ended result) : ¬Failed es n := by
  intro hfailed
  obtain ⟨e, howns⟩ := h.known n hfailed
  obtain ⟨-, -, hended, -⟩ := h.fits_of_call hcall howns
  obtain ⟨result, hresult⟩ := hended hfailed
  exact hgoing result hresult

/-- A call has looked at its slot. -/
theorem Tidy.polled (h : Tidy es s) (hcall : s.calls[n]? = some ⟨d, .underway q⟩)
    (hstage : q.stage = .waiting) :
    Quiet es s { s.withCall n d (.underway (q.poll s.store false).2) with
      store := (q.poll s.store false).1 } := by
  have hgoing : ¬Failed es n := h.not_failed hcall fun _ => hstage ▸ nofun
  obtain ⟨e, hregistered, -⟩ := h.correlated.calls _ _ hcall
  obtain ⟨howns, settings, -, hopened⟩ := id hregistered
  cases houtcome : (s.store.slot q.slot).outcome with
  | none =>
    have hopen := (h.correlated.soundSlot howns).isOpen
    rw [← hopened.slot] at hopen
    rw [Request.poll_of_unresolved hopen houtcome]
    exact .withCall hcall nofun (fun _ _ hsame => hsame) rfl fun _ => rfl
  | some o =>
    obtain ⟨hopen, htaken, -⟩ := h.correlated.conclude hcall
      (not_hasEnded_of_stage hcall fun _ => hstage ▸ nofun) hregistered houtcome
    rw [Request.poll_of_resolved hopen houtcome htaken]
    have hsame : ∀ i, ((s.store.setSlot q.slot { s.store.slot q.slot with taken := true }).slot
        i).isResolved = (s.store.slot i).isResolved := by
      intro i
      refine PendingStore.slot_setSlot_congr Slot.isResolved ?_ i
      rfl
    refine .withCall hcall nofun ?_ rfl hsame
    rintro e' - ⟨hid, hslot, -, -⟩
    refine ⟨hid, hslot, fun hfailed => absurd hfailed hgoing, fun _ _ => .inl ?_⟩
    rw [Resolved, ← hslot, Slot.isResolved, houtcome]
    rfl

/-- A call has taken the outcome of its request. -/
theorem Quiet.collect (hcall : s.calls[n]? = some ⟨d, .withdrawn q⟩) :
    Quiet es s { s.withCall n d (.underway
        { q with stage := .ended (q.resultOf (s.store.receive q.slot).2) }) with
      store := (s.store.receive q.slot).1 } := by
  refine .withCall hcall nofun ?_ rfl (PendingStore.isResolved_receive s.store q.slot)
  rintro e - ⟨hid, hslot, hr, hgoing⟩
  exact ⟨hid, hslot, fun hf => absurd hf hgoing, fun _ _ => .inl hr⟩

/-- The transport has taken the request of a call. -/
theorem Tidy.accepted {message : TransportMessage} (h : Tidy es s)
    (hcall : s.calls[n]? = some ⟨d, .underway q⟩) (hstage : q.stage = .producing message) :
    Quiet es s (s.withCall n d (.underway { q with stage := .waiting })) := by
  have hgoing : ¬Failed es n := h.not_failed hcall fun _ => hstage ▸ nofun
  refine .withCall hcall nofun ?_ rfl fun _ => rfl
  rintro e - ⟨hid, hslot, -, -⟩
  exact ⟨hid, hslot, fun hf => absurd hf hgoing, nofun⟩

/-- A request is to be sent. -/
theorem Quiet.call (es : List Event) (s : Exchange τ ι κ) (draft : RequestDraft) :
    Quiet es s { s with calls := s.calls ++ [{ draft }] } := by
  refine { Quiet.refl es s with calls := ?_ }
  intro n c hc
  obtain ⟨hn, -⟩ := List.getElem?_eq_some_iff.mp hc
  exact ⟨c, (List.getElem?_append_left hn).trans hc, fun _ _ => rfl, fun _ _ hsame => hsame⟩

/-- A response has found its request. -/
theorem Quiet.arrive (es : List Event) (s : Exchange τ ι κ) (m : Response) (e : PendingRequest) :
    Quiet es s { s with replies := s.replies ++ [{ response := m, entry := e }] } := by
  refine { Quiet.refl es s with replies := ?_, found := ?_ }
  · intro i r hr
    obtain ⟨hi, -⟩ := List.getElem?_eq_some_iff.mp hr
    exact (List.getElem?_append_left hi).trans hr
  · intro r hr
    refine (List.mem_append.mp hr).imp_right fun hlast => ?_
    obtain rfl := List.mem_singleton.mp hlast
    rfl

/-- A sweep has begun. -/
theorem Quiet.sweep (es : List Event) (s : Exchange τ ι κ) :
    Quiet es s { s with sweeps := s.sweeps ++ [{ now := s.clock }] } := by
  refine { Quiet.refl es s with sweeps := ?_, processed := ?_ }
  · intro k x hx
    obtain ⟨hk, -⟩ := List.getElem?_eq_some_iff.mp hx
    exact ⟨x, (List.getElem?_append_left hk).trans hx, List.Subset.refl _⟩
  · intro y hy id hid
    rcases List.mem_append.mp hy with hy | hlast
    · exact ⟨y, hy, hid⟩
    · obtain rfl := List.mem_singleton.mp hlast
      cases hid

/-- A sweep has come further and dealt with nothing. -/
theorem Quiet.withSweep {now : Instant} {stage stage' : Sweeping.Stage}
    (hsweep : s.sweeps[k]? = some ⟨now, stage⟩) (hsame : stage'.processed = stage.processed) :
    Quiet es s (s.withSweep k now stage') := by
  obtain ⟨hk, -⟩ := List.getElem?_eq_some_iff.mp hsweep
  refine { Quiet.refl es s with sweeps := ?_, processed := ?_ }
  · intro j x hx
    rcases eq_or_getElem?_set hsweep hx ⟨now, stage'⟩ with ⟨rfl, rfl⟩ | hx
    · exact ⟨⟨now, stage'⟩, List.getElem?_set_self hk, fun id hid => hsame.symm ▸ hid⟩
    · exact ⟨x, hx, List.Subset.refl _⟩
  · intro y hy id hid
    rcases List.mem_or_eq_of_mem_set hy with hy | rfl
    · exact ⟨y, hy, hid⟩
    · rw [hsame] at hid
      exact ⟨_, List.mem_of_getElem? hsweep, hid⟩

/-! ## Resolutions -/

theorem Resolved.resolve {i : SlotIndex} {o : Outcome} (h : s.Resolved e)
    (hstore : u.store = (s.store.resolve i o).1) : u.Resolved e := by
  rw [Resolved, hstore]
  exact PendingStore.isResolved_resolve_of_isResolved o h

/-- Only the request whose slot somebody resolves is resolved now. -/
theorem Resolved.of_resolve {o : Outcome} (h : u.Resolved e) (hknows : s.Knows e)
    (hknows' : s.Knows e') (hstore : u.store = (s.store.resolve e'.slot o).1) :
    s.Resolved e ∨ e = e' := by
  rw [Resolved, hstore] at h
  by_cases hslot : e.slot = e'.slot
  · obtain ⟨n, howns⟩ := hknows
    obtain ⟨k, howns'⟩ := hknows'
    exact .inr (howns.unique howns' hslot).2
  · exact .inl ((PendingStore.isResolved_resolve_of_ne o hslot).symm.trans h)

theorem Tidy.resolved_resolve {o : Outcome} (h : Tidy es s) (hknows : s.Knows e)
    (hstore : u.store = (s.store.resolve e.slot o).1) : u.Resolved e := by
  obtain ⟨n, howns⟩ := hknows
  rw [Resolved, hstore]
  exact PendingStore.isResolved_resolve (h.correlated.slot_lt howns) o

/-- Somebody who removes it later has resolved a request. -/
theorem Tidy.resolve {o : Outcome} (h : Tidy es s) (hu : Correlated u)
    (hev : ∀ n cause, ev ≠ .produced n (.error cause)) (hknows : s.Knows e)
    (hregistered : u.registered = s.registered)
    (hstore : u.store = (s.store.resolve e.slot o).1) (hremoves : u.Removing e.id)
    (hremoving : ∀ id, s.Removing id → u.Removing id)
    (hfits : ∀ n e', s.Owns n e' → ∃ c, u.calls[n]? = some c ∧ u.Fits es n e' c.stage)
    (hreplies : ∀ r ∈ u.replies, r.stage ≠ .found → s.Resolved r.entry ∨ r.entry = e)
    (hprocessed : ∀ x ∈ u.sweeps, ∀ id ∈ x.stage.processed,
      (∃ y ∈ s.sweeps, id ∈ y.stage.processed) ∨ id = e.id) : Tidy (es ++ [ev]) u := by
  have hself : u.Resolved e := h.resolved_resolve hknows hstore
  have hfailed : ∀ n, Failed (es ++ [ev]) n ↔ Failed es n := fun n => failed_append_of_ne hev
  refine h.change [] hu hregistered ?_ (fun e' hr => hr.resolve hstore) ?_ ?_ ?_ ?_ ?_ ?_ ?_
  · intro e'
    rw [hstore]
    simp [PendingStore.resolve, PendingStore.setSlot]
  · intro e' hknows' hr
    rcases hr.of_resolve hknows' hknows hstore with hr | rfl
    · exact .inl hr
    · exact .inr hremoves
  · intro id hid
    exact .inr (hremoving id hid)
  · intro n e' _ hid
    exact absurd hid List.not_mem_nil
  · intro n hf
    exact .inl ((hfailed n).mp hf)
  · intro n e' howns
    obtain ⟨c, hc, hfit⟩ := hfits n e' howns
    exact ⟨c, hc, hfit.mono (fun hr => hr) (hfailed n)⟩
  · intro r hr hfound
    rcases hreplies r hr hfound with hr | hr
    · exact hr.resolve hstore
    · exact hr ▸ hself
  · intro x hx id hid
    rcases hprocessed x hx id hid with ⟨y, hy, hid⟩ | rfl
    · obtain ⟨e', hknows', hsame, hr⟩ := h.processed y hy id hid
      exact ⟨e', hknows', hsame, hr.resolve hstore⟩
    · exact ⟨e, hknows, rfl, hself⟩

/-- A call that no removal has to wait for may move on. -/
theorem removing_withCall {id : RequestId} {stage stage' : Call.Stage}
    (hcall : s.calls[n]? = some ⟨d, stage⟩) (hold : ∀ q, stage ≠ .resigned q)
    (h : s.Removing id) : (s.withCall n d stage').Removing id := by
  rcases h with hreply | ⟨k, d', q', hk, hid⟩ | hsweep
  · exact .inl hreply
  · rcases eq_or_getElem?_set hcall hk ⟨d, stage'⟩ with ⟨-, hsame⟩ | hset
    · exact absurd (congrArg Call.stage hsame) (hold q')
    · exact .inr (.inl ⟨k, d', q', hset, hid⟩)
  · exact .inr (.inr hsweep)

/-- A call resolves its own slot. -/
theorem Tidy.resign (h : Tidy es s) (hcall : s.calls[n]? = some ⟨d, .underway q⟩)
    (hstage : q.stage = .waiting) (hcancelled : s.tokens.isCancelled q.token = true) :
    Tidy (es ++ [.resign n])
      ((s.resolve q.slot (.cancelled .cancelled) .sender).withCall n d (.resigned q)) := by
  have hu := h.correlated.resign hcall hstage hcancelled
  obtain ⟨hn, -⟩ := List.getElem?_eq_some_iff.mp hcall
  obtain ⟨e, ⟨howns, settings, -, hopened⟩, -⟩ := h.correlated.calls _ _ hcall
  have hgoing : ¬Failed es n := h.not_failed hcall fun _ => hstage ▸ nofun
  rw [hopened.slot] at hu ⊢
  have hself : ((s.resolve e.slot (.cancelled .cancelled) .sender).withCall n d
      (.resigned q)).Resolved e := h.resolved_resolve ⟨n, howns⟩ rfl
  refine h.resolve hu nofun ⟨n, howns⟩ rfl rfl ?_ ?_ (h.fits_withCall hcall ?_ ?_) ?_ ?_
  · exact .inr (.inl ⟨n, d, q, List.getElem?_set_self hn, hopened.id⟩)
  · intro id hid
    exact removing_withCall (s := s.resolve e.slot (.cancelled .cancelled) .sender) hcall nofun hid
  · rintro e' howns' ⟨hid, hslot, -, -⟩
    obtain ⟨-, rfl⟩ := howns.unique howns' (hopened.slot.symm.trans hslot)
    exact ⟨hid, hslot, hself, hgoing⟩
  · intro k e' stage _ hfits
    exact hfits.mono (fun hr => hr.resolve rfl) Iff.rfl
  · intro r hr hfound
    exact .inl (h.replies r hr hfound)
  · intro x hx id hid
    exact .inl ⟨x, hx, hid⟩

/-- A response resolves the slot of its request. -/
theorem Tidy.answer {i : Nat} {r : Reply} (h : Tidy es s) (hreply : s.replies[i]? = some r)
    (hstage : r.stage = .found) :
    Tidy (es ++ [.answer i])
      ((s.resolve r.entry.slot
        (s.bus.outcomeOf r.entry.responseType r.response.payload r.response.error)
        (.response r.response)).withReply i r .resolved) := by
  have hu := h.correlated.answer hreply
  obtain ⟨hi, -⟩ := List.getElem?_eq_some_iff.mp hreply
  obtain ⟨hknows, hsame⟩ := h.correlated.replies r (List.mem_of_getElem? hreply)
  refine h.resolve hu nofun hknows rfl rfl ?_ ?_ ?_ ?_ ?_
  · exact .inl ⟨i, _, List.getElem?_set_self hi, rfl, hsame⟩
  · rintro id (⟨j, r', hr', hremoves, hid⟩ | hcalls | hsweeps)
    · rcases eq_or_getElem?_set hreply hr' { r with stage := .resolved } with ⟨-, rfl⟩ | hset
      · rw [hstage] at hremoves
        cases hremoves
      · exact .inl ⟨j, r', hset, hremoves, hid⟩
    · exact .inr (.inl hcalls)
    · exact .inr (.inr hsweeps)
  · intro k e' howns'
    obtain ⟨c, hc, hfits⟩ := h.fits k e' howns'
    exact ⟨c, hc, hfits.mono (fun hr => hr.resolve rfl) Iff.rfl⟩
  · intro r' hr' hfound
    rcases List.mem_or_eq_of_mem_set hr' with hr' | rfl
    · exact .inl (h.replies r' hr' hfound)
    · exact .inr rfl
  · intro x hx id hid
    exact .inl ⟨x, hx, hid⟩

/-- A sweep gives up a request. -/
theorem Tidy.strike {now : Instant} {reason : CancelReason} {remaining : List PendingRequest}
    {processed : List RequestId} (h : Tidy es s)
    (hsweep : s.sweeps[k]? = some ⟨now, .striking reason e remaining processed⟩) :
    Tidy (es ++ [.strike k])
      ((s.resolve e.slot (.cancelled reason) (.sweep now)).withSweep k now
        (.visiting remaining (e.id :: processed))) := by
  have hu := h.correlated.strike hsweep
  obtain ⟨hk, -⟩ := List.getElem?_eq_some_iff.mp hsweep
  have hsound : s.SoundSweep now (.striking reason e remaining processed) :=
    h.correlated.sweeps _ (List.mem_of_getElem? hsweep)
  refine h.resolve hu nofun hsound.1.1 rfl rfl ?_ ?_ ?_ ?_ ?_
  · exact .inr (.inr ⟨k, _, List.getElem?_set_self hk, List.mem_cons_self⟩)
  · rintro id (hreplies | hcalls | ⟨j, x, hx, hid⟩)
    · exact .inl hreplies
    · exact .inr (.inl hcalls)
    · rcases eq_or_getElem?_set hsweep hx ⟨now, .visiting remaining (e.id :: processed)⟩ with
        ⟨rfl, rfl⟩ | hset
      · exact .inr (.inr ⟨k, _, List.getElem?_set_self hk, List.mem_cons_of_mem _ hid⟩)
      · exact .inr (.inr ⟨j, x, hset, hid⟩)
  · intro m e' howns'
    obtain ⟨c, hc, hfits⟩ := h.fits m e' howns'
    exact ⟨c, hc, hfits.mono (fun hr => hr.resolve rfl) Iff.rfl⟩
  · intro r hr hfound
    exact .inl (h.replies r hr hfound)
  · intro x hx id hid
    rcases List.mem_or_eq_of_mem_set hx with hx | rfl
    · exact .inl ⟨x, hx, hid⟩
    · rcases List.mem_cons.mp hid with rfl | hid
      · exact .inr rfl
      · exact .inl ⟨_, List.mem_of_getElem? hsweep, hid⟩

/-! ## Removals -/

theorem resolved_congr (hslots : u.store.slots = s.store.slots) (e : PendingRequest) :
    u.Resolved e ↔ s.Resolved e := by
  simp only [Resolved, PendingStore.slot, hslots]

theorem mem_removeAll (h : Correlated s) (ids : List RequestId) :
    e ∈ (s.store.removeAll ids).entries ↔ e ∈ s.store.entries ∧ e.id ∉ ids := by
  rw [PendingStore.removeAll_eq fun r hr => h.kept_of_mem hr]
  simp

/-- Entries that are resolved leave the store. -/
theorem Tidy.leave (ids : List RequestId) (h : Tidy es s) (hu : Correlated u)
    (hev : ∀ n cause, ev ≠ .produced n (.error cause))
    (hregistered : u.registered = s.registered) (hstore : u.store = s.store.removeAll ids)
    (hremoving : ∀ id, s.Removing id → id ∈ ids ∨ u.Removing id)
    (hgone : ∀ e, s.Knows e → e.id ∈ ids → s.Resolved e)
    (hfits : ∀ n e, s.Owns n e → ∃ c, u.calls[n]? = some c ∧ s.Fits es n e c.stage)
    (hreplies : ∀ r ∈ u.replies, r.stage ≠ .found → s.Resolved r.entry)
    (hprocessed : ∀ y ∈ u.sweeps, ∀ id ∈ y.stage.processed,
      ∃ x ∈ s.sweeps, id ∈ x.stage.processed) : Tidy (es ++ [ev]) u := by
  have hslots : u.store.slots = s.store.slots := by
    rw [hstore, PendingStore.removeAll_eq fun r hr => h.correlated.kept_of_mem hr]
  have hsame := resolved_congr hslots
  have hfailed : ∀ n, Failed (es ++ [ev]) n ↔ Failed es n := fun n => failed_append_of_ne hev
  refine h.change ids hu hregistered ?_ (fun e => (hsame e).mpr) ?_ hremoving ?_ ?_ ?_ ?_ ?_
  · intro e
    rw [hstore]
    exact mem_removeAll h.correlated ids
  · intro e _ hr
    exact .inl ((hsame e).mp hr)
  · intro n e howns hid
    exact .inl (hgone e ⟨n, howns⟩ hid)
  · intro n hf
    exact .inl ((hfailed n).mp hf)
  · intro n e howns
    obtain ⟨c, hc, hfit⟩ := hfits n e howns
    exact ⟨c, hc, hfit.mono (hsame e).mpr (hfailed n)⟩
  · intro r hr hfound
    exact (hsame r.entry).mpr (hreplies r hr hfound)
  · intro y hy id hid
    obtain ⟨x, hx, hid⟩ := hprocessed y hy id hid
    obtain ⟨e, hknows, hid, hr⟩ := h.processed x hx id hid
    exact ⟨e, hknows, hid, (hsame e).mpr hr⟩

/-- A call that resolved its own slot removes its request. -/
theorem Tidy.withdraw (h : Tidy es s) (hdistinct : s.Distinct)
    (hcall : s.calls[n]? = some ⟨d, .resigned q⟩) :
    Tidy (es ++ [.withdraw n])
      { s.withCall n d (.withdrawn q) with store := s.store.remove q.id } := by
  obtain ⟨e, ⟨howns, -⟩, -⟩ := h.correlated.calls _ _ hcall
  obtain ⟨hid, -, hr, -⟩ := h.fits_of_call hcall howns
  refine h.leave [q.id] (h.correlated.step (.withdraw hcall)) nofun rfl rfl ?_ ?_
    (h.fits_withCall hcall (fun _ _ hfits => hfits) fun _ _ _ _ hfits => hfits) h.replies ?_
  · rintro id (hreplies | ⟨k, d', q', hk, hid⟩ | hsweeps)
    · exact .inr (.inl hreplies)
    · rcases eq_or_getElem?_set hcall hk ⟨d, .withdrawn q⟩ with ⟨-, hsame⟩ | hset
      · obtain rfl := Call.Stage.resigned.inj (Call.mk.inj hsame).2
        exact .inl (List.mem_singleton.mpr hid.symm)
      · exact .inr (.inr (.inl ⟨k, d', q', hset, hid⟩))
    · exact .inr (.inr (.inr hsweeps))
  · rintro e' ⟨k, howns'⟩ hmem
    have hsame : e'.id = e.id := (List.mem_singleton.mp hmem).trans hid
    obtain ⟨-, rfl⟩ := hdistinct.unique howns' howns hsame
    exact hr
  · intro x hx id hid
    exact ⟨x, hx, hid⟩

/-- A response removes the request that it answered. -/
theorem Tidy.clear {i : Nat} {r : Reply} (h : Tidy es s) (hdistinct : s.Distinct)
    (hreply : s.replies[i]? = some r) (hstage : r.stage = .resolved) :
    Tidy (es ++ [.clear i])
      { s.withReply i r .cleared with store := s.store.remove r.response.id } := by
  have hmem := List.mem_of_getElem? hreply
  obtain ⟨hknows, hid⟩ := h.correlated.replies r hmem
  have hr : s.Resolved r.entry := h.replies r hmem (by simp [hstage])
  refine h.leave [r.response.id] (h.correlated.step (.clear hreply hstage)) nofun rfl rfl
    ?_ ?_ h.fits ?_ ?_
  · rintro id (⟨j, r', hr', hremoves, hid⟩ | hcalls | hsweeps)
    · rcases eq_or_getElem?_set hreply hr' { r with stage := .cleared } with ⟨-, rfl⟩ | hset
      · exact .inl (List.mem_singleton.mpr hid.symm)
      · exact .inr (.inl ⟨j, r', hset, hremoves, hid⟩)
    · exact .inr (.inr (.inl hcalls))
    · exact .inr (.inr (.inr hsweeps))
  · rintro e' ⟨k, howns'⟩ hmem
    obtain ⟨n, howns⟩ := hknows
    have hsame : e'.id = r.entry.id := (List.mem_singleton.mp hmem).trans hid
    obtain ⟨-, rfl⟩ := hdistinct.unique howns' howns hsame
    exact hr
  · intro r' hr' hfound
    rcases List.mem_or_eq_of_mem_set hr' with hr' | rfl
    · exact h.replies r' hr' hfound
    · exact hr
  · intro x hx id hid
    exact ⟨x, hx, hid⟩

/-- A sweep removes the requests that it has dealt with. -/
theorem Tidy.finish {now : Instant} {processed : List RequestId} (h : Tidy es s)
    (hdistinct : s.Distinct) (hsweep : s.sweeps[k]? = some ⟨now, .visiting [] processed⟩) :
    Tidy (es ++ [.finish k])
      { s.withSweep k now .ended with store := s.store.removeAll processed.reverse } := by
  refine h.leave processed.reverse (h.correlated.step (.finish hsweep)) nofun rfl rfl
    ?_ ?_ h.fits h.replies ?_
  · rintro id (hreplies | hcalls | ⟨j, x, hx, hid⟩)
    · exact .inr (.inl hreplies)
    · exact .inr (.inr (.inl hcalls))
    · rcases eq_or_getElem?_set hsweep hx ⟨now, .ended⟩ with ⟨-, rfl⟩ | hset
      · exact .inl (List.mem_reverse.mpr hid)
      · exact .inr (.inr (.inr ⟨j, x, hset, hid⟩))
  · rintro e' ⟨m, howns'⟩ hmem
    have hvisited : e'.id ∈ Sweeping.Stage.processed (.visiting [] processed) :=
      List.mem_reverse.mp hmem
    obtain ⟨e, ⟨n, howns⟩, hid, hr⟩ :=
      h.processed _ (List.mem_of_getElem? hsweep) e'.id hvisited
    obtain ⟨-, rfl⟩ := hdistinct.unique howns howns' hid
    exact hr
  · intro y hy id hid
    rcases List.mem_or_eq_of_mem_set hy with hy | rfl
    · exact ⟨y, hy, hid⟩
    · cases hid

/-- The transport refuses a request, and the call removes it. -/
theorem Tidy.producedError {message : TransportMessage} {cause : Failure} (h : Tidy es s)
    (hdistinct : s.Distinct) (hcall : s.calls[n]? = some ⟨d, .underway q⟩)
    (hstage : q.stage = .producing message) :
    Tidy (es ++ [.produced n (.error cause)])
      { s.withCall n d (.underway (q.produced s.store message (.error cause)).2) with
        store := s.store.remove q.id } := by
  obtain ⟨e, ⟨howns, -⟩, -⟩ := h.correlated.calls _ _ hcall
  obtain ⟨hid, -, -, -⟩ := h.fits_of_call hcall howns
  have hu := h.correlated.step (.produced hcall hstage (.error cause))
  have hremove := PendingStore.remove_of_kept (fun r hr => h.correlated.kept_of_mem hr) q.id
  have hslots : (s.store.remove q.id).slots = s.store.slots := by rw [hremove]
  have hsame : ∀ e, Resolved { s.withCall n d (.underway
      (q.produced s.store message (.error cause)).2) with store := s.store.remove q.id } e ↔
        s.Resolved e := resolved_congr hslots
  refine h.change [q.id] hu rfl ?_ (fun e => (hsame e).mpr) ?_ ?_ ?_ ?_
    (h.fits_withCall hcall ?_ ?_) ?_ ?_
  · intro e'
    exact mem_removeAll h.correlated [q.id]
  · intro e' _ hr
    exact .inl ((hsame e').mp hr)
  · intro id hremoves
    exact .inr (removing_withCall hcall nofun hremoves)
  · intro m e' howns' hmem
    have hids : e'.id = e.id := (List.mem_singleton.mp hmem).trans hid
    exact .inr (failed_append_produced.mpr (.inr (hdistinct.unique howns' howns hids).1))
  · intro m hf
    refine (failed_append_produced.mp hf).imp_right ?_
    rintro rfl
    refine ⟨⟨e, howns⟩, fun e' howns' => ?_⟩
    exact List.mem_singleton.mpr (h.fits_of_call hcall howns').1.symm
  · rintro e' - ⟨hid, hslot, -, -⟩
    refine ⟨hid, hslot, fun _ => ⟨_, rfl⟩, fun _ _ => .inr ?_⟩
    exact failed_append_produced.mpr (.inr rfl)
  · intro m e' stage hm hfits
    refine hfits.mono (hsame e').mpr (failed_append_produced.trans ?_)
    exact or_iff_left fun heq => hm heq.symm
  · intro r hr hfound
    exact (hsame r.entry).mpr (h.replies r hr hfound)
  · intro x hx id hid
    obtain ⟨e', hknows, hid, hr⟩ := h.processed x hx id hid
    exact ⟨e', hknows, hid, (hsame e').mpr hr⟩

/-! ## Registrations -/

theorem owns_or_eq_of_enroll {m : Nat} (h : (s.enroll n e').Owns m e) :
    s.Owns m e ∨ (m = n ∧ e = e') :=
  (getElem?_or_eq_of_concat h).imp_right Registration.mk.inj

theorem resolved_enroll (s : Exchange τ ι κ) (n : Nat) (e' e : PendingRequest) :
    (s.enroll n e').Resolved e ↔ s.Resolved e := by
  have hslot : (s.enroll n e').store.slot e.slot = s.store.slot e.slot :=
    PendingStore.slot_append _ e.slot
  rw [Resolved, Resolved, hslot]

/-- A request whose slot is still to be made belongs to no call yet. -/
theorem Correlated.not_owns_new {m : Nat} (h : Correlated s)
    (hslot : e.slot = s.store.slots.length) : ¬s.Owns m e := by
  intro howns
  rw [Owns, hslot, ← h.size, List.getElem?_eq_none (Nat.le_refl _)] at howns
  cases howns

/-- A slot that is still to be made has no outcome. -/
theorem not_resolved_new (hslot : e.slot = s.store.slots.length) : ¬s.Resolved e := by
  have hnone : s.store.slot s.store.slots.length = default := by simp [PendingStore.slot]
  rw [Resolved, hslot, hnone]
  exact Bool.false_ne_true

/-- A call registers its request. -/
theorem Tidy.register {settings : RequestResponseSettings} {created : Instant} {id : RequestId}
    {store : PendingStore} (h : Tidy es s)
    (hcall : s.calls[n]? = some ⟨d, .stamped settings created⟩)
    (hopen : s.bus.openRequest s.nativeHeaders settings s.store id created d = .ok (store, q))
    (hentry : store.find? id = some e) :
    Tidy (es ++ [.register n id])
      { s.withCall n d (.underway q) with store, registered := s.registered ++ [⟨n, e⟩] } := by
  have hu := h.correlated.step (.register hcall hopen hentry)
  obtain ⟨e', message, rfl, hfind, -, hslot, hstage, hopened⟩ := Bus.openRequest_ok hopen
  obtain rfl := Option.some.inj (hfind.symm.trans hentry)
  obtain ⟨hn, -⟩ := List.getElem?_eq_some_iff.mp hcall
  have hnone : ∀ e, ¬s.Owns n e := fun e => h.not_owns hcall fun _ => not_false
  have hgoing : ¬Failed es n := fun hf => (h.known n hf).elim hnone
  have hfailed : ∀ m, Failed (es ++ [.register n id]) m ↔ Failed es m := fun m =>
    failed_append_of_ne nofun
  have hgrows : ∀ m e, s.Owns m e → (s.enroll n e').Owns m e := fun m e hm =>
    hm.mono (.enroll s n e')
  have hsame : ∀ e, ((s.enroll n e').withCall n d (.underway q)).Resolved e ↔ s.Resolved e :=
    s.resolved_enroll n e'
  refine ⟨hu, ?_, ?_, ?_, ?_, ?_, ?_, ?_⟩
  · intro m e hm
    rcases owns_or_eq_of_enroll hm with hm | ⟨rfl, rfl⟩
    · obtain ⟨c, hc, hfits⟩ := h.fits m e hm
      have hne : n ≠ m := fun heq => hnone e (heq ▸ hm)
      exact ⟨c, (List.getElem?_set_ne hne).trans hc, hfits.mono (hsame e).mpr (hfailed m)⟩
    · refine ⟨_, List.getElem?_set_self hn, hopened.id, hopened.slot, ?_, ?_⟩
      · intro hf
        exact absurd ((hfailed m).mp hf) hgoing
      · intro result hresult
        rw [hstage] at hresult
        cases hresult
  · intro m hf
    obtain ⟨e, hm⟩ := h.known m ((hfailed m).mp hf)
    exact ⟨e, hgrows m e hm⟩
  · intro m e hm hr hf
    rcases owns_or_eq_of_enroll hm with hm | ⟨-, rfl⟩
    · have hopen : ¬s.Resolved e := fun hr' => hr ((hsame e).mpr hr')
      exact List.mem_append_left _ (h.present m e hm hopen fun hf' => hf ((hfailed m).mpr hf'))
    · exact List.mem_append_right _ (List.mem_singleton_self _)
  · intro m e hown hf hmem
    rcases owns_or_eq_of_enroll hown with hm | ⟨rfl, -⟩
    · rcases List.mem_append.mp hmem with hmem | hmem
      · exact h.refused m e hm ((hfailed m).mp hf) hmem
      · obtain rfl := List.mem_singleton.mp hmem
        exact h.correlated.not_owns_new hslot hm
    · exact hgoing ((hfailed m).mp hf)
  · intro e hmem hr
    have hbefore : s.Resolved e := (hsame e).mp hr
    rcases List.mem_append.mp hmem with hmem | hmem
    · exact removing_withCall (s := s.enroll n e') hcall nofun (h.leaving e hmem hbefore)
    · obtain rfl := List.mem_singleton.mp hmem
      exact absurd hbefore (not_resolved_new hslot)
  · intro r hr hfound
    exact (hsame r.entry).mpr (h.replies r hr hfound)
  · intro x hx id hid
    obtain ⟨e, ⟨m, hm⟩, hid, hr⟩ := h.processed x hx id hid
    exact ⟨e, ⟨m, hgrows m e hm⟩, hid, (hsame e).mpr hr⟩

/-! ## Steps -/

/-- What an exchange remembers of registrations only grows. -/
theorem Step.registered (hstep : Step s ev u) : s.registered <+: u.registered := by
  cases hstep
  case register => exact List.prefix_append _ _
  all_goals exact List.prefix_refl _

theorem Distinct.of_prefix (h : u.Distinct) (hgrown : s.registered <+: u.registered) :
    s.Distinct :=
  h.sublist (hgrown.sublist.map _)

/-- **Every step keeps a store tidy**, as long as no two requests have the same id. -/
theorem Tidy.step (h : Tidy es s) (hdistinct : s.Distinct) (hstep : Step s ev u) :
    Tidy (es ++ [ev]) u := by
  have hu := h.correlated.step hstep
  cases hstep with
  | clock now => exact h.quiet hu nofun { Quiet.refl es s with }
  | cancel token => exact h.quiet hu nofun { Quiet.refl es s with }
  | dispose hbegin => exact h.quiet hu nofun { Quiet.refl es s with }
  | disposed => exact h.quiet hu nofun { Quiet.refl es s with }
  | call draft => exact h.quiet hu nofun (.call es s draft)
  | ask hcall =>
    exact h.quiet hu nofun (.withCall hcall nofun (fun _ _ => False.elim) rfl fun _ => rfl)
  | stamp hcall =>
    exact h.quiet hu nofun (.withCall hcall nofun (fun _ _ => False.elim) rfl fun _ => rfl)
  | register hcall hopen hentry => exact h.register hcall hopen hentry
  | refuse hcall hopen =>
    exact h.quiet hu nofun (.withCall hcall nofun (fun _ _ => False.elim) rfl fun _ => rfl)
  | produced hcall hstage result =>
    cases result with
    | ok _ => exact h.quiet hu nofun (h.accepted hcall hstage)
    | error cause => exact h.producedError hdistinct hcall hstage
  | poll hcall hstage => exact h.quiet hu nofun (h.polled hcall hstage)
  | resign hcall hstage hcancelled => exact h.resign hcall hstage hcancelled
  | withdraw hcall => exact h.withdraw hdistinct hcall
  | collect hcall => exact h.quiet hu nofun (.collect hcall)
  | arrive hfind => exact h.quiet hu nofun (.arrive es s _ _)
  | discard hfind => exact h.quiet hu nofun (.refl es s)
  | answer hreply hstage => exact h.answer hreply hstage
  | clear hreply hstage => exact h.clear hdistinct hreply hstage
  | sweep => exact h.quiet hu nofun (.sweep es s)
  | gather hsweep => exact h.quiet hu nofun (.withSweep hsweep rfl)
  | @inspect k now e remaining processed hsweep =>
    have hquiet : Quiet es s (s.withSweep k now
        (.striking (Sweep.reason (s.setting now) e) e remaining processed)) := .withSweep hsweep rfl
    exact h.quiet hu nofun { hquiet with }
  | strike hsweep => exact h.strike hsweep
  | finish hsweep => exact h.finish hdistinct hsweep

/-! ## Runs -/

/-- Every run in which no two requests have the same id leaves the store tidy. -/
theorem Tidy.of_run {bus : Bus τ ι κ} {nativeHeaders : Bool} {clock : Instant} {tokens : Tokens}
    (hrun : Run Step (Exchange.initial bus nativeHeaders clock tokens) es t)
    (hdistinct : t.Distinct) : Tidy es t := by
  have htidy := hrun.history (fun es s => s.Distinct → Tidy es s)
    (fun _ => .initial bus nativeHeaders clock tokens) ?_
  · exact htidy hdistinct
  · intro ds s ev u h hstep hu
    have hs := hu.of_prefix hstep.registered
    exact (h hs).step hs hstep

/-- Unless somebody is about to remove it, a request is in the store if it was registered, is not
resolved and was not refused by the transport. -/
theorem Tidy.isSome_find?_iff {id : RequestId} (h : Tidy es s) (hfree : ¬s.Removing id) :
    (s.store.find? id).isSome = true ↔
      ∃ n e, s.Owns n e ∧ e.id = id ∧ ¬s.Resolved e ∧ ¬Failed es n := by
  constructor
  · intro hfind
    obtain ⟨e, hfind⟩ := Option.isSome_iff_exists.mp hfind
    obtain rfl := PendingStore.id_of_find? hfind
    have hmem := PendingStore.mem_of_find? hfind
    obtain ⟨n, howns⟩ := h.correlated.entries e hmem
    exact ⟨n, e, howns, rfl, fun hr => hfree (h.leaving e hmem hr),
      fun hf => h.refused n e howns hf hmem⟩
  · rintro ⟨n, e, howns, rfl, hr, hf⟩
    have hmem := h.present n e howns hr hf
    exact List.find?_isSome.mpr ⟨e, hmem, beq_self_eq_true e.id⟩

/-- A call that has its result has left nothing in the store, unless whoever resolved its request
is about to remove it. -/
theorem Tidy.find?_of_ended {result : Except Failure Json} (h : Tidy es s) (hdistinct : s.Distinct)
    (hcall : s.calls[n]? = some ⟨d, .underway q⟩) (hresult : q.stage = .ended result)
    (hfree : ¬s.Removing q.id) : s.store.find? q.id = none := by
  obtain ⟨e, ⟨howns, -⟩, -⟩ := h.correlated.calls _ _ hcall
  obtain ⟨hid, -, -, hwhy⟩ := h.fits_of_call hcall howns
  refine Option.not_isSome_iff_eq_none.mp fun hfind => ?_
  obtain ⟨k, e', howns', hid', hr, hf⟩ := (h.isSome_find?_iff hfree).mp hfind
  obtain ⟨rfl, rfl⟩ := hdistinct.unique howns' howns (hid'.trans hid)
  rcases hwhy result hresult with hr' | hf'
  · exact hr hr'
  · exact hf hf'

end Exchange
end Courier
