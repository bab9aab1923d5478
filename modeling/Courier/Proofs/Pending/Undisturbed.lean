import Courier.Pending.Sweep
import Courier.Proofs.Pending.Entries

/-!
# Sweeps that are left alone

A sweep finds what is due, gives up one request after the other, and removes all of them at the end.
These are three passes over a store, and the store may yield its entries in any order.

Where the owner does nothing when told, nobody comes in between: `run_of_passive`.  Each entry has a
slot of its own, so what becomes of one request does not depend on the others, and `slot_clean` says
what a sweep leaves in a slot.

Main statements: `gives_up_what_is_due` (what becomes of every entry, every slot and every notice,
and that the order of the entries does not matter) and `tick_eq_clean` (the guard changes nothing of
this).
-/

namespace Courier

namespace Sweep

variable {c : Setting} {s : PendingStore} {r : PendingRequest} {rs : List PendingRequest}
variable {i : SlotIndex}

/-! ## One request after the other -/

/-- The outcome of a request that a sweep gives up. -/
abbrev verdict (c : Setting) (r : PendingRequest) : Outcome := .cancelled (reason c r)

/-- The store when these requests have been given up. -/
def givenUp (c : Setting) (s : PendingStore) : List PendingRequest → PendingStore
  | [] => s
  | r :: rs => givenUp c (s.resolve r.slot (verdict c r)).1 rs

/-- The requests among these whose outcome a sweep wins. -/
def won (s : PendingStore) (rs : List PendingRequest) : List PendingRequest :=
  rs.filter fun r => !(s.slot r.slot).isResolved

/-- What the owner is told about requests whose outcome was won. -/
def tidings (c : Setting) (rs : List PendingRequest) : List Notice :=
  if c.told then rs.map (.timeout ·.request) else []

theorem tidings_cons (c : Setting) (r : PendingRequest) (rs : List PendingRequest) :
    tidings c (r :: rs) = (if c.told then [.timeout r.request] else []) ++ tidings c rs := by
  unfold tidings
  split <;> rfl

theorem won_resolve (o : Outcome) (h : r.slot ∉ rs.map (·.slot)) :
    won (s.resolve r.slot o).1 rs = won s rs := by
  refine List.filter_congr ?_
  intro e he
  have hne : e.slot ≠ r.slot := by
    intro hslot
    exact h (List.mem_map.mpr ⟨e, he, hslot⟩)
  rw [PendingStore.isResolved_resolve_of_ne o hne]

@[simp] theorem entries_givenUp (rs : List PendingRequest) :
    (givenUp c s rs).entries = s.entries := by
  induction rs generalizing s with
  | nil => rfl
  | cons r rs ih => exact ih

@[simp] theorem length_slots_givenUp (rs : List PendingRequest) :
    (givenUp c s rs).slots.length = s.slots.length := by
  induction rs generalizing s with
  | nil => rfl
  | cons r rs ih =>
    exact (ih (s := (s.resolve r.slot (verdict c r)).1)).trans (PendingStore.length_slots_setSlot _)

theorem slot_givenUp_of_notMem (h : i ∉ rs.map (·.slot)) :
    (givenUp c s rs).slot i = s.slot i := by
  induction rs generalizing s with
  | nil => rfl
  | cons r rs ih =>
    obtain ⟨hne, hrest⟩ := List.ne_and_not_mem_of_not_mem_cons h
    exact (ih hrest).trans (PendingStore.slot_setSlot_of_ne hne)

/-- A request that is given up gets the outcome, unless it has one. -/
theorem slot_givenUp (hdistinct : (rs.map (·.slot)).Nodup) (hr : r ∈ rs)
    (hlt : r.slot < s.slots.length) :
    (givenUp c s rs).slot r.slot = ((s.slot r.slot).resolve (verdict c r)).1 := by
  induction rs generalizing s with
  | nil => cases hr
  | cons e rs ih =>
    obtain ⟨hnew, hrest⟩ := List.nodup_cons.mp hdistinct
    rcases List.mem_cons.mp hr with rfl | hr
    · rw [givenUp, slot_givenUp_of_notMem hnew]
      exact (PendingStore.slot_setSlot hlt _).trans (if_pos rfl)
    · have hne : r.slot ≠ e.slot := by
        intro hslot
        exact hnew (List.mem_map.mpr ⟨r, hr, hslot⟩)
      have hlt' : r.slot < (s.resolve e.slot (verdict c e)).1.slots.length :=
        PendingStore.length_slots_setSlot (s := s) _ ▸ hlt
      have hsame : (s.resolve e.slot (verdict c e)).1.slot r.slot = s.slot r.slot :=
        PendingStore.slot_setSlot_of_ne hne
      rw [givenUp, ih hrest hr hlt', hsame]

/-! ## Whole sweeps -/

theorem run_idle {v : State} (h : v.frames = []) (fuel : Nat) : run c v fuel = v := by
  cases fuel with
  | zero => rfl
  | succ fuel => simp [run, step, h]

/-- An owner who does nothing when told leaves a sweep alone with the requests that it found. -/
theorem run_of_passive (hpassive : c.owner = []) {v : State} {f : Frame} {fuel : Nat}
    (hframes : v.frames = [f]) (hreactions : f.reactions = [])
    (hdistinct : (f.remaining.map (·.slot)).Nodup) (hfuel : f.remaining.length < fuel) :
    run c v fuel = close
      { v with
        store := givenUp c v.store f.remaining
        notices := (tidings c (won v.store f.remaining)).reverse ++ v.notices }
      { f with processed := (f.remaining.map (·.id)).reverse ++ f.processed } [] := by
  generalize hremaining : f.remaining = rs at hdistinct hfuel
  induction rs generalizing v f fuel with
  | nil =>
    obtain ⟨fuel, rfl⟩ := Nat.exists_eq_add_one.mpr hfuel
    have hnotices : (tidings c (won v.store [])).reverse = [] := by
      unfold tidings
      split <;> rfl
    simp only [run, step, hframes, hreactions, hremaining, givenUp, hnotices]
    exact run_idle rfl fuel
  | cons r rs ih =>
    obtain ⟨fuel, rfl⟩ := Nat.exists_eq_add_one.mpr (Nat.zero_lt_of_lt hfuel)
    obtain ⟨hnew, hrest⟩ := List.nodup_cons.mp hdistinct
    have hgo : step c v = some (giveUp c v f r rs []) := by
      simp only [step, hframes, hreactions, hremaining]
    have hframe : (giveUp c v f r rs []).frames =
        [{ f with remaining := rs, processed := r.id :: f.processed, reactions := [] }] := by
      simp only [giveUp, hpassive, ite_self]
    have hnotices : (tidings c (won (giveUp c v f r rs []).store rs)).reverse ++
        (giveUp c v f r rs []).notices =
        (tidings c (won v.store (r :: rs))).reverse ++ v.notices := by
      have hrest : won (giveUp c v f r rs []).store rs = won v.store rs := won_resolve _ hnew
      rw [hrest]
      cases hresolved : (v.store.slot r.slot).isResolved with
      | true =>
        have hwon : won v.store (r :: rs) = won v.store rs := by simp [won, hresolved]
        simp [hwon, giveUp, PendingStore.resolve_of_resolved _ hresolved]
      | false =>
        have hwon : won v.store (r :: rs) = r :: won v.store rs := by simp [won, hresolved]
        rw [hwon, tidings_cons]
        cases htold : c.told <;>
          simp [giveUp, PendingStore.resolve_of_unresolved _ hresolved, htold]
    have hprocessed : (rs.map (·.id)).reverse ++ r.id :: f.processed =
        ((r :: rs).map (·.id)).reverse ++ f.processed := by simp
    have hrun := ih (v := giveUp c v f r rs []) hframe rfl rfl hrest (by simpa using hfuel)
    simp only [hnotices, hprocessed] at hrun
    simp only [run, hgo, hrun]
    rfl

/-- Without anybody in between, a guarded sweep and one without the guard do the same. -/
theorem run_frame_of_passive (hpassive : c.owner = []) (h : s.WellFormed) (g : Guard)
    (guarded : Bool) :
    run c { guard := g, store := s, frames := [frame c guarded false s] } (fuel c s) =
      (let due := s.due c.isCancelled c.now
       { guard := if guarded then { g with inProgress := false } else g
         store := (givenUp c s due).removeAll (due.map (·.id))
         notices := (tidings c (won s due)).reverse }) := by
  have hdistinct := h.nodup_due c.isCancelled c.now
  have hfuel : (s.due c.isCancelled c.now).length < fuel c s := by
    have hle : (s.due c.isCancelled c.now).length ≤ s.entries.length := List.length_filter_le ..
    simp only [fuel, hpassive, List.length_nil]
    omega
  rw [run_of_passive (f := frame c guarded false s) hpassive rfl rfl hdistinct hfuel]
  cases guarded <;> simp [close, frame]

theorem clean_of_passive (hpassive : c.owner = []) (h : s.WellFormed) (g : Guard) :
    clean c g s =
      (let due := s.due c.isCancelled c.now
       { guard := g, store := (givenUp c s due).removeAll (due.map (·.id))
         notices := (tidings c (won s due)).reverse }) :=
  run_frame_of_passive hpassive h g false

/-- A guarded sweep that may run does what one without the guard does. -/
theorem tick_eq_clean (hpassive : c.owner = []) (h : s.WellFormed) {g : Guard}
    (hlive : g.disposed = false) (hfree : g.inProgress = false) :
    tick c g s = (clean c g s, true) := by
  obtain ⟨inProgress, disposed⟩ := g
  obtain rfl : inProgress = false := hfree
  obtain rfl : disposed = false := hlive
  rw [clean_of_passive hpassive h]
  exact congrArg (·, true) (run_frame_of_passive hpassive h { inProgress := true } true)

theorem slot_clean (hpassive : c.owner = []) (h : s.WellFormed) (g : Guard)
    (hr : r ∈ s.entries) :
    (clean c g s).store.slot r.slot =
      if r.isDue c.isCancelled c.now then
        PendingStore.released r ((s.slot r.slot).resolve (verdict c r)).1
      else s.slot r.slot := by
  have hwell : (givenUp c s (s.due c.isCancelled c.now)).WellFormed :=
    h.of_sublist (by simp) (length_slots_givenUp _)
  have hdistinct := h.nodup_due c.isCancelled c.now
  have hid : r.id ∈ (s.due c.isCancelled c.now).map (·.id) ↔ r.isDue c.isCancelled c.now = true :=
    PendingStore.mem_map_filter_iff h.ids hr
  have hslot : r.slot ∈ (s.due c.isCancelled c.now).map (·.slot) ↔
      r.isDue c.isCancelled c.now = true := PendingStore.mem_map_filter_iff h.slots hr
  simp only [clean_of_passive hpassive h]
  rw [PendingStore.slot_removeAll hwell (by simpa using hr)]
  by_cases hdue : r.isDue c.isCancelled c.now = true
  · rw [if_pos (hid.mpr hdue), if_pos hdue,
      slot_givenUp hdistinct (List.mem_filter.mpr ⟨hr, hdue⟩) (h.inRange r hr)]
  · rw [if_neg (mt hid.mp hdue), if_neg hdue, slot_givenUp_of_notMem (mt hslot.mp hdue)]

theorem slot_clean_of_foreign (hpassive : c.owner = []) (h : s.WellFormed) (g : Guard)
    (hforeign : ∀ r ∈ s.entries, r.slot ≠ i) : (clean c g s).store.slot i = s.slot i := by
  have huntouched : i ∉ (s.due c.isCancelled c.now).map (·.slot) := by
    intro hmem
    obtain ⟨e, he, hslot⟩ := List.mem_map.mp hmem
    exact hforeign e (List.mem_of_mem_filter he) hslot
  simp only [clean_of_passive hpassive h]
  rw [PendingStore.slot_removeAll_of_foreign _ (by simpa using hforeign),
    slot_givenUp_of_notMem huntouched]

theorem length_slots_clean (hpassive : c.owner = []) (h : s.WellFormed) (g : Guard) :
    (clean c g s).store.slots.length = s.slots.length := by
  simp only [clean_of_passive hpassive h]
  rw [PendingStore.length_slots_removeAll, length_slots_givenUp]

theorem entries_clean (hpassive : c.owner = []) (h : s.WellFormed) (g : Guard) :
    (clean c g s).store.entries = s.entries.filter fun r => !r.isDue c.isCancelled c.now := by
  simp only [clean_of_passive hpassive h]
  rw [PendingStore.entries_removeAll, entries_givenUp]
  refine List.filter_congr ?_
  intro r hr
  congr 1
  rw [Bool.eq_iff_iff, List.contains_iff_mem]
  exact PendingStore.mem_map_filter_iff h.ids hr

/-- Outcomes that are there stay. -/
theorem outcome_clean {o : Outcome} (hpassive : c.owner = []) (h : s.WellFormed) (g : Guard)
    (hsome : (s.slot i).outcome = some o) :
    ((clean c g s).store.slot i).outcome = some o := by
  by_cases howned : ∃ r ∈ s.entries, r.slot = i
  · obtain ⟨r, hr, rfl⟩ := howned
    have hresolved : (s.slot r.slot).isResolved = true := by simp [Slot.isResolved, hsome]
    rw [slot_clean hpassive h g hr]
    split
    · rw [PendingStore.outcome_released, Slot.resolve_of_resolved _ hresolved, hsome]
    · exact hsome
  · rw [slot_clean_of_foreign hpassive h g (by simpa using howned), hsome]

/-- A request that is due and has no outcome gets one. -/
theorem outcome_clean_of_due (hpassive : c.owner = []) (h : s.WellFormed) (g : Guard)
    (hr : r ∈ s.entries) (hdue : r.isDue c.isCancelled c.now = true)
    (hnone : (s.slot r.slot).outcome = none) :
    ((clean c g s).store.slot r.slot).outcome = some (verdict c r) := by
  have hunresolved : (s.slot r.slot).isResolved = false := by simp [Slot.isResolved, hnone]
  rw [slot_clean hpassive h g hr, if_pos hdue, PendingStore.outcome_released,
    Slot.resolve_of_unresolved _ hunresolved]

/-- The order of the entries does not matter to any slot. -/
theorem slots_clean_of_perm {u : PendingStore} (hpassive : c.owner = []) (h : s.WellFormed)
    (g : Guard) (hentries : u.entries.Perm s.entries) (hslots : u.slots = s.slots) :
    (clean c g u).store.slots = (clean c g s).store.slots := by
  have hother := h.of_perm hentries hslots
  have hsame := PendingStore.slot_of_slots_eq hslots
  refine PendingStore.slots_ext ?_ ?_
  · rw [length_slots_clean hpassive hother, length_slots_clean hpassive h, hslots]
  · intro j
    by_cases howned : ∃ r ∈ s.entries, r.slot = j
    · obtain ⟨r, hr, rfl⟩ := howned
      rw [slot_clean hpassive hother g (hentries.mem_iff.mpr hr), slot_clean hpassive h g hr, hsame]
    · have hforeign : ∀ r ∈ s.entries, r.slot ≠ j := by simpa using howned
      have hforeign' : ∀ r ∈ u.entries, r.slot ≠ j := by
        intro r hr
        exact hforeign r (hentries.subset hr)
      rw [slot_clean_of_foreign hpassive hother g hforeign',
        slot_clean_of_foreign hpassive h g hforeign, hsame]

/-- What a sweep at `c.now` makes of the store `s`, and what its owner is told. -/
structure GivesUpDue (c : Setting) (s : PendingStore) (t : State) : Prop where
  /-- What is due leaves the store, and nothing else does. -/
  entries : t.store.entries = s.entries.filter fun r =>
    !(decide (r.expires ≤ c.now) || c.isCancelled r.token)
  cancelled : ∀ r ∈ s.entries, (s.slot r.slot).outcome = none → c.isCancelled r.token = true →
    (t.store.slot r.slot).outcome = some (.cancelled .cancelled)
  timedOut : ∀ r ∈ s.entries, (s.slot r.slot).outcome = none → c.isCancelled r.token = false →
    r.expires ≤ c.now → (t.store.slot r.slot).outcome = some (.cancelled .timedOut)
  /-- What stays in the store keeps its slot as it is. -/
  spared : ∀ r ∈ t.store.entries, t.store.slot r.slot = s.slot r.slot
  /-- What has no entry keeps its slot as it is. -/
  foreign : ∀ i, (∀ r ∈ s.entries, r.slot ≠ i) → t.store.slot i = s.slot i
  /-- An outcome that was delivered before does not change. -/
  delivered : ∀ i o, (s.slot i).outcome = some o → (t.store.slot i).outcome = some o
  /-- The owner is told of each request that got its outcome from the sweep, once, and of no
  other. -/
  notices : t.notices.reverse = if c.told then
      (s.entries.filter fun r => (decide (r.expires ≤ c.now) || c.isCancelled r.token) &&
        (s.slot r.slot).outcome.isNone).map (.timeout ·.request)
    else []

theorem givesUpDue_clean (hpassive : c.owner = []) (h : s.WellFormed) (g : Guard) :
    GivesUpDue c s (clean c g s) where
  entries := entries_clean hpassive h g
  cancelled := by
    intro r hr hnone hcancelled
    have hdue : r.isDue c.isCancelled c.now = true := by simp [PendingRequest.isDue, hcancelled]
    rw [outcome_clean_of_due hpassive h g hr hdue hnone, verdict, reason, if_pos hcancelled]
  timedOut := by
    intro r hr hnone hcancelled hexpired
    have hdue : r.isDue c.isCancelled c.now = true := by simp [PendingRequest.isDue, hexpired]
    have hkept : ¬ c.isCancelled r.token = true := by simp [hcancelled]
    rw [outcome_clean_of_due hpassive h g hr hdue hnone, verdict, reason, if_neg hkept]
  spared := by
    intro r hr
    rw [entries_clean hpassive h] at hr
    obtain ⟨hr, hdue⟩ := List.mem_filter.mp hr
    rw [slot_clean hpassive h g hr, if_neg (by simpa using hdue)]
  foreign := fun _ hforeign => slot_clean_of_foreign hpassive h g hforeign
  delivered := fun _ _ hsome => outcome_clean hpassive h g hsome
  notices := by
    have hwon : won s (s.due c.isCancelled c.now) = s.entries.filter fun r =>
        (decide (r.expires ≤ c.now) || c.isCancelled r.token) &&
          (s.slot r.slot).outcome.isNone := by
      rw [won, PendingStore.due, List.filter_filter]
      refine List.filter_congr ?_
      intro r _
      rw [Bool.and_comm, PendingRequest.isDue, Slot.isResolved, Option.not_isSome]
    rw [clean_of_passive hpassive h, List.reverse_reverse, tidings, hwon]

/-- **A sweep that is left alone.**  Whatever is pending, and in whatever order the store yields it,
a sweep whose owner does nothing when told comes to its end.  It removes what is due, resolves what
of this has no outcome, and tells of each request that it has resolved.  The store that is left, the
outcomes and, but for their order, the notices do not depend on the order of the entries. -/
theorem gives_up_what_is_due (hpassive : c.owner = []) (h : s.WellFormed) (g : Guard) :
    ((clean c g s).frames = [] ∧ (clean c g s).failed = false ∧ (clean c g s).guard = g) ∧
    GivesUpDue c s (clean c g s) ∧
    ∀ u : PendingStore, u.entries.Perm s.entries → u.slots = s.slots →
      (clean c g u).store.entries.Perm (clean c g s).store.entries ∧
      (clean c g u).store.slots = (clean c g s).store.slots ∧
      (clean c g u).notices.Perm (clean c g s).notices := by
  refine ⟨?_, givesUpDue_clean hpassive h g, ?_⟩
  · simp only [clean_of_passive hpassive h, and_self]
  · intro u hentries hslots
    have hother := h.of_perm hentries hslots
    refine ⟨?_, slots_clean_of_perm hpassive h g hentries hslots, ?_⟩
    · rw [entries_clean hpassive hother, entries_clean hpassive h]
      exact hentries.filter _
    · have hsame := PendingStore.slot_of_slots_eq hslots
      have hmine := (givesUpDue_clean hpassive h g).notices
      have htheirs := (givesUpDue_clean hpassive hother g).notices
      simp only [hsame] at htheirs
      have hreversed : (clean c g u).notices.reverse.Perm (clean c g s).notices.reverse := by
        rw [hmine, htheirs]
        split
        · exact (hentries.filter _).map _
        · exact List.Perm.refl _
      exact ((List.reverse_perm _).symm.trans hreversed).trans (List.reverse_perm _)

/-- A request that expires at an instant and whose sender waits with this token. -/
def waiting (name : String) (token : Token) (expires : Instant) (slot : SlotIndex) :
    PendingRequest :=
  { id := ⟨name⟩, request := .text name, requestType := ⟨"Ask"⟩, responseType := ⟨"Told"⟩
    created := .min, expires, token, slot }

/-- One request has expired, one is cancelled, one has expired and has its response already, and one
still has time. -/
def mixed : PendingStore where
  entries := [waiting "late" ⟨0⟩ .epoch 0, waiting "given up" ⟨1⟩ .max 1,
    waiting "answered" ⟨0⟩ .epoch 2, waiting "early" ⟨0⟩ .max 3]
  slots := [{}, {}, { outcome := some (.response .null) }, {}]

/-- It is the start of 1970, the second token is cancelled, and the owner is told. -/
def newYear : Setting :=
  { now := .epoch, isCancelled := fun k => k == ⟨1⟩, owner := [], told := true }

theorem wellFormed_mixed : mixed.WellFormed := by
  refine ⟨by decide, by decide, ?_⟩
  simp [mixed, waiting]

/-- The same slots with the entries in the opposite order. -/
def mixedReversed : PendingStore := { mixed with entries := mixed.entries.reverse }

theorem gives_up_what_is_due_mixed :
    newYear.owner = [] ∧ mixed.WellFormed ∧ GivesUpDue newYear mixed (clean newYear {} mixed) ∧
    (clean newYear {} mixed).store.entries.map (·.id.text) = ["early"] ∧
    ((clean newYear {} mixed).store.slot 0).outcome = some (.cancelled .timedOut) ∧
    ((clean newYear {} mixed).store.slot 1).outcome = some (.cancelled .cancelled) ∧
    ((clean newYear {} mixed).store.slot 2).outcome = some (.response .null) ∧
    (clean newYear {} mixed).notices.reverse =
      [.timeout (.text "late"), .timeout (.text "given up")] ∧
    (clean newYear {} mixedReversed).notices.Perm (clean newYear {} mixed).notices := by
  obtain ⟨-, h, horder⟩ := gives_up_what_is_due (c := newYear) rfl wellFormed_mixed {}
  obtain ⟨-, -, hnotices⟩ := horder mixedReversed (List.reverse_perm _) rfl
  exact ⟨rfl, wellFormed_mixed, h, rfl, rfl, rfl, rfl, rfl, hnotices⟩

end Sweep
end Courier
