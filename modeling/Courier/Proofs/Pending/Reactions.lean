import Courier.Proofs.Pending.Undisturbed
import Courier.Proofs.Run

/-!
# Sweeps that an owner starts when told

An owner is told in the middle of a sweep, before anything is removed, and may start further sweeps,
guarded or not, dispose the sweeper, or fail.  What the innermost sweep finds then is the store as
the outer ones have left it: requests that are resolved and still stored, and requests that an outer
sweep has found and not yet reached.

`Step` is one action of the sweeper.  Clock, tokens and what the owner does next may be chosen anew
before every action, so a run covers every owner, also one that decides by what it sees.

Main statements: `Step.effect` (what an action changes that is seen from outside) and `Sound.step`
(the guard is set exactly while a guarded sweep is active, and sweeps refer to entries that were
pending when nothing was active).
-/

namespace Courier.Sweep

/-- What happens in a sweeper. -/
inductive Event
  /-- Somebody asks for a guarded sweep, and this says whether it runs. -/
  | tick (ran : Bool)
  | clean
  | dispose
  | fail
  /-- A sweep gives up a request, and this says whether the owner is told. -/
  | giveUp (r : PendingRequest) (told : Bool)
  /-- A sweep ends. -/
  | close (guarded : Bool)

/-- The event of a reaction. -/
def Event.ofReaction (c : Setting) (s : State) : Reaction → Event
  | .tick => .tick (startGuarded c true s).2
  | .clean => .clean
  | .dispose => .dispose
  | .fail => .fail

/-- One action of a sweeper.  While no sweep is active somebody may call it; otherwise the innermost
sweep goes on. -/
inductive Step : State → Event → State → Prop
  | tick {s : State} (c : Setting) (hidle : s.frames = []) :
      Step s (.tick (startGuarded c false s).2) (startGuarded c false s).1
  | clean {s : State} (c : Setting) (hidle : s.frames = []) :
      Step s .clean (startUnguarded c false s)
  | dispose {s : State} (c : Setting) (hidle : s.frames = []) :
      Step s .dispose (react c s .dispose)
  | react {s : State} {f : Frame} {below : List Frame} {a : Reaction} {rest : List Reaction}
      (c : Setting) (hframes : s.frames = f :: below) (hreactions : f.reactions = a :: rest) :
      Step s (.ofReaction c { s with frames := { f with reactions := rest } :: below } a)
        (react c { s with frames := { f with reactions := rest } :: below } a)
  | giveUp {s : State} {f : Frame} {below : List Frame} {r : PendingRequest}
      {rest : List PendingRequest} (c : Setting) (hframes : s.frames = f :: below)
      (hreactions : f.reactions = []) (hremaining : f.remaining = r :: rest) :
      Step s (.giveUp r ((s.store.resolve r.slot (verdict c r)).2 && c.told))
        (giveUp c s f r rest below)
  | close {s : State} {f : Frame} {below : List Frame} (hframes : s.frames = f :: below)
      (hreactions : f.reactions = []) (hremaining : f.remaining = []) :
      Step s (.close f.guarded) (close s f below)

variable {c : Setting} {s t : State} {e : Event} {first : PendingStore}
variable {f : Frame} {below : List Frame}

/-- While a sweep is active, an action is one that `Sweep.step` performs. -/
theorem Step.exists_step (h : Step s e t) (hactive : s.frames ≠ []) : ∃ c, step c s = some t := by
  cases h with
  | tick c hidle => exact absurd hidle hactive
  | clean c hidle => exact absurd hidle hactive
  | dispose c hidle => exact absurd hidle hactive
  | react c hframes hreactions => exact ⟨c, by simp only [step, hframes, hreactions]⟩
  | giveUp c hframes hreactions hremaining =>
    exact ⟨c, by simp only [step, hframes, hreactions, hremaining]⟩
  | close hframes hreactions hremaining =>
    let c : Setting := { now := .epoch, isCancelled := fun _ => false, owner := [], told := false }
    exact ⟨c, by simp only [step, hframes, hreactions, hremaining]⟩

/-- What `Sweep.step` performs is an action. -/
theorem exists_event (h : step c s = some t) : ∃ e, Step s e t := by
  unfold step at h
  split at h
  · cases h
  · next f below hframes =>
    split at h
    · next a rest hreactions =>
      obtain rfl := Option.some.inj h
      exact ⟨_, .react c hframes hreactions⟩
    · next hreactions =>
      split at h
      · next r rest hremaining =>
        obtain rfl := Option.some.inj h
        exact ⟨_, .giveUp c hframes hreactions hremaining⟩
      · next hremaining =>
        obtain rfl := Option.some.inj h
        exact ⟨_, .close hframes hreactions hremaining⟩

/-- An active sweep can go on. -/
theorem exists_step_of_active (c : Setting) (hactive : s.frames ≠ []) : ∃ t, step c s = some t := by
  unfold step
  split
  · next hidle => exact absurd hidle hactive
  · split
    · exact ⟨_, rfl⟩
    · split <;> exact ⟨_, rfl⟩

/-! ## What every action does -/

/-- The request that the owner is told of. -/
def Event.told? : Event → Option PendingRequest
  | .giveUp r true => some r
  | _ => none

/-- The requests that the owner was told of, first one first. -/
def told (es : List Event) : List PendingRequest := es.filterMap Event.told?

/-- The request of a notice. -/
def Notice.request? : Notice → Option Json
  | .timeout request => some request
  | .tickReturned _ => none

/-- The requests in the notices, last one first. -/
def State.requests (s : State) : List Json := s.notices.filterMap Notice.request?

/-- What an action does to what is seen of a sweeper from outside. -/
structure Effect (s : State) (e : Event) (t : State) : Prop where
  /-- What is resolved stays resolved. -/
  resolved : ∀ i, (s.store.slot i).isResolved = true → (t.store.slot i).isResolved = true
  disposed : t.guard.disposed = true ↔ s.guard.disposed = true ∨ e = .dispose
  requests : t.requests = e.told?.toList.map (·.request) ++ s.requests
  /-- A guarded sweep starts only if nobody has disposed the sweeper. -/
  started : e = .tick true → s.guard.disposed = false
  /-- The owner is told of a request that a sweep has found, when it is resolved. -/
  told : ∀ r, e.told? = some r → (∃ f ∈ s.frames, r ∈ f.remaining) ∧
    (s.store.slot r.slot).isResolved = false ∧
    (r.slot < s.store.slots.length → (t.store.slot r.slot).isResolved = true)

/-- An action that touches neither the store nor the requests in the notices. -/
theorem Effect.quiet (hstore : t.store = s.store) (hrequests : t.requests = s.requests)
    (htold : e.told? = none) (hdisposed : t.guard.disposed = true ↔
      s.guard.disposed = true ∨ e = .dispose)
    (hstarted : e = .tick true → s.guard.disposed = false) : Effect s e t where
  resolved i hi := by rw [hstore, hi]
  disposed := hdisposed
  requests := by rw [hrequests, htold]; rfl
  started := hstarted
  told r hr := by simp [htold] at hr

theorem startGuarded_cases (c : Setting) (nested : Bool) (s : State) :
    (s.guard.disposed = false ∧ s.guard.inProgress = false ∧ startGuarded c nested s =
      ({ s with
        guard := { s.guard with inProgress := true }
        frames := frame c true nested s.store :: s.frames }, true)) ∨
    ((s.guard.disposed = true ∨ s.guard.inProgress = true) ∧
      startGuarded c nested s = (s, false)) := by
  cases hdisposed : s.guard.disposed <;> cases hprogress : s.guard.inProgress <;>
    simp [startGuarded, hdisposed, hprogress]

theorem effect_startGuarded (c : Setting) (nested : Bool) (s : State) :
    Effect s (.tick (startGuarded c nested s).2) (startGuarded c nested s).1 := by
  rcases startGuarded_cases c nested s with ⟨hlive, -, hstart⟩ | ⟨-, hstart⟩
  · rw [hstart]
    exact .quiet rfl rfl rfl (by simp) fun _ => hlive
  · rw [hstart]
    refine .quiet rfl rfl rfl (by simp) ?_
    intro h
    cases h

theorem effect_react (c : Setting) (s : State) (a : Reaction) :
    Effect s (.ofReaction c s a) (react c s a) := by
  cases a with
  | tick =>
    have h := effect_startGuarded c true s
    rcases startGuarded_cases c true s with ⟨-, -, hstart⟩ | ⟨-, hstart⟩
    · simpa only [Event.ofReaction, react, hstart] using h
    · simp only [Event.ofReaction, react, hstart]
      refine .quiet rfl rfl rfl (by simp) ?_
      intro h
      cases h
  | clean =>
    refine .quiet rfl rfl rfl (by simp [react, startUnguarded, Event.ofReaction]) ?_
    intro h
    cases h
  | dispose =>
    refine .quiet rfl rfl rfl (by simp [react, Event.ofReaction]) ?_
    intro h
    cases h
  | fail =>
    refine .quiet rfl rfl rfl (by simp [react, Event.ofReaction]) ?_
    intro h
    cases h

theorem effect_giveUp (c : Setting) {r : PendingRequest} {rest : List PendingRequest}
    (hframes : s.frames = f :: below) (hremaining : f.remaining = r :: rest) :
    Effect s (.giveUp r ((s.store.resolve r.slot (verdict c r)).2 && c.told))
      (giveUp c s f r rest below) where
  resolved i hi := PendingStore.isResolved_resolve_of_isResolved _ hi
  disposed := by simp [giveUp]
  requests := by
    cases hwon : (s.store.resolve r.slot (verdict c r)).2 && c.told <;>
      simp [giveUp, State.requests, hwon, Event.told?, Notice.request?]
  started h := by cases h
  told q hq := by
    cases htells : (s.store.resolve r.slot (verdict c r)).2 && c.told with
    | false => simp [htells, Event.told?] at hq
    | true =>
      obtain rfl : r = q := by simpa [htells, Event.told?] using hq
      have hwon : (s.store.resolve r.slot (verdict c r)).2 = true :=
        (Bool.and_eq_true_iff.mp htells).1
      refine ⟨⟨f, hframes ▸ List.mem_cons_self .., hremaining ▸ List.mem_cons_self ..⟩, ?_, ?_⟩
      · rw [Bool.eq_false_iff]
        intro hresolved
        simp [PendingStore.resolve_of_resolved _ hresolved] at hwon
      · intro hlt
        exact PendingStore.isResolved_resolve hlt _

theorem effect_close (s : State) (f : Frame) (below : List Frame) :
    Effect s (.close f.guarded) (close s f below) where
  resolved i hi := by
    rw [Slot.isResolved, close, PendingStore.outcome_removeAll]
    exact hi
  disposed := by
    simp only [close, reduceCtorEq, or_false]
    split <;> rfl
  requests := by
    simp only [close, State.requests]
    split <;> rfl
  started h := by cases h
  told r hr := by cases hr

/-- That the owner has begun with its next reaction is not seen. -/
theorem Effect.of_begun {rest : List Reaction} (hframes : s.frames = f :: below)
    (h : Effect { s with frames := { f with reactions := rest } :: below } e t) : Effect s e t where
  resolved := h.resolved
  disposed := h.disposed
  requests := h.requests
  started := h.started
  told r hr := by
    obtain ⟨⟨f', hf', hmem⟩, hrest⟩ := h.told r hr
    refine ⟨?_, hrest⟩
    rcases List.mem_cons.mp hf' with rfl | hf'
    · exact ⟨f, hframes ▸ List.mem_cons_self .., hmem⟩
    · exact ⟨f', hframes ▸ List.mem_cons_of_mem _ hf', hmem⟩

theorem Step.effect (h : Step s e t) : Effect s e t := by
  cases h with
  | tick c hidle => exact effect_startGuarded c false s
  | clean c hidle =>
    refine .quiet rfl rfl rfl (by simp [startUnguarded]) ?_
    intro h
    cases h
  | dispose c hidle => exact effect_react c s .dispose
  | react c hframes hreactions => exact (effect_react c _ _).of_begun hframes
  | giveUp c hframes hreactions hremaining => exact effect_giveUp c hframes hremaining
  | close hframes hreactions hremaining => exact effect_close _ _ _

/-! ## The guard and what sweeps refer to -/

/-- What holds of a sweeper whose store was `first` when nothing was active: sweeps refer to entries
that were there then, and the guard is set exactly while one guarded sweep is active. -/
structure Sound (first : PendingStore) (s : State) : Prop where
  size : s.store.slots.length = first.slots.length
  entries : s.store.entries ⊆ first.entries
  count : s.store.entries.length ≤ first.entries.length
  remaining : ∀ f ∈ s.frames, f.remaining ⊆ first.entries
  guard : s.frames.countP (·.guarded) = s.guard.inProgress.toNat

theorem Sound.initial (store : PendingStore) {g : Guard} (hfree : g.inProgress = false) :
    Sound store { guard := g, store } where
  size := rfl
  entries := List.Subset.refl _
  count := Nat.le_refl _
  remaining _ hf := by cases hf
  guard := by simp [hfree]

/-- Where the store stays as it is, there is less to show. -/
theorem Sound.of_store_eq (h : Sound first s) (hstore : t.store = s.store)
    (hremaining : ∀ f ∈ t.frames, f.remaining ⊆ first.entries)
    (hguard : t.frames.countP (·.guarded) = t.guard.inProgress.toNat) : Sound first t where
  size := hstore ▸ h.size
  entries := hstore ▸ h.entries
  count := hstore ▸ h.count
  remaining := hremaining
  guard := hguard

/-- A frame that starts refers to what is due in the store. -/
theorem Sound.remaining_cons (h : Sound first s) (guarded nested : Bool) :
    ∀ f ∈ frame c guarded nested s.store :: s.frames, f.remaining ⊆ first.entries := by
  intro f hf
  rcases List.mem_cons.mp hf with rfl | hf
  · exact List.Subset.trans (List.filter_subset_self ..) h.entries
  · exact h.remaining f hf

theorem Sound.startGuarded (h : Sound first s) (c : Setting) (nested : Bool) :
    Sound first (startGuarded c nested s).1 := by
  rcases startGuarded_cases c nested s with ⟨-, hfree, hstart⟩ | ⟨-, hstart⟩
  · rw [hstart]
    refine h.of_store_eq rfl (h.remaining_cons true nested) ?_
    have hnone := h.guard
    rw [hfree] at hnone
    simp [frame, hnone]
  · rw [hstart]
    exact h

theorem Sound.startUnguarded (h : Sound first s) (c : Setting) (nested : Bool) :
    Sound first (startUnguarded c nested s) := by
  refine h.of_store_eq rfl (h.remaining_cons false nested) ?_
  simp [Sweep.startUnguarded, frame, h.guard]

theorem any_eq_of_countP {α : Type} {xs : List α} {p : α → Bool} {b : Bool}
    (h : xs.countP p = b.toNat) : xs.any p = b := by
  cases b with
  | false => simpa [List.countP_eq_zero] using h
  | true =>
    have hpos : 0 < xs.countP p := h ▸ Nat.one_pos
    simpa [List.countP_pos_iff] using hpos

theorem Sound.react (h : Sound first s) (c : Setting) (a : Reaction) :
    Sound first (react c s a) := by
  cases a with
  | tick =>
    have hnext := h.startGuarded c true
    rcases startGuarded_cases c true s with ⟨-, -, hstart⟩ | ⟨-, hstart⟩
    · simpa only [Sweep.react, hstart] using hnext
    · simp only [Sweep.react, hstart]
      exact h.of_store_eq rfl h.remaining h.guard
  | clean => exact h.startUnguarded c true
  | dispose => exact h.of_store_eq rfl h.remaining h.guard
  | fail =>
    -- the guard is set only for one of the sweeps that end here
    refine h.of_store_eq rfl (by simp [Sweep.react]) ?_
    simp [Sweep.react, any_eq_of_countP h.guard]

theorem Sound.giveUp (h : Sound first s) (c : Setting) {r : PendingRequest}
    {rest : List PendingRequest} (hframes : s.frames = f :: below)
    (hremaining : f.remaining = r :: rest) : Sound first (giveUp c s f r rest below) where
  size := (PendingStore.length_slots_setSlot _).trans h.size
  entries := h.entries
  count := h.count
  remaining f' hf' := by
    rcases List.mem_cons.mp hf' with rfl | hf'
    · have hall := h.remaining f (hframes ▸ List.mem_cons_self ..)
      rw [hremaining] at hall
      exact List.Subset.trans (List.subset_cons_self ..) hall
    · exact h.remaining f' (hframes ▸ List.mem_cons_of_mem _ hf')
  guard := by
    have hguard := h.guard
    rw [hframes, List.countP_cons] at hguard
    simpa [Sweep.giveUp, List.countP_cons] using hguard

theorem Sound.close (h : Sound first s) (hframes : s.frames = f :: below) :
    Sound first (close s f below) where
  size := (PendingStore.length_slots_removeAll _).trans h.size
  entries := by
    rw [Sweep.close, PendingStore.entries_removeAll]
    exact List.Subset.trans (List.filter_subset_self ..) h.entries
  count := by
    rw [Sweep.close, PendingStore.entries_removeAll]
    exact Nat.le_trans (List.length_filter_le ..) h.count
  remaining f' hf' := h.remaining f' (hframes ▸ List.mem_cons_of_mem _ hf')
  guard := by
    have hguard := h.guard
    rw [hframes, List.countP_cons] at hguard
    cases hkind : f.guarded with
    | false => simpa [Sweep.close, hkind] using hguard
    | true =>
      -- the only guarded sweep ends, so none is left
      have hlone : below.countP (·.guarded) = 0 := by
        have hle := Bool.toNat_le s.guard.inProgress
        simp only [hkind, if_true] at hguard
        omega
      simp [Sweep.close, hkind, hlone]

theorem Sound.of_begun {rest : List Reaction} (h : Sound first s)
    (hframes : s.frames = f :: below) :
    Sound first { s with frames := { f with reactions := rest } :: below } := by
  have hguard := h.guard
  rw [hframes, List.countP_cons] at hguard
  refine h.of_store_eq rfl ?_ (by simpa [List.countP_cons] using hguard)
  intro f' hf'
  rcases List.mem_cons.mp hf' with rfl | hf'
  · exact h.remaining f (hframes ▸ List.mem_cons_self ..)
  · exact h.remaining f' (hframes ▸ List.mem_cons_of_mem _ hf')

theorem Sound.step (h : Sound first s) (hstep : Step s e t) : Sound first t := by
  cases hstep with
  | tick c hidle => exact h.startGuarded c false
  | clean c hidle => exact h.startUnguarded c false
  | dispose c hidle => exact h.react c .dispose
  | react c hframes hreactions => exact (h.of_begun hframes).react c _
  | giveUp c hframes hreactions hremaining => exact h.giveUp c hframes hremaining
  | close hframes hreactions hremaining => exact h.close hframes

end Courier.Sweep
