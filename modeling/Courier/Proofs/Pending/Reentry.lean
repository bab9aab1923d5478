import Courier.Proofs.Pending.Reactions
import Mathlib.Data.Prod.Lex
import Mathlib.Order.WellFounded
import Mathlib.Tactic.Ring

/-!
# Sweeps under reentry

An owner is told only when a slot is resolved, so what it does then is paid for by that slot, and
every sweep that it starts visits what was pending at most: `work_step`.  Hence sweeps that an owner
starts, and those that are started within them, come to an end.

`Logged` is what a run has told the owner, and what it has asked for.

Main statements: `orderly_under_reentry`, `exists_run_of_run` (what `Sweep.run` does is a run of the
system) and `wellFormed_of_uses` (every store that is built by its operations and by sweeps is well
formed).
-/

namespace Courier.Sweep

variable {c : Setting} {s t : State} {e : Event} {es : List Event} {first : PendingStore}
variable {f : Frame} {below : List Frame} {n : Nat} {g : Guard}

/-! ## Every call returns -/

/-- How many of these requests have no outcome. -/
def unresolved (rs : List PendingRequest) (store : PendingStore) : Nat :=
  rs.countP fun r => !(store.slot r.slot).isResolved

/-- What is left to do for a sweep and for the owner that it has told.  A sweep that the owner
starts has at most `n` requests to visit, and it ends. -/
def Frame.work (n : Nat) (f : Frame) : Nat :=
  f.reactions.length * (n + 2) + (f.remaining.length + 1)

/-- What is left to do for all active sweeps, unless they tell the owner once more. -/
def State.work (n : Nat) (s : State) : Nat := (s.frames.map (Frame.work n)).sum

/-- What the owner has to do once it is told. -/
def wage (c : Setting) (n : Nat) : Nat := c.owner.length * (n + 2)

theorem unresolved_le (rs : List PendingRequest) {store next : PendingStore}
    (hmono : ∀ i, (store.slot i).isResolved = true → (next.slot i).isResolved = true) :
    unresolved rs next ≤ unresolved rs store := by
  refine List.countP_mono_left ?_
  intro r _ hnext
  cases hbefore : (store.slot r.slot).isResolved with
  | false => rfl
  | true => simp [hmono _ hbefore] at hnext

theorem unresolved_lt {rs : List PendingRequest} {store next : PendingStore} {r : PendingRequest}
    (hmono : ∀ i, (store.slot i).isResolved = true → (next.slot i).isResolved = true)
    (hr : r ∈ rs) (hbefore : (store.slot r.slot).isResolved = false)
    (hafter : (next.slot r.slot).isResolved = true) :
    unresolved rs next < unresolved rs store := by
  obtain ⟨front, back, rfl⟩ := List.append_of_mem hr
  have hfront := unresolved_le front hmono
  have hback := unresolved_le back hmono
  simp only [unresolved, List.countP_append, List.countP_cons, hbefore, hafter] at hfront hback ⊢
  simp only [Bool.not_true, Bool.not_false, Bool.false_eq_true, if_true, if_false]
  omega

theorem work_startGuarded (c : Setting) (nested : Bool) (hcount : s.store.entries.length ≤ n) :
    (startGuarded c nested s).1.work n ≤ s.work n + (n + 1) := by
  have hdue : (s.store.due c.isCancelled c.now).length ≤ s.store.entries.length :=
    List.length_filter_le ..
  rcases startGuarded_cases c nested s with ⟨-, -, hstart⟩ | ⟨-, hstart⟩
  · simp only [hstart, State.work, Frame.work, frame, List.map_cons, List.sum_cons,
      List.length_nil]
    omega
  · simp only [hstart]
    omega

theorem work_startUnguarded (c : Setting) (nested : Bool)
    (hcount : s.store.entries.length ≤ n) :
    (startUnguarded c nested s).work n ≤ s.work n + (n + 1) := by
  have hdue : (s.store.due c.isCancelled c.now).length ≤ s.store.entries.length :=
    List.length_filter_le ..
  simp only [startUnguarded, State.work, Frame.work, frame, List.map_cons, List.sum_cons,
    List.length_nil]
  omega

theorem work_react (c : Setting) (a : Reaction) (hcount : s.store.entries.length ≤ n) :
    (react c s a).work n ≤ s.work n + (n + 1) := by
  cases a with
  | tick =>
    have hstarted := work_startGuarded c true hcount
    rcases startGuarded_cases c true s with ⟨-, -, hstart⟩ | ⟨-, hstart⟩
    · simpa only [react, hstart] using hstarted
    · simp only [react, hstart]
      exact Nat.le_add_right ..
  | clean => exact work_startUnguarded c true hcount
  | dispose => exact Nat.le_add_right ..
  | fail =>
    simp only [react, State.work, List.map_nil, List.sum_nil]
    omega

@[simp] theorem store_react (c : Setting) (s : State) (a : Reaction) :
    (react c s a).store = s.store := by
  cases a with
  | tick =>
    rcases startGuarded_cases c true s with ⟨-, -, hstart⟩ | ⟨-, hstart⟩ <;> simp [react, hstart]
  | clean => rfl
  | dispose => rfl
  | fail => rfl

/-- What an owner begins with is more than the sweep that it starts. -/
theorem work_begun {a : Reaction} {rest : List Reaction} (c : Setting)
    (hframes : s.frames = f :: below) (hreactions : f.reactions = a :: rest)
    (hcount : s.store.entries.length ≤ n) :
    (react c { s with frames := { f with reactions := rest } :: below } a).work n < s.work n := by
  have hreact := work_react (s := { s with frames := { f with reactions := rest } :: below })
    c a hcount
  have hbegun : s.work n =
      State.work n { s with frames := { f with reactions := rest } :: below } + (n + 2) := by
    simp only [State.work, Frame.work, hframes, hreactions, List.map_cons, List.sum_cons,
      List.length_cons, Nat.add_mul, Nat.one_mul]
    omega
  omega

theorem work_giveUp {r : PendingRequest} {rest : List PendingRequest} (c : Setting)
    (hframes : s.frames = f :: below) (hreactions : f.reactions = [])
    (hremaining : f.remaining = r :: rest) :
    (giveUp c s f r rest below).work n <
      s.work n + if (s.store.resolve r.slot (verdict c r)).2 && c.told then wage c n else 0 := by
  simp only [giveUp, verdict, State.work, Frame.work, hframes, hreactions, hremaining,
    List.map_cons, List.sum_cons, List.length_cons, wage]
  generalize ((s.store.resolve r.slot (.cancelled (reason c r))).2 && c.told) = tells
  cases tells <;> simp only [Bool.false_eq_true, if_true, if_false, List.length_nil] <;> omega

theorem work_close (hframes : s.frames = f :: below) : (close s f below).work n < s.work n := by
  simp only [close, State.work, Frame.work, hframes, List.map_cons, List.sum_cons]
  omega

/-- **Every action makes progress.**  An owner who is told is paid for by the slot that was
resolved, and everything else leaves less to do. -/
theorem work_step (h : Sound first s) (hrange : ∀ r ∈ first.entries, r.slot < first.slots.length)
    (hstep : step c s = some t) :
    unresolved first.entries t.store ≤ unresolved first.entries s.store ∧
    unresolved first.entries t.store * wage c first.entries.length +
        t.work first.entries.length <
      unresolved first.entries s.store * wage c first.entries.length +
        s.work first.entries.length := by
  obtain ⟨e, hevent⟩ := exists_event hstep
  have hmono := unresolved_le first.entries hevent.effect.resolved
  refine ⟨hmono, ?_⟩
  unfold step at hstep
  split at hstep
  · cases hstep
  · next f below hframes =>
    split at hstep
    · next a rest hreactions =>
      obtain rfl := Option.some.inj hstep
      rw [store_react]
      exact Nat.add_lt_add_left (work_begun c hframes hreactions h.count) _
    · next hreactions =>
      split at hstep
      · next r rest hremaining =>
        obtain rfl := Option.some.inj hstep
        have hwork := work_giveUp (n := first.entries.length) c hframes hreactions hremaining
        cases htells : (s.store.resolve r.slot (verdict c r)).2 && c.told with
        | false =>
          rw [htells] at hwork
          exact Nat.add_lt_add_of_le_of_lt (Nat.mul_le_mul_right _ hmono) hwork
        | true =>
          have heffect := effect_giveUp c hframes hremaining
          rw [htells] at heffect hwork
          obtain ⟨-, hbefore, hafter⟩ := heffect.told r rfl
          have hr : r ∈ first.entries :=
            h.remaining f (hframes ▸ List.mem_cons_self ..) (hremaining ▸ List.mem_cons_self ..)
          have hlt := unresolved_lt heffect.resolved hr hbefore
            (hafter (h.size ▸ hrange r hr))
          have hpaid := Nat.mul_le_mul_right (wage c first.entries.length) hlt
          rw [Nat.succ_mul] at hpaid
          simp only [if_true] at hwork
          omega
      · next hremaining =>
        obtain rfl := Option.some.inj hstep
        exact Nat.add_lt_add_of_le_of_lt (Nat.mul_le_mul_right _ hmono) (work_close hframes)

/-- However the sweeps go on, no sweep is active after some time. -/
def Returns (s : State) : Prop :=
  ∀ u : Nat → State, u 0 = s →
    (∀ k, (u k).frames ≠ [] → ∃ c, step c (u k) = some (u (k + 1))) → ∃ k, (u k).frames = []

/-- Slots that have no outcome get fewer, and while they do not, there is less to do. -/
theorem Sound.returns (h : Sound first s)
    (hrange : ∀ r ∈ first.entries, r.slot < first.slots.length) : Returns s := by
  induction hrank : toLex (unresolved first.entries s.store, s.work first.entries.length)
    using WellFoundedLT.induction generalizing s with
  | ind rank ih =>
    subst hrank
    intro u hfirst hnext
    by_cases hidle : (u 0).frames = []
    · exact ⟨0, hidle⟩
    · obtain ⟨c, hstep⟩ := hnext 0 hidle
      rw [hfirst] at hstep
      obtain ⟨e, hevent⟩ := exists_event hstep
      obtain ⟨hle, hlt⟩ := work_step h hrange hstep
      have hless : toLex (unresolved first.entries (u 1).store, (u 1).work first.entries.length) <
          toLex (unresolved first.entries s.store, s.work first.entries.length) := by
        rw [Prod.Lex.toLex_lt_toLex]
        rcases Nat.lt_or_eq_of_le hle with hless | hsame
        · exact .inl hless
        · exact .inr ⟨hsame, by rw [hsame] at hlt; exact Nat.lt_of_add_lt_add_left hlt⟩
      obtain ⟨k, hk⟩ := ih _ hless (h.step hevent) rfl (fun k => u (k + 1)) rfl
        fun k => hnext (k + 1)
      exact ⟨k + 1, hk⟩

/-! ## What is run -/

/-- What is run is a run of the system. -/
theorem exists_run_of_run (c : Setting) (s : State) (fuel : Nat) :
    ∃ es, Run Step s es (run c s fuel) := by
  induction fuel generalizing s with
  | zero => exact ⟨[], .nil s⟩
  | succ fuel ih =>
    rw [run]
    cases hstep : step c s with
    | none => exact ⟨[], .nil s⟩
    | some t =>
      obtain ⟨e, hevent⟩ := exists_event hstep
      obtain ⟨es, hrun⟩ := ih t
      exact ⟨e :: es, .cons hevent hrun⟩

/-- Where the owner does the same whenever it is told, as many steps suffice as there is to do. -/
theorem Sound.frames_run (h : Sound first s)
    (hrange : ∀ r ∈ first.entries, r.slot < first.slots.length) {fuel : Nat}
    (hfuel : unresolved first.entries s.store * wage c first.entries.length +
      s.work first.entries.length ≤ fuel) : (run c s fuel).frames = [] := by
  induction fuel generalizing s with
  | zero =>
    have hwork : s.work first.entries.length = 0 := by omega
    cases hframes : s.frames with
    | nil => exact hframes
    | cons f below =>
      simp only [State.work, Frame.work, hframes, List.map_cons, List.sum_cons] at hwork
      omega
  | succ fuel ih =>
    rw [run]
    cases hstep : Sweep.step c s with
    | none =>
      by_contra hactive
      obtain ⟨t, hnext⟩ := exists_step_of_active c hactive
      simp [hstep] at hnext
    | some t =>
      obtain ⟨e, hevent⟩ := exists_event hstep
      obtain ⟨-, hlt⟩ := work_step h hrange hstep
      exact ih (h.step hevent) (by omega)

/-- The steps that `Sweep.fuel` allows suffice for a sweep that has just started. -/
theorem Sound.frames_run_fuel {store : PendingStore} (h : Sound store s)
    (hrange : ∀ r ∈ store.entries, r.slot < store.slots.length)
    (hwork : s.work store.entries.length ≤ store.entries.length + 1) :
    (run c s (fuel c store)).frames = [] := by
  refine h.frames_run hrange ?_
  have hall : unresolved store.entries s.store ≤ store.entries.length := List.countP_le_length
  have hpaid := Nat.mul_le_mul_right (wage c store.entries.length) hall
  have hfuel : fuel c store = store.entries.length * wage c store.entries.length +
      (store.entries.length + 2) := by
    simp only [fuel, wage]
    ring
  omega

/-- A guarded sweep from start to end is a run after which no sweep is active. -/
theorem exists_run_tick (c : Setting) {g : Guard} {store : PendingStore}
    (hrange : ∀ r ∈ store.entries, r.slot < store.slots.length) (hfree : g.inProgress = false) :
    (∃ es, Run Step { guard := g, store } (.tick (tick c g store).2 :: es) (tick c g store).1) ∧
    (tick c g store).1.frames = [] := by
  have hevent : Step { guard := g, store } _ _ := .tick c rfl
  have hsound := (Sound.initial store hfree).step hevent
  have hwork := work_startGuarded (n := store.entries.length) (s := { guard := g, store }) c false
    (Nat.le_refl _)
  rcases startGuarded_cases c false { guard := g, store } with ⟨-, -, hstart⟩ | ⟨-, hstart⟩
  · rw [hstart] at hevent hsound hwork
    obtain ⟨es, hrun⟩ := exists_run_of_run c _ (fuel c store)
    simp only [tick, hstart]
    refine ⟨⟨es, .cons hevent hrun⟩, hsound.frames_run_fuel hrange ?_⟩
    simpa [State.work] using hwork
  · rw [hstart] at hevent
    simp only [tick, hstart]
    exact ⟨⟨[], .cons hevent (.nil _)⟩, trivial⟩

/-- So is a sweep without the guard. -/
theorem exists_run_clean (c : Setting) {g : Guard} {store : PendingStore}
    (hrange : ∀ r ∈ store.entries, r.slot < store.slots.length) (hfree : g.inProgress = false) :
    (∃ es, Run Step { guard := g, store } (.clean :: es) (clean c g store)) ∧
    (clean c g store).frames = [] := by
  have hevent : Step { guard := g, store } .clean _ := .clean c rfl
  have hsound := (Sound.initial store hfree).step hevent
  have hwork := work_startUnguarded (n := store.entries.length) (s := { guard := g, store }) c false
    (Nat.le_refl _)
  obtain ⟨es, hrun⟩ := exists_run_of_run c _ (fuel c store)
  refine ⟨⟨es, .cons hevent hrun⟩, hsound.frames_run_fuel hrange ?_⟩
  simpa [State.work] using hwork

/-! ## What may be done with a store -/

theorem Step.wellFormed (h : Step s e t) (hs : s.store.WellFormed) : t.store.WellFormed := by
  cases h with
  | tick c hidle =>
    rcases startGuarded_cases c false s with ⟨-, -, hstart⟩ | ⟨-, hstart⟩ <;>
      · rw [hstart]
        exact hs
  | clean c hidle => exact hs
  | dispose c hidle => exact hs
  | react c hframes hreactions =>
    rw [store_react]
    exact hs
  | giveUp c hframes hreactions hremaining => exact hs.setSlot _ _
  | close hframes hreactions hremaining => exact hs.removeAll _

theorem wellFormed_run (c : Setting) (fuel : Nat) (h : s.store.WellFormed) :
    (run c s fuel).store.WellFormed := by
  obtain ⟨es, hrun⟩ := exists_run_of_run c s fuel
  exact hrun.invariant (fun s => s.store.WellFormed) h fun _ _ _ hs hstep => hstep.wellFormed hs

theorem wellFormed_tick (c : Setting) (g : Guard) {store : PendingStore} (h : store.WellFormed) :
    (tick c g store).1.store.WellFormed := by
  rcases startGuarded_cases c false { guard := g, store } with ⟨-, -, hstart⟩ | ⟨-, hstart⟩
  · simp only [tick, hstart]
    exact wellFormed_run c _ h
  · simp only [tick, hstart]
    exact h

theorem wellFormed_clean (c : Setting) (g : Guard) {store : PendingStore} (h : store.WellFormed) :
    (clean c g store).store.WellFormed :=
  wellFormed_run c (s := startUnguarded c false { guard := g, store }) _ h

/-- What may be done with a store. -/
inductive Use
  /-- Add a request with a new slot. -/
  | add (r : PendingRequest)
  | remove (id : RequestId)
  | removeAll (ids : List RequestId)
  | resolve (i : SlotIndex) (o : Outcome)
  | receive (i : SlotIndex)
  | abandon (i : SlotIndex)
  | tick (c : Setting) (g : Guard)
  | clean (c : Setting) (g : Guard)

/-- The store after that.  A request whose id is pending is not added. -/
def Use.apply (store : PendingStore) : Use → PendingStore
  | .add r =>
    match store.newSlot.1.add { r with slot := store.newSlot.2 } with
    | .ok u => u
    | .error _ => store
  | .remove id => store.remove id
  | .removeAll ids => store.removeAll ids
  | .resolve i o => (store.resolve i o).1
  | .receive i => (store.receive i).1
  | .abandon i => store.abandon i
  | .tick c g => (Sweep.tick c g store).1.store
  | .clean c g => (Sweep.clean c g store).store

theorem wellFormed_apply {store : PendingStore} (h : store.WellFormed) (a : Use) :
    (Use.apply store a).WellFormed := by
  cases a with
  | add r =>
    cases hadd : store.newSlot.1.add { r with slot := store.newSlot.2 } with
    | ok u =>
      simp only [Use.apply, hadd]
      exact h.add rfl hadd
    | error cause =>
      simp only [Use.apply, hadd]
      exact h
  | remove id => exact h.remove id
  | removeAll ids => exact h.removeAll ids
  | resolve i o => exact h.setSlot _ _
  | receive i => exact h.setSlot _ _
  | abandon i => exact h.setSlot _ _
  | tick c g => exact wellFormed_tick c g h
  | clean c g => exact wellFormed_clean c g h

/-- **Whatever is done with an empty store leaves a store that is well formed**, as sweeps expect
it. -/
theorem wellFormed_of_uses (uses : List Use) : (uses.foldl Use.apply {}).WellFormed := by
  suffices h : ∀ store : PendingStore,
      store.WellFormed → (uses.foldl Use.apply store).WellFormed from
    h _ PendingStore.wellFormed_empty
  induction uses with
  | nil => exact fun _ h => h
  | cons a uses ih => exact fun _ h => ih _ (wellFormed_apply h a)

/-! ## What has happened -/

/-- What has happened since nothing was active: the owner was told of requests that were unresolved
then, of each once, and nobody starts a guarded sweep in a sweeper that is disposed. -/
structure Logged (first : PendingStore) (g : Guard) (es : List Event) (s : State) : Prop where
  resolved : ∀ i, (first.slot i).isResolved = true → (s.store.slot i).isResolved = true
  told : ∀ r ∈ told es, r ∈ first.entries ∧ (first.slot r.slot).isResolved = false ∧
    (s.store.slot r.slot).isResolved = true
  distinct : ((Sweep.told es).map (·.slot)).Nodup
  requests : s.requests = ((Sweep.told es).map (·.request)).reverse
  disposed : s.guard.disposed = true ↔ g.disposed = true ∨ .dispose ∈ es
  after : es.Pairwise fun e e' => e = .dispose → e' ≠ .tick true

theorem Logged.initial (store : PendingStore) (g : Guard) :
    Logged store g [] { guard := g, store } where
  resolved _ hi := hi
  told _ hr := by cases hr
  distinct := List.nodup_nil
  requests := rfl
  disposed := by simp
  after := List.Pairwise.nil

theorem told_concat (es : List Event) (e : Event) :
    told (es ++ [e]) = told es ++ e.told?.toList := by
  rw [told, List.filterMap_append]
  cases htold : e.told? <;> simp [told, htold]

theorem Logged.step (h : Logged first g es s) (hsound : Sound first s)
    (hrange : ∀ r ∈ first.entries, r.slot < first.slots.length) (hstep : Step s e t) :
    Logged first g (es ++ [e]) t where
  resolved i hi := hstep.effect.resolved i (h.resolved i hi)
  told := by
    intro r hr
    rw [told_concat] at hr
    rcases List.mem_append.mp hr with hr | hr
    · obtain ⟨hmem, hbefore, hafter⟩ := h.told r hr
      exact ⟨hmem, hbefore, hstep.effect.resolved _ hafter⟩
    · obtain ⟨⟨f, hf, hfound⟩, hunresolved, hafter⟩ :=
        hstep.effect.told r (Option.mem_toList.mp hr)
      have hmem := hsound.remaining f hf hfound
      refine ⟨hmem, ?_, hafter (hsound.size ▸ hrange r hmem)⟩
      rw [Bool.eq_false_iff] at hunresolved ⊢
      exact mt (h.resolved _) hunresolved
  distinct := by
    rw [told_concat]
    cases htold : e.told? with
    | none => simpa using h.distinct
    | some r =>
      obtain ⟨-, hunresolved, -⟩ := hstep.effect.told r htold
      have hnew : r.slot ∉ (Sweep.told es).map (·.slot) := by
        intro hmem
        obtain ⟨q, hq, hslot⟩ := List.mem_map.mp hmem
        obtain ⟨-, -, hresolved⟩ := h.told q hq
        rw [hslot, hunresolved] at hresolved
        cases hresolved
      rw [Option.toList_some, List.map_append, List.map_singleton, ← List.concat_eq_append]
      exact List.Nodup.concat hnew h.distinct
  requests := by
    rw [hstep.effect.requests, h.requests, told_concat]
    cases e.told? <;> simp
  disposed := by
    rw [hstep.effect.disposed, h.disposed, List.mem_append, List.mem_singleton, or_assoc,
      eq_comm (a := e)]
  after := by
    refine List.pairwise_append.mpr ⟨h.after, List.pairwise_singleton .., ?_⟩
    intro d hd d' hd' hdispose htick
    obtain rfl := List.mem_singleton.mp hd'
    have hlive := hstep.effect.started htick
    rw [h.disposed.mpr (.inr (hdispose ▸ hd))] at hlive
    cases hlive

theorem snd_startGuarded (c : Setting) (nested : Bool) (s : State) :
    (startGuarded c nested s).2 = (!s.guard.inProgress && !s.guard.disposed) := by
  rcases startGuarded_cases c nested s with ⟨hlive, hfree, hstart⟩ | ⟨hrefused, hstart⟩
  · simp [hstart, hlive, hfree]
  · rcases hrefused with hdisposed | hprogress
    · simp [hstart, hdisposed]
    · simp [hstart, hprogress]

/-- A guarded sweep runs if the guard is free and the sweeper is not disposed.  One that is refused
leaves the store, the guard and the active sweeps alone. -/
theorem Step.of_tick {ran : Bool} (h : Step s (.tick ran) t) :
    ran = (!s.guard.inProgress && !s.guard.disposed) ∧ (ran = false →
      t.store = s.store ∧ t.guard = s.guard ∧
        t.frames.map (·.guarded) = s.frames.map (·.guarded)) := by
  generalize hevent : Event.tick ran = e at h
  cases h with
  | tick c hidle =>
    obtain rfl := Event.tick.inj hevent
    refine ⟨snd_startGuarded c false s, ?_⟩
    intro hrefused
    rcases startGuarded_cases c false s with ⟨-, -, hstart⟩ | ⟨-, hstart⟩
    · simp [hstart] at hrefused
    · simp [hstart]
  | @react f below a rest c hframes hreactions =>
    cases a with
    | tick =>
      obtain rfl := Event.tick.inj hevent
      refine ⟨snd_startGuarded c true _, ?_⟩
      intro hrefused
      rcases startGuarded_cases c true
        { s with frames := { f with reactions := rest } :: below } with ⟨-, -, hstart⟩ | ⟨-, hstart⟩
      · simp [hstart] at hrefused
      · simp [Sweep.react, hstart, hframes]
    | clean => cases hevent
    | dispose => cases hevent
    | fail => cases hevent
  | clean c hidle => cases hevent
  | dispose c hidle => cases hevent
  | giveUp c hframes hreactions hremaining => cases hevent
  | close hframes hreactions hremaining => cases hevent

theorem Sound.of_run {store : PendingStore} (hfree : g.inProgress = false)
    (hrun : Run Step { guard := g, store } es t) : Sound store t :=
  hrun.invariant (Sound store) (.initial store hfree) fun _ _ _ h hstep => h.step hstep

theorem Logged.of_run {store : PendingStore} (hfree : g.inProgress = false)
    (hrange : ∀ r ∈ store.entries, r.slot < store.slots.length)
    (hrun : Run Step { guard := g, store } es t) : Logged store g es t := by
  have hall := hrun.history (fun es t => Sound store t ∧ Logged store g es t)
    ⟨.initial store hfree, .initial store g⟩
    fun _ _ _ _ h hstep => ⟨h.1.step hstep, h.2.step h.1 hrange hstep⟩
  exact hall.2

/-- No two entries that the owner was told of are the same. -/
theorem Logged.nodup_ids (h : Logged first g es s) (hfirst : first.WellFormed) :
    ((Sweep.told es).map (·.id)).Nodup := by
  refine List.Nodup.map_on ?_ h.distinct.of_map
  intro r hr q hq hid
  exact hfirst.eq_of_id (h.told r hr).1 (h.told q hq).1 hid

/-- **Sweeps under reentry.**  Whatever is pending, and whatever the owner does when told, nested to
any depth: every call returns, and so do `tick` and `clean` with the steps that they are allowed.
At most one guarded sweep is active, and the guard is set exactly while one is.  So a guarded sweep
runs exactly if no other one is active and nobody has disposed the sweeper, and one that is refused
changes nothing.  After the sweeper is disposed no guarded sweep starts.  The owner is told of each
request at most once, and only of requests that had no outcome. -/
theorem orderly_under_reentry {store : PendingStore} (h : store.WellFormed)
    (hfree : g.inProgress = false) :
    (∀ c, (∃ es, Run Step { guard := g, store } (.tick (tick c g store).2 :: es)
        (tick c g store).1) ∧ (tick c g store).1.frames = []) ∧
    (∀ c, (∃ es, Run Step { guard := g, store } (.clean :: es) (clean c g store)) ∧
      (clean c g store).frames = []) ∧
    ∀ es t, Run Step { guard := g, store } es t →
      (Returns t ∧ (t.frames ≠ [] → ∀ c, ∃ u, step c t = some u)) ∧
      (t.frames.countP (·.guarded) ≤ 1 ∧ t.guard.inProgress = t.frames.any (·.guarded)) ∧
      (∀ ran u, Step t (.tick ran) u →
        ran = (!t.frames.any (·.guarded) && !t.guard.disposed) ∧
        (ran = false → u.store = t.store ∧ u.guard = t.guard ∧
          u.frames.map (·.guarded) = t.frames.map (·.guarded))) ∧
      ((t.guard.disposed = true ↔ g.disposed = true ∨ .dispose ∈ es) ∧
        es.Pairwise fun e e' => e = .dispose → e' ≠ .tick true) ∧
      ((told es).map (·.id)).Nodup ∧
      (∀ r ∈ told es, r ∈ store.entries ∧ (store.slot r.slot).isResolved = false) ∧
      t.requests = ((told es).map (·.request)).reverse := by
  refine ⟨fun c => exists_run_tick c h.inRange hfree, fun c => exists_run_clean c h.inRange hfree,
    ?_⟩
  intro es t hrun
  have hsound := Sound.of_run hfree hrun
  have hlogged := Logged.of_run hfree h.inRange hrun
  have hguard : t.frames.any (·.guarded) = t.guard.inProgress := any_eq_of_countP hsound.guard
  refine ⟨⟨hsound.returns h.inRange, fun hactive c => exists_step_of_active c hactive⟩,
    ⟨?_, hguard.symm⟩, ?_, ⟨hlogged.disposed, hlogged.after⟩, hlogged.nodup_ids h, ?_,
    hlogged.requests⟩
  · exact hsound.guard ▸ Bool.toNat_le _
  · intro ran u hstep
    rw [hguard]
    exact hstep.of_tick
  · intro r hr
    obtain ⟨hmem, hunresolved, -⟩ := hlogged.told r hr
    exact ⟨hmem, hunresolved⟩

/-- An owner who is told sweeps once more, asks for a guarded sweep and disposes the sweeper. -/
def restless : Setting := { newYear with owner := [.clean, .tick, .dispose] }

/-- The sweep within the sweep tells of the second request, and both ticks are refused. -/
theorem orderly_under_reentry_nested :
    mixed.WellFormed ∧ (tick restless {} mixed).1.frames = [] ∧
    (tick restless {} mixed).1.guard = { disposed := true } ∧
    (tick restless {} mixed).1.notices.reverse =
      [.timeout (.text "late"), .timeout (.text "given up"), .tickReturned false,
        .tickReturned false] ∧
    ∃ es, Run Step { store := mixed } (.tick true :: es) (tick restless {} mixed).1 ∧
      (told es).map (·.request) = [.text "late", .text "given up"] ∧
      ((told es).map (·.id)).Nodup := by
  obtain ⟨htick, -, hall⟩ := orderly_under_reentry (g := {}) wellFormed_mixed rfl
  obtain ⟨⟨es, hrun⟩, hidle⟩ := htick restless
  obtain ⟨-, -, -, -, hdistinct, -, hrequests⟩ := hall _ _ hrun
  refine ⟨wellFormed_mixed, hidle, rfl, rfl, es, hrun, ?_, hdistinct⟩
  have hsame : (told es).map (·.request) = (tick restless {} mixed).1.requests.reverse := by
    rw [hrequests, List.reverse_reverse]
    rfl
  rw [hsame]
  rfl

end Courier.Sweep
