import Courier.Proofs.Lifecycle.Notices

/-!
# Observers that fail

A start or a stop sets the mark of the bus before it tells anybody, and the first observer that
fails ends it.  So a call that fails has changed the mark all the same, and the observers behind the
one that failed have not been told.

`Rounds` is a bus whose calls do not overlap, with all that its observers have been told; which of
them fail is up to each call.  A call that changes the mark goes one round through the observers,
and `Round` says how far it gets.  `call_outcome` says everything that a call can do.

Main statements: `paired_iff_level` (a stop leaves nobody behind exactly if it gets as far as the
start before it) and `left_behind`.
-/

namespace Courier

/-- What an event leaves the mark of the bus at. -/
def LifecycleEvent.mark : LifecycleEvent → Bool
  | .started => true
  | .stopping => false

namespace Change

variable {κ : Type}

/-- The observers are counted as they are told, and the one of number `i` gives the answer of
`i`. -/
def counted (answers : Nat → Except Failure Unit) (_ : LifecycleEvent) (_ : κ) :
    StateM Nat (Except Failure Unit) :=
  fun i => (answers i, i + 1)

/-- The result of a change whose observers give these answers, and how many of them are told. -/
def finish (answers : Nat → Except Failure Unit) (change : Change κ) : Except Failure Unit × Nat :=
  (change.run (counted answers)).run 0

theorem finish_ended (answers : Nat → Except Failure Unit) (result : Except Failure Unit) :
    finish answers (.ended result : Change κ) = (result, 0) := rfl

/-- How a round through `n` observers ends, and how many of them it has told. -/
inductive Round (answers : Nat → Except Failure Unit) (n : Nat) : Except Failure Unit → Nat → Prop
  | whole (hall : ∀ i < n, answers i = .ok ()) : Round answers n (.ok ()) n
  | broken {k : Nat} {cause : Failure} (hk : k < n) (hbefore : ∀ i < k, answers i = .ok ())
      (hfails : answers k = .error cause) : Round answers n (.error cause) (k + 1)

variable {answers : Nat → Except Failure Unit} {event : LifecycleEvent} {o : κ} {rest : List κ}
variable {i : Nat}

theorem run_counted : (counted answers event o).run i = (answers i, i + 1) := rfl

theorem run_tellAll_of_error {cause : Failure} (hfails : answers i = .error cause) :
    (tellAll (counted answers) event (o :: rest)).run i = (.error cause, i + 1) := by
  rw [tellAll, StateT.run_bind, run_counted, hfails]
  rfl

theorem run_tellAll_of_ok (hok : answers i = .ok ()) :
    (tellAll (counted answers) event (o :: rest)).run i =
      (tellAll (counted answers) event rest).run (i + 1) := by
  rw [tellAll, StateT.run_bind, run_counted, hok]
  rfl

/-- A round goes on with the observers behind one that has been told. -/
theorem Round.cons {n told : Nat} {result : Except Failure Unit} (hfirst : answers 0 = .ok ())
    (hrest : Round (fun i => answers (i + 1)) n result told) :
    Round answers (n + 1) result (told + 1) := by
  have hextend : ∀ {m : Nat}, (∀ i < m, answers (i + 1) = .ok ()) →
      ∀ i < m + 1, answers i = .ok () := by
    intro m h i hi
    cases i with
    | zero => exact hfirst
    | succ i => exact h i (Nat.lt_of_succ_lt_succ hi)
  cases hrest with
  | whole hall => exact .whole (hextend hall)
  | broken hk hbefore hfails => exact .broken (Nat.succ_lt_succ hk) (hextend hbefore) hfails

/-- Observers that are told from number `i` on go one round. -/
theorem round_tellAll (answers : Nat → Except Failure Unit) (event : LifecycleEvent)
    (observers : List κ) (i : Nat) :
    ∃ told, ((tellAll (counted answers) event observers).run i).2 = i + told ∧
      Round (fun j => answers (i + j)) observers.length
        ((tellAll (counted answers) event observers).run i).1 told := by
  induction observers generalizing i with
  | nil => exact ⟨0, rfl, .whole nofun⟩
  | cons o rest ih =>
    cases hfirst : answers i with
    | error cause =>
      rw [run_tellAll_of_error hfirst]
      exact ⟨1, rfl, .broken (Nat.succ_pos _) nofun hfirst⟩
    | ok done =>
      obtain ⟨told, hcount, hround⟩ := ih (i + 1)
      rw [run_tellAll_of_ok hfirst]
      refine ⟨told + 1, by rw [hcount]; omega, .cons hfirst ?_⟩
      simpa only [Nat.add_assoc, Nat.add_comm 1] using hround

/-- Telling all observers is one round. -/
theorem round_finish (event : LifecycleEvent) (observers : List κ) :
    Round answers observers.length (finish answers (.tell event observers)).1
      (finish answers (.tell event observers)).2 := by
  obtain ⟨told, hcount, hround⟩ := round_tellAll answers event observers 0
  have htell : finish answers (.tell event observers) =
      (tellAll (counted answers) event observers).run 0 := by
    cases observers <;> rfl
  rw [htell, hcount]
  simpa only [Nat.zero_add] using hround

end Change

namespace Bus

variable {τ ι κ : Type} {b : Bus τ ι κ}

/-- Begin to start the bus or to stop it. -/
def turn (b : Bus τ ι κ) : LifecycleEvent → Bus τ ι κ × Change κ
  | .started => b.start.1
  | .stopping => b.stop

theorem isActive_startSweeper (b : Bus τ ι κ) (tasksAvailable : Bool) :
    (b.startSweeper tasksAvailable).1.isActive = b.isActive := by
  unfold startSweeper
  split <;> rfl

theorem turn_started_of_inactive (h : b.isActive = false) :
    b.turn .started = (b, .ended (.error (.configuration .busNotActive))) := by
  simp [turn, start, requireActive, h]

theorem turn_started_of_active (h : b.isActive = true) :
    b.turn .started = (b.startSweeper true).1.markStarted := by
  simp [turn, start, requireActive, h]

theorem markStarted_kept (b : Bus τ ι κ) :
    b.markStarted.1.observers = b.observers ∧ b.markStarted.1.isActive = b.isActive := by
  unfold markStarted
  split <;> exact ⟨rfl, rfl⟩

theorem stop_kept (b : Bus τ ι κ) :
    b.stop.1.observers = b.observers ∧ b.stop.1.isActive = b.isActive := by
  unfold stop
  split <;> exact ⟨rfl, rfl⟩

/-- A call leaves the observers alone, and whether the bus is active. -/
theorem turn_kept (b : Bus τ ι κ) (event : LifecycleEvent) :
    (b.turn event).1.observers = b.observers ∧ (b.turn event).1.isActive = b.isActive := by
  cases event with
  | started =>
    cases hactive : b.isActive with
    | false =>
      rw [turn_started_of_inactive hactive]
      exact ⟨rfl, hactive⟩
    | true =>
      obtain ⟨hobservers, hkept⟩ := (b.startSweeper true).1.markStarted_kept
      rw [turn_started_of_active hactive]
      exact ⟨hobservers.trans (b.observers_startSweeper true),
        hkept.trans ((b.isActive_startSweeper true).trans hactive)⟩
  | stopping => exact b.stop_kept

end Bus

open Change (Round)

/-- A bus whose calls do not overlap, with all that its observers have been told. -/
structure Rounds (τ ι κ : Type) where
  bus : Bus τ ι κ
  /-- Which observer was told of what, oldest first. -/
  told : List (Nat × LifecycleEvent) := []
  /-- How many observers were told of the last change of the mark. -/
  reached : Nat := 0

namespace Rounds

variable {τ ι κ : Type}

/-- A bus that was not started yet, and whose observers have been told nothing. -/
def initial (bus : Bus τ ι κ) : Rounds τ ι κ := { bus := { bus with started := false } }

/-- How many observers there are. -/
def size (s : Rounds τ ι κ) : Nat := s.bus.observers.length

/-- What an observer has been told. -/
def heard (s : Rounds τ ι κ) (i : Nat) : List LifecycleEvent :=
  (s.told.filter fun x => x.1 == i).map (·.2)

/-- An observer was told that the bus has started, and not that it is stopping since. -/
def Due (s : Rounds τ ι κ) (i : Nat) : Prop := (s.heard i).getLast? = some .started

/-- A call starts the bus or stops it, and some observers may fail. -/
structure Call where
  event : LifecycleEvent
  answers : Nat → Except Failure Unit

/-- A call from its beginning to its end, and what it returns. -/
def call (s : Rounds τ ι κ) (c : Call) : Rounds τ ι κ × Except Failure Unit :=
  let (bus, change) := s.bus.turn c.event
  let (result, n) := change.finish c.answers
  ({ bus
     told := s.told ++ (List.range n).map fun i => (i, c.event)
     reached := if bus.started = s.bus.started then s.reached else n }, result)

/-- One call after the other. -/
def Step (s : Rounds τ ι κ) (c : Call) (u : Rounds τ ι κ) : Prop := (s.call c).1 = u

/-- What was told on the way from one state to another. -/
def toldSince (s u : Rounds τ ι κ) : List (Nat × LifecycleEvent) := u.told.drop s.told.length

/-- A stop of a started bus leaves nobody who was told of the start, and tells nobody else. -/
def Paired (s : Rounds τ ι κ) (c : Call) (u : Rounds τ ι κ) : Prop :=
  c.event = .stopping → s.bus.started = true →
    (∀ i, ¬u.Due i) ∧ ∀ x ∈ s.toldSince u, s.Due x.1

/-- A stop of a started bus gets exactly as far as the start before it. -/
def Level (s : Rounds τ ι κ) (c : Call) (u : Rounds τ ι κ) : Prop :=
  c.event = .stopping → s.bus.started = true → u.reached = s.reached

variable {s u : Rounds τ ι κ} {c : Call} {cs : List Call} {i j n : Nat} {bus : Bus τ ι κ}

/-! ## What a call does -/

/-- Everything that a call can do, and what it returns. -/
inductive Outcome (s : Rounds τ ι κ) (c : Call) (u : Rounds τ ι κ) : Except Failure Unit → Prop
  /-- A start of a bus that is not active does nothing. -/
  | refused (hevent : c.event = .started) (hinactive : s.bus.isActive = false) (hsame : u = s) :
      Outcome s c u (.error (.configuration .busNotActive))
  /-- The mark is where the call would set it. -/
  | idle (hadmitted : c.event = .started → s.bus.isActive = true)
      (hmark : s.bus.started = c.event.mark) (hkept : u.bus.started = s.bus.started)
      (htold : u.told = s.told) (hreached : u.reached = s.reached) : Outcome s c u (.ok ())
  /-- The mark changes, and the observers are told up to the first that fails. -/
  | round {result : Except Failure Unit} {n : Nat}
      (hadmitted : c.event = .started → s.bus.isActive = true)
      (hmark : s.bus.started = !c.event.mark) (hset : u.bus.started = c.event.mark)
      (htold : u.told = s.told ++ (List.range n).map fun i => (i, c.event))
      (hreached : u.reached = n) (hround : Round c.answers s.size result n) :
      Outcome s c u result

theorem call_eq (s : Rounds τ ι κ) (c : Call) {change : Change κ}
    (hturn : s.bus.turn c.event = (bus, change)) :
    s.call c =
      ({ bus
         told := s.told ++ (List.range (change.finish c.answers).2).map fun i => (i, c.event)
         reached := if bus.started = s.bus.started then s.reached
           else (change.finish c.answers).2 }, (change.finish c.answers).1) := by
  simp only [call, hturn]

/-- A call that finds the mark where it would set it tells nobody. -/
theorem outcome_of_ended (hadmitted : c.event = .started → s.bus.isActive = true)
    (hmark : s.bus.started = c.event.mark) (hturn : s.bus.turn c.event = (bus, .ended (.ok ())))
    (hkept : bus.started = s.bus.started) : Outcome s c (s.call c).1 (s.call c).2 := by
  rw [call_eq s c hturn]
  exact .idle hadmitted hmark hkept (List.append_nil _) (if_pos hkept)

/-- A call that changes the mark goes one round. -/
theorem outcome_of_tell (hadmitted : c.event = .started → s.bus.isActive = true)
    (hmark : s.bus.started = !c.event.mark)
    (hturn : s.bus.turn c.event = (bus, .tell c.event s.bus.observers))
    (hset : bus.started = c.event.mark) : Outcome s c (s.call c).1 (s.call c).2 := by
  have hchanged : bus.started ≠ s.bus.started := by
    rw [hset, hmark]
    cases c.event.mark <;> decide
  rw [call_eq s c hturn]
  exact .round hadmitted hmark hset rfl (if_neg hchanged) (Change.round_finish _ _)

/-- **Every call does one of these.** -/
theorem call_outcome (s : Rounds τ ι κ) (c : Call) : Outcome s c (s.call c).1 (s.call c).2 := by
  obtain ⟨event, answers⟩ := c
  cases event with
  | started =>
    cases hactive : s.bus.isActive with
    | false =>
      rw [call_eq s _ (Bus.turn_started_of_inactive hactive)]
      exact .refused rfl hactive (by simp [Change.finish_ended])
    | true =>
      have hturn := Bus.turn_started_of_active hactive
      have hstarted := s.bus.started_startSweeper true
      cases hmark : s.bus.started with
      | true =>
        rw [Bus.markStarted_of_started (hstarted.trans hmark)] at hturn
        exact outcome_of_ended (fun _ => hactive) hmark hturn hstarted
      | false =>
        rw [Bus.markStarted_of_not_started (hstarted.trans hmark), s.bus.observers_startSweeper]
          at hturn
        exact outcome_of_tell (fun _ => hactive) hmark hturn rfl
  | stopping =>
    cases hmark : s.bus.started with
    | true => exact outcome_of_tell nofun hmark (Bus.stop_of_started hmark) rfl
    | false => exact outcome_of_ended nofun hmark (Bus.stop_of_not_started hmark) rfl

theorem Step.kept (hstep : Step s c u) :
    u.bus.observers = s.bus.observers ∧ u.bus.isActive = s.bus.isActive :=
  hstep ▸ s.bus.turn_kept c.event

theorem Step.size (hstep : Step s c u) : u.size = s.size := congrArg List.length hstep.kept.1

theorem Step.outcome (hstep : Step s c u) : Outcome s c u (s.call c).2 := hstep ▸ call_outcome s c

/-! ## What an observer hears -/

/-- Of a round through the first `n` observers each of them hears once. -/
theorem filter_round (event : LifecycleEvent) (n i : Nat) :
    (((List.range n).map fun j => (j, event)).filter fun x => x.1 == i).map (·.2) =
      if i < n then [event] else [] := by
  induction n with
  | zero => rfl
  | succ n ih =>
    rw [List.range_succ, List.map_append, List.filter_append, List.map_append, ih]
    rcases Nat.lt_trichotomy i n with hlt | rfl | hgt
    · simp [hlt, Nat.lt_succ_of_lt hlt, Nat.ne_of_gt hlt]
    · simp
    · simp [Nat.not_lt_of_gt hgt, Nat.ne_of_lt hgt, Nat.not_lt_of_ge (Nat.succ_le_of_lt hgt)]

theorem heard_round (event : LifecycleEvent)
    (htold : u.told = s.told ++ (List.range n).map fun j => (j, event)) (i : Nat) :
    u.heard i = s.heard i ++ if i < n then [event] else [] := by
  rw [heard, htold, List.filter_append, List.map_append, filter_round]
  rfl

theorem heard_of_told (htold : u.told = s.told) (i : Nat) : u.heard i = s.heard i := by
  rw [heard, htold]
  rfl

/-- After a round those are due that were told of a start, and those behind that were due before. -/
theorem due_round {event : LifecycleEvent}
    (htold : u.told = s.told ++ (List.range n).map fun j => (j, event)) :
    u.Due i ↔ if i < n then event = .started else s.Due i := by
  rw [Due, heard_round event htold]
  by_cases hi : i < n
  · simp [hi]
  · simp [hi, Due]

/-- Who hears what another one hears, and more, is in front of it. -/
def Nested (s : Rounds τ ι κ) : Prop := ∀ i j, i ≤ j → (s.heard j).Sublist (s.heard i)

/-- The first observer hears every change of the mark. -/
def Led (s : Rounds τ ι κ) : Prop :=
  ∃ turns, s.heard 0 = LifecycleEvent.inTurn turns ∧ s.bus.started = decide (turns % 2 = 1)

theorem Nested.outcome {result : Except Failure Unit} (h : s.Nested)
    (houtcome : Outcome s c u result) : u.Nested := by
  intro i j hij
  cases houtcome with
  | refused hevent hinactive hsame => exact hsame ▸ h i j hij
  | idle hadmitted hmark hkept htold hreached =>
    rw [heard_of_told htold, heard_of_told htold]
    exact h i j hij
  | @round _ n hadmitted hmark hset htold hreached hround =>
    rw [heard_round _ htold, heard_round _ htold]
    refine (h i j hij).append ?_
    by_cases hj : j < n
    · rw [if_pos hj, if_pos (Nat.lt_of_le_of_lt hij hj)]
    · rw [if_neg hj]
      exact List.nil_sublist _

theorem Led.outcome {result : Except Failure Unit} (h : s.Led) (hsize : 0 < s.size)
    (houtcome : Outcome s c u result) : u.Led := by
  obtain ⟨turns, hheard, hstarted⟩ := h
  cases houtcome with
  | refused hevent hinactive hsame => exact hsame ▸ ⟨turns, hheard, hstarted⟩
  | idle hadmitted hmark hkept htold hreached =>
    exact ⟨turns, (heard_of_told htold 0).trans hheard, hkept.trans hstarted⟩
  | @round _ n hadmitted hmark hset htold hreached hround =>
    have hfirst : 0 < n := by
      cases hround with
      | whole hall => exact hsize
      | broken hk hbefore hfails => exact Nat.succ_pos _
    have hevent : c.event = .ofTurn turns := by
      rw [hstarted] at hmark
      cases hc : c.event <;> simp_all [LifecycleEvent.mark, LifecycleEvent.ofTurn]
    refine ⟨turns + 1, ?_, ?_⟩
    · rw [heard_round _ htold, if_pos hfirst, hheard, LifecycleEvent.inTurn_succ, hevent]
    · rw [hset, hevent]
      rcases Nat.mod_two_eq_zero_or_one turns with hturns | hturns
      · have hnext : (turns + 1) % 2 = 1 := by omega
        simp [LifecycleEvent.ofTurn, LifecycleEvent.mark, hturns, hnext]
      · have hnext : (turns + 1) % 2 = 0 := by omega
        simp [LifecycleEvent.ofTurn, LifecycleEvent.mark, hturns, hnext]

/-! ## Stops that get as far as the start -/

/-- Those who are due are the ones that the start has got to. -/
def Tidy (s : Rounds τ ι κ) : Prop := ∀ i, s.Due i ↔ s.bus.started = true ∧ i < s.reached

theorem toldSince_round {event : LifecycleEvent}
    (htold : u.told = s.told ++ (List.range n).map fun j => (j, event)) :
    s.toldSince u = (List.range n).map fun j => (j, event) := by
  rw [toldSince, htold, List.drop_left]

/-- Where the start has got to those who are due, a stop is paired exactly if it gets as far. -/
theorem Tidy.paired_iff (h : s.Tidy) (hstep : Step s c u) : Paired s c u ↔ Level s c u := by
  unfold Paired Level
  refine imp_congr_right fun hevent => imp_congr_right fun hstarted => ?_
  have houtcome := hstep.outcome
  generalize (s.call c).2 = result at houtcome
  cases houtcome with
  | refused hstart hinactive hsame => exact absurd (hevent.symm.trans hstart) nofun
  | idle hadmitted hmark hkept htold hreached =>
    rw [hstarted, hevent] at hmark
    exact absurd hmark nofun
  | @round _ n hadmitted hmark hset htold hreached hround =>
    rw [toldSince_round htold, hreached]
    constructor
    · rintro ⟨hnone, honly⟩
      refine Nat.le_antisymm (Nat.le_of_not_lt fun hlt => ?_) (Nat.le_of_not_lt fun hlt => ?_)
      · -- the observer behind the last that was told of the start is told of the stop
        have hmem : (s.reached, c.event) ∈ (List.range n).map fun j => (j, c.event) :=
          List.mem_map_of_mem (List.mem_range.mpr hlt)
        exact Nat.lt_irrefl _ ((h _).mp (honly _ hmem)).2
      · -- the observer behind the last that was told of the stop was told of the start
        refine hnone n ((due_round htold).mpr ?_)
        rw [if_neg (Nat.lt_irrefl n)]
        exact (h n).mpr ⟨hstarted, hlt⟩
    · rintro rfl
      refine ⟨fun i hdue => ?_, ?_⟩
      · rw [due_round htold] at hdue
        by_cases hi : i < s.reached
        · rw [if_pos hi, hevent] at hdue
          exact absurd hdue nofun
        · rw [if_neg hi] at hdue
          exact hi ((h i).mp hdue).2
      · simp only [List.mem_map, List.mem_range]
        rintro x ⟨i, hi, rfl⟩
        exact (h i).mpr ⟨hstarted, hi⟩

theorem Tidy.step (h : s.Tidy) (hstep : Step s c u) (hlevel : Level s c u) : u.Tidy := by
  intro i
  have houtcome := hstep.outcome
  generalize (s.call c).2 = result at houtcome
  cases houtcome with
  | refused hevent hinactive hsame => exact hsame ▸ h i
  | idle hadmitted hmark hkept htold hreached =>
    rw [Due, heard_of_told htold, hkept, hreached]
    exact h i
  | @round _ n hadmitted hmark hset htold hreached hround =>
    rw [due_round htold, hset, hreached]
    cases hevent : c.event with
    | started =>
      -- nobody was due before
      rw [hevent] at hmark
      have hnone : ¬s.Due i := fun hdue => absurd (hmark.symm.trans ((h i).mp hdue).1) nofun
      by_cases hi : i < n <;> simp [hi, hnone, LifecycleEvent.mark]
    | stopping =>
      rw [hevent] at hmark
      have hsame : n = s.reached := hreached ▸ hlevel hevent hmark
      by_cases hi : i < n
      · simp [hi, LifecycleEvent.mark]
      · have hnone : ¬s.Due i := fun hdue => hi (hsame ▸ ((h i).mp hdue).2)
        simp [hi, hnone, LifecycleEvent.mark]

theorem tidy_initial (bus : Bus τ ι κ) : (initial bus).Tidy := by
  intro i
  simp [initial, Due, heard]

theorem run_paired_iff_level (h : s.Tidy) :
    Run (fun s c u => Step s c u ∧ Paired s c u) s cs u ↔
      Run (fun s c u => Step s c u ∧ Level s c u) s cs u := by
  constructor
  · intro hrun
    refine hrun.mono_of_invariant Tidy h fun s c u h ⟨hstep, hpaired⟩ => ?_
    have hlevel := (h.paired_iff hstep).mp hpaired
    exact ⟨⟨hstep, hlevel⟩, h.step hstep hlevel⟩
  · intro hrun
    refine hrun.mono_of_invariant Tidy h fun s c u h ⟨hstep, hlevel⟩ => ?_
    exact ⟨⟨hstep, (h.paired_iff hstep).mpr hlevel⟩, h.step hstep hlevel⟩

/-! ## What becomes of the mark -/

theorem outcome_of_call {result : Except Failure Unit} (h : s.call c = (u, result)) :
    Outcome s c u result := by
  have houtcome := call_outcome s c
  rwa [h] at houtcome

/-- A call that finds the mark where it would set it succeeds, and nobody is told. -/
theorem Outcome.of_mark {result : Except Failure Unit} (houtcome : Outcome s c u result)
    (hadmitted : c.event = .started → s.bus.isActive = true)
    (hmark : s.bus.started = c.event.mark) : result = .ok () ∧ u.told = s.told := by
  cases houtcome with
  | refused hevent hinactive hsame => exact absurd (hinactive.symm.trans (hadmitted hevent)) nofun
  | idle _ _ hkept htold hreached => exact ⟨rfl, htold⟩
  | round _ hother _ _ _ _ =>
    rw [hmark] at hother
    exact absurd hother (by cases c.event.mark <;> decide)

/-- A bus that is started is active, for it is never disposed here. -/
theorem isActive_of_run (hrun : Run Step (initial bus) cs s) (hstarted : s.bus.started = true) :
    s.bus.isActive = true := by
  refine hrun.invariant (fun s => s.bus.started = true → s.bus.isActive = true) nofun ?_ hstarted
  intro s c u h hstep hu
  rw [hstep.kept.2]
  have houtcome := hstep.outcome
  generalize (s.call c).2 = result at houtcome
  cases houtcome with
  | refused hevent hinactive hsame => exact h (hsame ▸ hu)
  | idle hadmitted hmark hkept htold hreached => exact h (hkept.symm.trans hu)
  | round hadmitted hmark hset htold hreached hround =>
    cases hevent : c.event with
    | started => exact hadmitted hevent
    | stopping =>
      rw [hset, hevent] at hu
      exact absurd hu nofun

/-- A start fails because the bus is not active, or because an observer does. -/
theorem start_error {answers : Nat → Except Failure Unit} {cause : Failure}
    (hcall : s.call ⟨.started, answers⟩ = (u, .error cause)) :
    (s.bus.isActive = false ∧ u = s) ∨
    (u.bus.started = true ∧ u.bus.isActive = true ∧
      ∃ k < s.size, answers k = .error cause ∧ (∀ i < k, answers i = .ok ()) ∧
        s.toldSince u = (List.range (k + 1)).map fun i => (i, .started)) := by
  have hkept : u.bus.isActive = s.bus.isActive := (Step.kept (c := ⟨.started, answers⟩) (by
    rw [Step, hcall])).2
  cases outcome_of_call hcall with
  | refused hevent hinactive hsame => exact .inl ⟨hinactive, hsame⟩
  | round hadmitted hmark hset htold hreached hround =>
    cases hround with
    | @broken k _ hk hbefore hfails =>
      exact .inr ⟨hset, hkept.trans (hadmitted rfl), k, hk, hfails, hbefore, toldSince_round htold⟩

/-- A stop of a started bus goes one round, and clears the mark however the round ends. -/
theorem stop_round {answers : Nat → Except Failure Unit} {result : Except Failure Unit}
    (hstarted : s.bus.started = true) (hcall : s.call ⟨.stopping, answers⟩ = (u, result)) :
    u.bus.started = false ∧ ∃ n, Round answers s.size result n ∧
      s.toldSince u = (List.range n).map fun i => (i, .stopping) := by
  cases outcome_of_call hcall with
  | refused hevent hinactive hsame => exact absurd hevent nofun
  | idle hadmitted hmark hkept htold hreached => exact absurd (hstarted.symm.trans hmark) nofun
  | round hadmitted hmark hset htold hreached hround =>
    exact ⟨hset, _, hround, toldSince_round htold⟩

/-- **A stop leaves nobody behind exactly if it gets as far as the start before it.**  However
starts and stops follow one another, and whichever observers fail:

* a start fails because the bus is not active, and then the bus is not started, or because an
  observer fails; then that one and those in front of it have been told, the bus is started all the
  same, and the next start succeeds without telling anybody;
* after a stop the bus is not started, but only the observers up to the first that failed have been
  told;
* at every stop of a started bus, nobody is left who was told of the start and not of the stop, and
  nobody else is told, exactly if every such stop gets as far as the start before it;
* an observer hears all that one behind it hears, and the first one hears of starts and stops in
  turn, of a start last exactly if the bus is started. -/
theorem paired_iff_level (hrun : Run Step (initial bus) cs s) :
    (∀ answers u cause, s.call ⟨.started, answers⟩ = (u, .error cause) →
      (s.bus.isActive = false ∧ u = s ∧ u.bus.started = false) ∨
      (u.bus.started = true ∧
        (∃ k < s.size, answers k = .error cause ∧ (∀ i < k, answers i = .ok ()) ∧
          s.toldSince u = (List.range (k + 1)).map fun i => (i, .started)) ∧
        ∀ later, ∃ v, u.call ⟨.started, later⟩ = (v, .ok ()) ∧ v.told = u.told)) ∧
    (∀ answers u result, s.bus.started = true → s.call ⟨.stopping, answers⟩ = (u, result) →
      u.bus.started = false ∧ ∃ n, Round answers s.size result n ∧
        s.toldSince u = (List.range n).map fun i => (i, .stopping)) ∧
    (Run (fun s c u => Step s c u ∧ Paired s c u) (initial bus) cs s ↔
      Run (fun s c u => Step s c u ∧ Level s c u) (initial bus) cs s) ∧
    (∀ i j, i ≤ j → (s.heard j).Sublist (s.heard i)) ∧
    (0 < bus.observers.length →
      ∃ turns, s.heard 0 = LifecycleEvent.inTurn turns ∧
        s.bus.started = decide (turns % 2 = 1)) := by
  refine ⟨?_, fun answers u result => stop_round,
    run_paired_iff_level (tidy_initial bus), ?_, ?_⟩
  · intro answers u cause hcall
    rcases start_error hcall with ⟨hinactive, hsame⟩ | ⟨hstarted, hactive, htold⟩
    · refine .inl ⟨hinactive, hsame, ?_⟩
      rw [hsame]
      exact eq_false_of_ne_true fun hstarted =>
        absurd (hinactive.symm.trans (isActive_of_run hrun hstarted)) nofun
    · refine .inr ⟨hstarted, htold, fun later => ?_⟩
      obtain ⟨hok, hsame⟩ := (u.call_outcome ⟨.started, later⟩).of_mark (fun _ => hactive) hstarted
      exact ⟨_, Prod.ext rfl hok, hsame⟩
  · exact hrun.invariant Nested (fun i j _ => .slnil) fun _ _ _ h hstep => h.outcome hstep.outcome
  · intro hsize
    have hall : s.size = bus.observers.length ∧ s.Led :=
      hrun.invariant (fun s => s.size = bus.observers.length ∧ s.Led) ⟨rfl, 0, rfl, rfl⟩
        fun s c u h hstep =>
          ⟨hstep.size.trans h.1, h.2.outcome (h.1 ▸ hsize) hstep.outcome⟩
    exact hall.2

/-! ## A bus with two observers -/

/-- No observer fails. -/
def content (_ : Nat) : Except Failure Unit := .ok ()

/-- The first observer fails. -/
def firstDown (i : Nat) : Except Failure Unit :=
  if i = 0 then .error (.repository "down") else .ok ()

/-- The first observer fails when the bus starts, and again when it stops: the second one is told of
neither. -/
theorem paired_iff_level_broken_off : ∃ u,
    Run Step (initial Notices.watchedBus) [⟨.started, firstDown⟩, ⟨.stopping, firstDown⟩] u ∧
    u.heard 1 = [] ∧
    Run (fun s c u => Step s c u ∧ Paired s c u) (initial Notices.watchedBus)
      [⟨.started, firstDown⟩, ⟨.stopping, firstDown⟩] u := by
  have hlevel : Run (fun s c u => Step s c u ∧ Level s c u) (initial Notices.watchedBus)
      [⟨.started, firstDown⟩, ⟨.stopping, firstDown⟩] _ :=
    .cons ⟨rfl, nofun⟩ <| .cons ⟨rfl, fun _ _ => rfl⟩ (.nil _)
  have hrun := hlevel.mono fun _ _ _ h => h.1
  obtain ⟨-, -, hpaired, -, -⟩ := paired_iff_level hrun
  exact ⟨_, hrun, rfl, hpaired.mpr hlevel⟩

/-- **A start that fails leaves the bus started, and a stop that fails leaves observers behind.**
If the first observer fails, the start fails, and yet the bus is started and another start tells
nobody.  If it fails when the bus stops, the second one has been told of the start and is never told
of the stop.  And if it fails when the bus starts, the second one is told of a stop without a
start. -/
theorem left_behind :
    (∃ u v cause, (initial Notices.watchedBus).call ⟨.started, firstDown⟩ = (u, .error cause) ∧
      u.bus.started = true ∧ u.call ⟨.started, content⟩ = (v, .ok ()) ∧ v.told = u.told) ∧
    (∃ u v cause, (initial Notices.watchedBus).call ⟨.started, content⟩ = (u, .ok ()) ∧
      u.call ⟨.stopping, firstDown⟩ = (v, .error cause) ∧ v.bus.started = false ∧ v.Due 1) ∧
    ∃ u v cause, (initial Notices.watchedBus).call ⟨.started, firstDown⟩ = (u, .error cause) ∧
      u.call ⟨.stopping, content⟩ = (v, .ok ()) ∧ v.heard 1 = [.stopping] :=
  ⟨⟨_, _, _, rfl, rfl, rfl, rfl⟩, ⟨_, _, _, rfl, rfl, rfl, rfl⟩, ⟨_, _, _, rfl, rfl, rfl⟩⟩

end Rounds
end Courier
