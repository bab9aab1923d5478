import Courier.Bus.Lifecycle
import Courier.Proofs.Run
import Mathlib.Data.List.Nodup
import Mathlib.Data.List.Perm.Basic

/-!
# What observers are told

A start or a stop sets the mark of the bus at once, and then tells the observers one after the
other.  An observer takes its time, so other calls may change the mark again and overtake it on the
way to the observers behind.

`Notices` is a bus with the calls of it that are under way and with all that its observers have been
told.  Every change of the mark is numbered, and `Effect` says what a step does to the changes that
an observer has been told of and to those that are still owed to it.

Main statements: `told_of_every_change`, which holds for every order of the steps and says when the
observers hear the changes in their order, and `told_out_of_order`.
-/

namespace Courier

namespace LifecycleEvent

/-- What the change of this number tells; the first one is a start. -/
def ofTurn (turn : Nat) : LifecycleEvent := if turn % 2 = 0 then .started else .stopping

/-- The first so many changes: started and stopping in turn, beginning with started. -/
def inTurn (turns : Nat) : List LifecycleEvent := (List.range turns).map ofTurn

theorem inTurn_succ (turns : Nat) : inTurn (turns + 1) = inTurn turns ++ [ofTurn turns] := by
  simp [inTurn, List.range_succ]

theorem length_inTurn (turns : Nat) : (inTurn turns).length = turns := by
  simp [inTurn]

theorem ofTurn_eq_started_iff {turn : Nat} : ofTurn turn = .started ↔ turn % 2 = 0 := by
  simp [ofTurn]

/-- As many starts as stops are told, and one more if the last change is a start. -/
theorem count_inTurn (turns : Nat) :
    (inTurn turns).count .started = (inTurn turns).count .stopping + turns % 2 := by
  induction turns with
  | zero => rfl
  | succ turns ih =>
    rw [inTurn_succ, List.count_append, List.count_append, ih]
    rcases Nat.mod_two_eq_zero_or_one turns with h | h
    · have hnext : (turns + 1) % 2 = 1 := by omega
      simp [ofTurn, h, hnext]
    · have hnext : (turns + 1) % 2 = 0 := by omega
      simp [ofTurn, h, hnext]

/-- The last of the first so many changes is a start exactly if their number is odd. -/
theorem getLast?_inTurn (turns : Nat) :
    (inTurn turns).getLast? = some .started ↔ turns % 2 = 1 := by
  cases turns with
  | zero => simp [inTurn]
  | succ turns =>
    rw [inTurn_succ, List.getLast?_concat, Option.some.injEq, ofTurn_eq_started_iff]
    omega

end LifecycleEvent

namespace Bus

variable {τ ι κ : Type}

/-- Mark the bus as being disposed; only the first attempt does anything. -/
def attemptDisposal (b : Bus τ ι κ) : Option (Bus τ ι κ) :=
  if b.disposing then none else some { b with disposing := true }

theorem started_startSweeper (b : Bus τ ι κ) (tasksAvailable : Bool) :
    (b.startSweeper tasksAvailable).1.started = b.started := by
  unfold startSweeper
  split <;> rfl

theorem observers_startSweeper (b : Bus τ ι κ) (tasksAvailable : Bool) :
    (b.startSweeper tasksAvailable).1.observers = b.observers := by
  unfold startSweeper
  split <;> rfl

theorem markStarted_of_started {b : Bus τ ι κ} (h : b.started = true) :
    b.markStarted = (b, .ended (.ok ())) := by
  simp [markStarted, h]

theorem markStarted_of_not_started {b : Bus τ ι κ} (h : b.started = false) :
    b.markStarted = ({ b with started := true }, .tell .started b.observers) := by
  simp [markStarted, h]

theorem stop_of_started {b : Bus τ ι κ} (h : b.started = true) :
    b.stop = ({ b with started := false }, .tell .stopping b.observers) := by
  simp [stop, h]

theorem stop_of_not_started {b : Bus τ ι κ} (h : b.started = false) :
    b.stop = (b, .ended (.ok ())) := by
  simp [stop, h]

theorem attemptDisposal_some {b b' : Bus τ ι κ} (h : b.attemptDisposal = some b') :
    b' = { b with disposing := true } := by
  unfold attemptDisposal at h
  split at h
  · exact absurd h nofun
  · exact (Option.some.inj h).symm

theorem beginDisposal_eq (b : Bus τ ι κ) : b.beginDisposal = b.attemptDisposal.map stop := by
  unfold beginDisposal attemptDisposal
  split <;> rfl

end Bus

namespace Notices

/-- A call on a bus, as far as it has come; the change of the mark that it tells has a number. -/
inductive Stage (κ : Type)
  /-- A start has to ask whether the bus is active. -/
  | checking
  /-- A start has to start the sweeper. -/
  | sweeping
  /-- A start has to set the mark. -/
  | marking
  /-- A disposal has to ask whether it is the first one. -/
  | attempting
  /-- A stop has to clear the mark; it may be part of a disposal. -/
  | clearing (disposing : Bool)
  /-- It tells the observers; the one that it has come to may have been told already. -/
  | telling (turn : Nat) (disposing : Bool) (change : Change κ) (isTold : Bool)
  /-- A disposal has to dispose the sweeper. -/
  | ending
  | returned

/-- An observer has been told of a change. -/
structure Notice where
  observer : Nat
  turn : Nat
  event : LifecycleEvent

end Notices

open Notices (Stage Notice)

/-- A bus with all calls on it so far, and with what its observers have been told. -/
structure Notices (τ ι κ : Type) where
  bus : Bus τ ι κ
  /-- How often the mark has changed. -/
  turns : Nat := 0
  calls : List (Stage κ) := []
  /-- What was told, oldest first. -/
  told : List Notice := []

namespace Notices

variable {τ ι κ : Type}

/-- A bus that was not started yet, and that nobody has called. -/
def initial (bus : Bus τ ι κ) : Notices τ ι κ := { bus := { bus with started := false } }

/-- How many observers there are. -/
def size (s : Notices τ ι κ) : Nat := s.bus.observers.length

/-- What an observer has been told. -/
def heard (s : Notices τ ι κ) (i : Nat) : List LifecycleEvent :=
  (s.told.filter fun x => x.observer == i).map (·.event)

/-- The changes that an observer has been told of. -/
def heardTurns (s : Notices τ ι κ) (i : Nat) : List Nat :=
  (s.told.filter fun x => x.observer == i).map (·.turn)

/-- What a call tells: of which change, and how many observers are left. -/
def Stage.owing : Stage κ → Option (Nat × Nat)
  | .telling turn _ (.telling _ _ rest) isTold => some (turn, rest.length + (!isTold).toNat)
  | _ => none

/-- A call has to tell the observer `i` of `n` of a change. -/
def Stage.Owes (c : Stage κ) (n turn i : Nat) : Prop :=
  ∃ left, c.owing = some (turn, left) ∧ n ≤ i + left

/-- Some call has to tell an observer of a change. -/
def Owed (s : Notices τ ι κ) (turn i : Nat) : Prop :=
  ∃ (k : Nat) (c : Stage κ), s.calls[k]? = some c ∧ c.Owes s.size turn i

/-- No call is in progress. -/
def Idle (s : Notices τ ι κ) : Prop := ∀ c ∈ s.calls, c = .returned

/-- What can happen around a bus. -/
inductive Event
  | start
  | stop
  | dispose
  /-- A call goes on. -/
  | proceed (k : Nat)

/-- One step of a call: what it leaves behind, and how far it has come.  Observers never fail. -/
inductive Advance (s : Notices τ ι κ) : Stage κ → Notices τ ι κ → Stage κ → Prop
  | refuse {cause : Failure} (hactive : s.bus.requireActive = .error cause) :
      Advance s .checking s .returned
  | enter (hactive : s.bus.requireActive = .ok ()) : Advance s .checking s .sweeping
  | sweep (tasksAvailable : Bool) :
      Advance s .sweeping { s with bus := (s.bus.startSweeper tasksAvailable).1 } .marking
  | mark (hmark : s.bus.started = false) :
      Advance s .marking { s with bus := s.bus.markStarted.1, turns := s.turns + 1 }
        (.telling s.turns false s.bus.markStarted.2 false)
  | markAgain (hmark : s.bus.started = true) :
      Advance s .marking { s with bus := s.bus.markStarted.1 }
        (.telling s.turns false s.bus.markStarted.2 false)
  | attempt {b : Bus τ ι κ} (hfirst : s.bus.attemptDisposal = some b) :
      Advance s .attempting { s with bus := b } (.clearing true)
  | pass (hlater : s.bus.attemptDisposal = none) : Advance s .attempting s .returned
  | clear (disposing : Bool) (hmark : s.bus.started = true) :
      Advance s (.clearing disposing) { s with bus := s.bus.stop.1, turns := s.turns + 1 }
        (.telling s.turns disposing s.bus.stop.2 false)
  | clearAgain (disposing : Bool) (hmark : s.bus.started = false) :
      Advance s (.clearing disposing) { s with bus := s.bus.stop.1 }
        (.telling s.turns disposing s.bus.stop.2 false)
  | tell (turn : Nat) (disposing : Bool) (event : LifecycleEvent) (next : κ) (rest : List κ) :
      Advance s (.telling turn disposing (.telling event next rest) false)
        { s with told := s.told ++ [⟨s.size - (rest.length + 1), turn, event⟩] }
        (.telling turn disposing (.telling event next rest) true)
  | answer (turn : Nat) (disposing : Bool) (event : LifecycleEvent) (next : κ) (rest : List κ) :
      Advance s (.telling turn disposing (.telling event next rest) true) s
        (.telling turn disposing (Change.told event rest (.ok ())) false)
  | finish (turn : Nat) (disposing : Bool) (result : Except Failure Unit) (isTold : Bool) :
      Advance s (.telling turn disposing (.ended result) isTold) s
        (if disposing then .ending else .returned)
  | close : Advance s .ending { s with bus := s.bus.endDisposal } .returned

/-- One step around a bus. -/
inductive Step : Notices τ ι κ → Event → Notices τ ι κ → Prop
  | start {s : Notices τ ι κ} : Step s .start { s with calls := s.calls ++ [.checking] }
  | stop {s : Notices τ ι κ} : Step s .stop { s with calls := s.calls ++ [.clearing false] }
  | dispose {s : Notices τ ι κ} : Step s .dispose { s with calls := s.calls ++ [.attempting] }
  | proceed {s s' : Notices τ ι κ} {k : Nat} {c c' : Stage κ} (hcall : s.calls[k]? = some c)
      (hadvance : Advance s c s' c') :
      Step s (.proceed k) { s' with calls := s.calls.set k c' }

/-- A step that tells an observer of a change only when it has been told of all changes before. -/
def Orderly (s : Notices τ ι κ) (e : Event) (u : Notices τ ι κ) : Prop :=
  Step s e u ∧ ∀ x t, u.told = s.told ++ [x] → s.Owed t x.observer → x.turn ≤ t

variable {s s' u v : Notices τ ι κ} {e : Event} {es ds : List Event} {x : Notice}
variable {c c' : Stage κ} {j k t i n left : Nat}

/-! ## What is owed -/

/-- The change that a call still has to tell somebody of. -/
def Stage.turn? (c : Stage κ) : Option Nat := c.owing.map (·.1)

/-- The change that the call `k` still has to tell somebody of. -/
def turnAt (s : Notices τ ι κ) (k : Nat) : Option Nat := (s.calls[k]?).bind Stage.turn?

/-- What a call tells is the change of its number, and there are as many observers. -/
def Stage.Sound (turns size : Nat) : Stage κ → Prop
  | .telling turn _ (.telling event _ rest) _ =>
    turn < turns ∧ event = .ofTurn turn ∧ rest.length < size
  | _ => True

/-- The mark shows the number of its changes, and every change is told by one call. -/
structure Marked (s : Notices τ ι κ) : Prop where
  mark : s.bus.started = decide (s.turns % 2 = 1)
  sound : ∀ c ∈ s.calls, c.Sound s.turns s.size
  distinct : ∀ j k t, s.turnAt j = some t → s.turnAt k = some t → j = k
  told : ∀ x ∈ s.told, x.event = .ofTurn x.turn

theorem Stage.Sound.mono {m : Nat} (h : c.Sound m n) : c.Sound (m + 1) n := by
  match c with
  | .telling turn _ (.telling event _ rest) _ => exact ⟨Nat.lt_succ_of_lt h.1, h.2⟩
  | .telling _ _ (.ended _) _ => trivial
  | .checking | .sweeping | .marking | .attempting | .clearing _ | .ending | .returned => trivial

theorem Stage.Sound.lt {m : Nat} (h : c.Sound m n) (hturn : c.turn? = some t) : t < m := by
  match c with
  | .telling turn _ (.telling event _ rest) _ =>
    obtain rfl : turn = t := by simpa [Stage.turn?, Stage.owing] using hturn
    exact h.1

theorem Marked.lt (h : s.Marked) (hturn : s.turnAt k = some t) : t < s.turns := by
  obtain ⟨c, hc, ht⟩ := Option.bind_eq_some_iff.mp hturn
  exact (h.sound c (List.mem_of_getElem? hc)).lt ht

theorem sound_tell {m : Nat} (disposing : Bool) (observers : List κ)
    (hturn : t < m) (hsize : observers.length ≤ n) :
    (Stage.telling t disposing (.tell (.ofTurn t) observers) false).Sound m n := by
  cases observers with
  | nil => trivial
  | cons o rest => exact ⟨hturn, rfl, hsize⟩

theorem turn?_tell {turn : Nat} {disposing : Bool} {event : LifecycleEvent} {observers : List κ}
    (h : (Stage.telling turn disposing (.tell event observers) false).turn? = some t) :
    t = turn := by
  cases observers with
  | nil => exact absurd h nofun
  | cons o rest => exact (Option.some.inj h).symm

/-! ## Steps of a call -/

theorem Advance.size (hadvance : Advance s c s' c') : s'.size = s.size := by
  cases hadvance with
  | sweep tasksAvailable => exact congrArg List.length (s.bus.observers_startSweeper _)
  | mark hmark => simp [Notices.size, Bus.markStarted_of_not_started hmark]
  | markAgain hmark => simp [Notices.size, Bus.markStarted_of_started hmark]
  | attempt hfirst => simp [Notices.size, Bus.attemptDisposal_some hfirst]
  | clear disposing hmark => simp [Notices.size, Bus.stop_of_started hmark]
  | clearAgain disposing hmark => simp [Notices.size, Bus.stop_of_not_started hmark]
  | _ => rfl

/-- A call changes the mark and numbers the change, or does neither. -/
theorem Advance.mark_or (hadvance : Advance s c s' c') :
    (s'.turns = s.turns + 1 ∧ s'.bus.started = !s.bus.started) ∨
    (s'.turns = s.turns ∧ s'.bus.started = s.bus.started) := by
  cases hadvance with
  | sweep tasksAvailable => exact .inr ⟨rfl, s.bus.started_startSweeper _⟩
  | mark hmark => exact .inl ⟨rfl, by simp [Bus.markStarted_of_not_started hmark, hmark]⟩
  | markAgain hmark => exact .inr ⟨rfl, by rw [Bus.markStarted_of_started hmark]⟩
  | attempt hfirst => exact .inr ⟨rfl, by rw [Bus.attemptDisposal_some hfirst]⟩
  | clear disposing hmark => exact .inl ⟨rfl, by simp [Bus.stop_of_started hmark, hmark]⟩
  | clearAgain disposing hmark => exact .inr ⟨rfl, by rw [Bus.stop_of_not_started hmark]⟩
  | _ => exact .inr ⟨rfl, rfl⟩

theorem Advance.turns_le (hadvance : Advance s c s' c') :
    s'.turns = s.turns ∨ s'.turns = s.turns + 1 := by
  rcases hadvance.mark_or with ⟨h, -⟩ | ⟨h, -⟩
  · exact .inr h
  · exact .inl h

/-- What a call tells next is what it has told before, or a change that it has just made. -/
theorem Advance.turn? (hadvance : Advance s c s' c') (hturn : c'.turn? = some t) :
    c.turn? = some t ∨ (t = s.turns ∧ s'.turns = s.turns + 1) := by
  cases hadvance with
  | mark hmark =>
    rw [Bus.markStarted_of_not_started hmark] at hturn
    exact .inr ⟨turn?_tell hturn, rfl⟩
  | markAgain hmark => simp [Bus.markStarted_of_started hmark, Stage.turn?, Stage.owing] at hturn
  | clear disposing hmark =>
    rw [Bus.stop_of_started hmark] at hturn
    exact .inr ⟨turn?_tell hturn, rfl⟩
  | clearAgain disposing hmark =>
    simp [Bus.stop_of_not_started hmark, Stage.turn?, Stage.owing] at hturn
  | tell turn disposing event next rest => exact .inl hturn
  | answer turn disposing event next rest => exact .inl (congrArg some (turn?_tell hturn).symm)
  | finish turn disposing result isTold => cases disposing <;> exact absurd hturn nofun
  | _ => exact absurd hturn nofun

theorem Advance.sound (h : s.Marked) (hc : c.Sound s.turns s.size)
    (hadvance : Advance s c s' c') : c'.Sound s'.turns s'.size := by
  rw [hadvance.size]
  have hevent : s.bus.started = decide (s.turns % 2 = 1) := h.mark
  cases hadvance with
  | mark hmark =>
    have hturn : LifecycleEvent.started = .ofTurn s.turns := by
      rw [hmark] at hevent
      simp [LifecycleEvent.ofTurn] at hevent ⊢
      omega
    rw [Bus.markStarted_of_not_started hmark, hturn]
    exact sound_tell _ _ (Nat.lt_succ_self _) (Nat.le_refl _)
  | markAgain hmark =>
    rw [Bus.markStarted_of_started hmark]
    trivial
  | clear disposing hmark =>
    have hturn : LifecycleEvent.stopping = .ofTurn s.turns := by
      rw [hmark] at hevent
      simp [LifecycleEvent.ofTurn] at hevent ⊢
      omega
    rw [Bus.stop_of_started hmark, hturn]
    exact sound_tell _ _ (Nat.lt_succ_self _) (Nat.le_refl _)
  | clearAgain disposing hmark =>
    rw [Bus.stop_of_not_started hmark]
    trivial
  | tell turn disposing event next rest => exact hc
  | answer turn disposing event next rest =>
    obtain ⟨hlt, rfl, hrest⟩ := hc
    exact sound_tell _ _ hlt (Nat.le_of_lt hrest)
  | finish turn disposing result isTold => cases disposing <;> trivial
  | _ => trivial

/-- A call tells what its change is. -/
theorem Advance.told (hc : c.Sound s.turns s.size) (hadvance : Advance s c s' c') :
    s'.told = s.told ∨ ∃ x : Notice, s'.told = s.told ++ [x] ∧ x.event = .ofTurn x.turn := by
  cases hadvance with
  | tell turn disposing event next rest => exact .inr ⟨_, rfl, hc.2.1⟩
  | _ => exact .inl rfl

/-! ## The numbers of the changes -/

theorem Step.size (hstep : Step s e u) : u.size = s.size := by
  cases hstep with
  | proceed hcall hadvance => exact hadvance.size
  | _ => rfl

/-- After a step a call tells what it has told before, or a change that it has just made. -/
theorem Step.turnAt (hstep : Step s e u) (hturn : u.turnAt j = some t) :
    s.turnAt j = some t ∨ (e = .proceed j ∧ t = s.turns) := by
  have hnew : ∀ c : Stage κ, c.turn? = none → ((s.calls ++ [c])[j]?).bind Stage.turn? = some t →
      s.turnAt j = some t := by
    intro c hc h
    obtain ⟨d, hd, ht⟩ := Option.bind_eq_some_iff.mp h
    rcases getElem?_or_eq_of_concat hd with hold | rfl
    · exact Option.bind_eq_some_iff.mpr ⟨d, hold, ht⟩
    · exact absurd (hc.symm.trans ht) nofun
  cases hstep with
  | start => exact .inl (hnew _ rfl hturn)
  | stop => exact .inl (hnew _ rfl hturn)
  | dispose => exact .inl (hnew _ rfl hturn)
  | @proceed s' k c c' hcall hadvance =>
    by_cases hk : k = j
    · subst hk
      have hlt : k < s.calls.length := (List.getElem?_eq_some_iff.mp hcall).1
      have hturn' : c'.turn? = some t := by
        simpa [Notices.turnAt, List.getElem?_set_self hlt] using hturn
      rcases hadvance.turn? hturn' with hold | ⟨rfl, -⟩
      · exact .inl (Option.bind_eq_some_iff.mpr ⟨c, hcall, hold⟩)
      · exact .inr ⟨rfl, rfl⟩
    · exact .inl (by simpa [Notices.turnAt, List.getElem?_set_ne hk] using hturn)

/-- **Every change of the mark is numbered** and told by the call that made it. -/
theorem Marked.step (h : s.Marked) (hstep : Step s e u) : u.Marked := by
  have hdistinct : ∀ j k t, u.turnAt j = some t → u.turnAt k = some t → j = k := by
    intro j k t hj hk
    rcases hstep.turnAt hj with hj | ⟨hej, rfl⟩
    · rcases hstep.turnAt hk with hk | ⟨-, rfl⟩
      · exact h.distinct j k t hj hk
      · exact absurd (h.lt hj) (Nat.lt_irrefl _)
    · rcases hstep.turnAt hk with hk | ⟨hek, -⟩
      · exact absurd (h.lt hk) (Nat.lt_irrefl _)
      · exact Event.proceed.inj (hej.symm.trans hek)
  have hcalled : ∀ c : Stage κ, c.Sound s.turns s.size → ∀ d ∈ s.calls ++ [c],
      d.Sound s.turns s.size := by
    intro c hc d hd
    rcases List.mem_append.mp hd with hold | hlast
    · exact h.sound d hold
    · exact List.mem_singleton.mp hlast ▸ hc
  cases hstep with
  | start => exact ⟨h.mark, hcalled _ trivial, hdistinct, h.told⟩
  | stop => exact ⟨h.mark, hcalled _ trivial, hdistinct, h.told⟩
  | dispose => exact ⟨h.mark, hcalled _ trivial, hdistinct, h.told⟩
  | @proceed s' k c c' hcall hadvance =>
    have hc : c.Sound s.turns s.size := h.sound c (List.mem_of_getElem? hcall)
    refine ⟨?_, ?_, hdistinct, ?_⟩
    · change s'.bus.started = decide (s'.turns % 2 = 1)
      rcases hadvance.mark_or with ⟨hturns, hmark⟩ | ⟨hturns, hmark⟩
      · rw [hturns, hmark, h.mark]
        by_cases hodd : s.turns % 2 = 1
        · have hnext : ¬(s.turns + 1) % 2 = 1 := by omega
          simp [hodd, hnext]
        · have hnext : (s.turns + 1) % 2 = 1 := by omega
          simp [hodd, hnext]
      · rw [hturns, hmark, h.mark]
    · intro d hd
      change d.Sound s'.turns s'.size
      rcases List.mem_or_eq_of_mem_set hd with hold | rfl
      · rw [hadvance.size]
        rcases hadvance.turns_le with hturns | hturns
        · rw [hturns]
          exact h.sound d hold
        · rw [hturns]
          exact (h.sound d hold).mono
      · exact hadvance.sound h hc
    · intro x hx
      rcases hadvance.told hc with hsame | ⟨y, hnew, hy⟩
      · exact h.told x (hsame ▸ hx)
      · rcases List.mem_append.mp (hnew ▸ hx) with hold | hlast
        · exact h.told x hold
        · exact List.mem_singleton.mp hlast ▸ hy

/-! ## What a step does to what is owed -/

theorem owes_tell {turn : Nat} {disposing : Bool} {event : LifecycleEvent} {observers : List κ}
    (hi : i < n) : (Stage.telling turn disposing (.tell event observers) false).Owes n t i ↔
      t = turn ∧ n ≤ i + observers.length := by
  cases observers with
  | nil =>
    constructor
    · rintro ⟨left, howing, -⟩
      exact absurd howing nofun
    · rintro ⟨-, hle⟩
      simp only [List.length_nil] at hle
      omega
  | cons o rest =>
    constructor
    · rintro ⟨left, howing, hle⟩
      obtain ⟨rfl, rfl⟩ := Prod.mk.inj (Option.some.inj howing)
      exact ⟨rfl, hle⟩
    · rintro ⟨rfl, hle⟩
      exact ⟨_, rfl, hle⟩

theorem owes_telling {turn : Nat} {disposing isTold : Bool} {event : LifecycleEvent} {next : κ}
    {rest : List κ} :
    (Stage.telling turn disposing (.telling event next rest) isTold).Owes n t i ↔
      t = turn ∧ n ≤ i + (rest.length + (!isTold).toNat) := by
  constructor
  · rintro ⟨left, howing, hle⟩
    obtain ⟨rfl, rfl⟩ := Prod.mk.inj (Option.some.inj howing)
    exact ⟨rfl, hle⟩
  · rintro ⟨rfl, hle⟩
    exact ⟨_, rfl, hle⟩

theorem Stage.Owes.turn? (h : c.Owes n t i) : c.turn? = some t := by
  obtain ⟨left, howing, -⟩ := h
  simp [Stage.turn?, howing]

theorem not_owes_of_owing (h : c.owing = none) : ¬c.Owes n t i := by
  rintro ⟨left, howing, -⟩
  exact absurd (h.symm.trans howing) nofun

/-- What is owed is owed by the call `k` or by another one. -/
theorem owed_iff (hcall : s.calls[k]? = some c) :
    s.Owed t i ↔ c.Owes s.size t i ∨
      ∃ (j : Nat) (d : Stage κ), j ≠ k ∧ s.calls[j]? = some d ∧ d.Owes s.size t i := by
  constructor
  · rintro ⟨j, d, hd, howes⟩
    by_cases hj : j = k
    · subst hj
      obtain rfl := Option.some.inj (hcall.symm.trans hd)
      exact .inl howes
    · exact .inr ⟨j, d, hj, hd, howes⟩
  · rintro (howes | ⟨j, d, -, hd, howes⟩)
    · exact ⟨k, c, hcall, howes⟩
    · exact ⟨j, d, hd, howes⟩

/-- When the call `k` has gone on, the others owe what they did. -/
theorem owed_setCall (hcall : s.calls[k]? = some c) (hsize : s'.size = s.size) :
    ({ s' with calls := s.calls.set k c' } : Notices τ ι κ).Owed t i ↔ c'.Owes s.size t i ∨
      ∃ (j : Nat) (d : Stage κ), j ≠ k ∧ s.calls[j]? = some d ∧ d.Owes s.size t i := by
  have hlt : k < s.calls.length := (List.getElem?_eq_some_iff.mp hcall).1
  have hothers : ∀ {j : Nat}, j ≠ k → (s.calls.set k c')[j]? = s.calls[j]? := by
    intro j hj
    exact List.getElem?_set_ne hj.symm
  rw [owed_iff (s := { s' with calls := s.calls.set k c' }) (List.getElem?_set_self hlt)]
  change c'.Owes s'.size t i ∨ _ ↔ _
  rw [hsize]
  constructor
  · rintro (howes | ⟨j, d, hj, hd, howes⟩)
    · exact .inl howes
    · exact .inr ⟨j, d, hj, (hothers hj).symm.trans hd, hsize ▸ howes⟩
  · rintro (howes | ⟨j, d, hj, hd, howes⟩)
    · exact .inl howes
    · exact .inr ⟨j, d, hj, (hothers hj).trans hd, hsize.symm ▸ howes⟩

/-- What a step can do to what the observers have been told and to what is owed to them. -/
inductive Effect (s u : Notices τ ι κ) : Prop
  | quiet (hturns : u.turns = s.turns) (htold : u.told = s.told)
      (howed : ∀ t i, i < s.size → (u.Owed t i ↔ s.Owed t i))
  | change (hturns : u.turns = s.turns + 1) (htold : u.told = s.told)
      (howed : ∀ t i, i < s.size → (u.Owed t i ↔ t = s.turns ∨ s.Owed t i))
  | tell {x : Notice} (hturns : u.turns = s.turns) (htold : u.told = s.told ++ [x])
      (howes : s.Owed x.turn x.observer)
      (howed : ∀ t i, i < s.size →
        (u.Owed t i ↔ s.Owed t i ∧ ¬(t = x.turn ∧ i = x.observer)))

/-- A call that has just begun owes nothing. -/
theorem owed_called (hc : c.owing = none) :
    ({ s with calls := s.calls ++ [c] } : Notices τ ι κ).Owed t i ↔ s.Owed t i := by
  constructor
  · rintro ⟨j, d, hd, howes⟩
    rcases getElem?_or_eq_of_concat hd with hold | rfl
    · exact ⟨j, d, hold, howes⟩
    · exact absurd howes (not_owes_of_owing hc)
  · rintro ⟨j, d, hd, howes⟩
    have hlt : j < s.calls.length := (List.getElem?_eq_some_iff.mp hd).1
    exact ⟨j, d, (List.getElem?_append_left hlt).trans hd, howes⟩

/-- A call that owes what it did before leaves everything as it is. -/
theorem effect_of_same (hcall : s.calls[k]? = some c) (hsize : s'.size = s.size)
    (hturns : s'.turns = s.turns) (htold : s'.told = s.told)
    (hsame : ∀ t i, i < s.size → (c'.Owes s.size t i ↔ c.Owes s.size t i)) :
    Effect s { s' with calls := s.calls.set k c' } := by
  refine .quiet hturns htold ?_
  intro t i hi
  rw [owed_setCall hcall hsize, owed_iff hcall, hsame t i hi]

/-- A call that has changed the mark owes the change to every observer. -/
theorem effect_of_change (hcall : s.calls[k]? = some c) (hsize : s'.size = s.size)
    (hturns : s'.turns = s.turns + 1) (htold : s'.told = s.told) (hc : c.owing = none)
    (hall : ∀ t i, i < s.size → (c'.Owes s.size t i ↔ t = s.turns)) :
    Effect s { s' with calls := s.calls.set k c' } := by
  refine .change hturns htold ?_
  intro t i hi
  rw [owed_setCall hcall hsize, owed_iff hcall, hall t i hi]
  simp only [not_owes_of_owing hc, false_or]

theorem Advance.effect (h : s.Marked) (hcall : s.calls[k]? = some c)
    (hadvance : Advance s c s' c') : Effect s { s' with calls := s.calls.set k c' } := by
  have hsize := hadvance.size
  have hnone : ∀ {c c' : Stage κ}, c.owing = none → c'.owing = none → ∀ t i, i < s.size →
      (c'.Owes s.size t i ↔ c.Owes s.size t i) := by
    intro c c' hc hc' t i _
    simp only [not_owes_of_owing hc, not_owes_of_owing hc']
  cases hadvance with
  | mark hmark =>
    refine effect_of_change hcall hsize rfl rfl rfl ?_
    intro t i hi
    rw [Bus.markStarted_of_not_started hmark, owes_tell hi]
    exact and_iff_left (Nat.le_add_left _ _)
  | clear disposing hmark =>
    refine effect_of_change hcall hsize rfl rfl rfl ?_
    intro t i hi
    rw [Bus.stop_of_started hmark, owes_tell hi]
    exact and_iff_left (Nat.le_add_left _ _)
  | markAgain hmark =>
    refine effect_of_same hcall hsize rfl rfl (hnone rfl ?_)
    rw [Bus.markStarted_of_started hmark]
    rfl
  | clearAgain disposing hmark =>
    refine effect_of_same hcall hsize rfl rfl (hnone rfl ?_)
    rw [Bus.stop_of_not_started hmark]
    rfl
  | answer turn disposing event next rest =>
    refine effect_of_same hcall hsize rfl rfl ?_
    intro t i hi
    rw [Change.told, owes_tell hi, owes_telling]
    rfl
  | tell turn disposing event next rest =>
    have hrest : rest.length < s.size := (h.sound _ (List.mem_of_getElem? hcall)).2.2
    have hturn : s.turnAt k = some turn := Option.bind_eq_some_iff.mpr ⟨_, hcall, rfl⟩
    refine .tell rfl rfl ?_ ?_
    · refine ⟨k, _, hcall, owes_telling.mpr ⟨rfl, ?_⟩⟩
      simp only [Bool.not_false, Bool.toNat_true]
      omega
    · intro t i hi
      rw [owed_setCall hcall hsize, owed_iff hcall, owes_telling, owes_telling]
      simp only [Bool.not_false, Bool.toNat_true, Bool.not_true, Bool.toNat_false]
      constructor
      · rintro (⟨rfl, hle⟩ | ⟨j, d, hj, hd, howes⟩)
        · exact ⟨.inl ⟨rfl, by omega⟩, by omega⟩
        · refine ⟨.inr ⟨j, d, hj, hd, howes⟩, ?_⟩
          -- no other call tells of this change
          rintro ⟨rfl, -⟩
          exact hj (h.distinct j k _ (Option.bind_eq_some_iff.mpr ⟨d, hd, howes.turn?⟩) hturn)
      · rintro ⟨⟨rfl, hle⟩ | hothers, hnot⟩
        · refine .inl ⟨rfl, ?_⟩
          by_contra hlt
          exact hnot ⟨rfl, by omega⟩
        · exact .inr hothers
  | finish turn disposing result isTold =>
    refine effect_of_same hcall hsize rfl rfl (hnone rfl ?_)
    cases disposing <;> rfl
  | _ => exact effect_of_same hcall hsize rfl rfl (hnone rfl rfl)

/-- Every step does one of these to what is owed. -/
theorem Step.effect (h : s.Marked) (hstep : Step s e u) : Effect s u := by
  cases hstep with
  | proceed hcall hadvance => exact hadvance.effect h hcall
  | _ => exact .quiet rfl rfl fun t i _ => owed_called rfl

/-! ## Every change is told once -/

theorem heardTurns_append (htold : u.told = s.told ++ [x]) :
    u.heardTurns i = s.heardTurns i ++ if x.observer = i then [x.turn] else [] := by
  unfold heardTurns
  rw [htold, List.filter_append, List.map_append]
  by_cases hi : x.observer = i <;> simp [hi]

/-- What an observer has been told is the changes that it has been told of. -/
theorem Marked.heard_eq (h : s.Marked) : s.heard i = (s.heardTurns i).map .ofTurn := by
  unfold heard heardTurns
  rw [List.map_map]
  refine List.map_congr_left ?_
  intro x hx
  exact h.told x (List.mem_filter.mp hx).1

/-- An observer is told of every change once: it has been told of it, or is owed it. -/
structure Fair (s : Notices τ ι κ) (i : Nat) : Prop where
  nodup : (s.heardTurns i).Nodup
  known : ∀ t ∈ s.heardTurns i, t < s.turns
  told_or_owed : ∀ t < s.turns, t ∈ s.heardTurns i ∨ s.Owed t i
  fresh : ∀ t, s.Owed t i → t < s.turns ∧ t ∉ s.heardTurns i

theorem Fair.step (h : s.Fair i) (heffect : Effect s u) (hi : i < s.size) : u.Fair i := by
  cases heffect with
  | quiet hturns htold howed =>
    have hsame : u.heardTurns i = s.heardTurns i := by rw [heardTurns, htold, heardTurns]
    refine ⟨hsame ▸ h.nodup, ?_, ?_, ?_⟩
    · rw [hsame, hturns]
      exact h.known
    · intro t ht
      rw [hsame, howed t i hi]
      exact h.told_or_owed t (hturns ▸ ht)
    · intro t ht
      rw [hsame, hturns]
      exact h.fresh t ((howed t i hi).mp ht)
  | change hturns htold howed =>
    have hsame : u.heardTurns i = s.heardTurns i := by rw [heardTurns, htold, heardTurns]
    refine ⟨hsame ▸ h.nodup, ?_, ?_, ?_⟩
    · intro t ht
      rw [hturns]
      exact Nat.lt_succ_of_lt (h.known t (hsame ▸ ht))
    · intro t ht
      rw [hsame, howed t i hi]
      by_cases hlast : t = s.turns
      · exact .inr (.inl hlast)
      · rcases h.told_or_owed t (by omega) with hold | hold
        · exact .inl hold
        · exact .inr (.inr hold)
    · intro t ht
      rw [hsame, hturns]
      rcases (howed t i hi).mp ht with rfl | hold
      · exact ⟨Nat.lt_succ_self _, fun hmem => Nat.lt_irrefl _ (h.known _ hmem)⟩
      · obtain ⟨hlt, hnew⟩ := h.fresh t hold
        exact ⟨Nat.lt_succ_of_lt hlt, hnew⟩
  | @tell x hturns htold howes howed =>
    have happend := heardTurns_append (i := i) htold
    by_cases hx : x.observer = i
    · subst hx
      rw [if_pos rfl] at happend
      obtain ⟨hlt, hnew⟩ := h.fresh _ howes
      refine ⟨?_, ?_, ?_, ?_⟩
      · rw [happend]
        refine List.nodup_append.mpr ⟨h.nodup, List.nodup_singleton _, ?_⟩
        rintro a ha b hb rfl
        exact hnew (List.mem_singleton.mp hb ▸ ha)
      · intro t ht
        rw [hturns]
        rcases List.mem_append.mp (happend ▸ ht) with hold | hlast
        · exact h.known t hold
        · exact List.mem_singleton.mp hlast ▸ hlt
      · intro t ht
        rw [happend, howed t _ hi]
        rcases h.told_or_owed t (hturns ▸ ht) with hold | hold
        · exact .inl (List.mem_append_left _ hold)
        · by_cases heq : t = x.turn
          · exact .inl (by simp [heq])
          · exact .inr ⟨hold, fun hboth => heq hboth.1⟩
      · intro t ht
        obtain ⟨hold, hother⟩ := (howed t _ hi).mp ht
        obtain ⟨hlt', hnew'⟩ := h.fresh t hold
        refine ⟨hturns ▸ hlt', ?_⟩
        rw [happend]
        simp only [List.mem_append, List.mem_singleton, not_or]
        exact ⟨hnew', fun heq => hother ⟨heq, rfl⟩⟩
    · rw [if_neg hx, List.append_nil] at happend
      have hsame : ∀ t, u.Owed t i ↔ s.Owed t i := by
        intro t
        rw [howed t i hi]
        exact and_iff_left fun hboth => hx hboth.2.symm
      refine ⟨happend ▸ h.nodup, ?_, ?_, ?_⟩
      · rw [happend, hturns]
        exact h.known
      · intro t ht
        rw [happend, hsame]
        exact h.told_or_owed t (hturns ▸ ht)
      · intro t ht
        rw [happend, hturns]
        exact h.fresh t ((hsame t).mp ht)

/-- An observer has been told of the changes in their order. -/
def InOrder (s : Notices τ ι κ) (i : Nat) : Prop :=
  s.heardTurns i = List.range (s.heardTurns i).length

/-- **An orderly step keeps the order.**  The change that an observer is told of is the first one
that it does not know. -/
theorem InOrder.step (h : s.InOrder i) (hfair : s.Fair i) (heffect : Effect s u)
    (horderly : ∀ x t, u.told = s.told ++ [x] → s.Owed t x.observer → x.turn ≤ t) :
    u.InOrder i := by
  have hquiet : u.told = s.told → u.InOrder i := by
    intro htold
    rw [InOrder, heardTurns, htold]
    exact h
  cases heffect with
  | quiet hturns htold howed => exact hquiet htold
  | change hturns htold howed => exact hquiet htold
  | @tell x hturns htold howes howed =>
    have happend := heardTurns_append (i := i) htold
    by_cases hx : x.observer = i
    · subst hx
      rw [if_pos rfl] at happend
      obtain ⟨hlt, hnew⟩ := hfair.fresh _ howes
      have hmem : ∀ t, t ∈ s.heardTurns x.observer ↔ t < (s.heardTurns x.observer).length := by
        intro t
        conv_lhs => rw [h]
        exact List.mem_range
      have hnext : x.turn = (s.heardTurns x.observer).length := by
        refine Nat.le_antisymm ?_ (Nat.le_of_not_lt fun hlt' => hnew ((hmem _).mpr hlt'))
        by_contra hgt
        -- the first change that it does not know is owed to it as well
        have hle : (s.heardTurns x.observer).length < s.turns := by omega
        rcases hfair.told_or_owed _ hle with hold | hold
        · exact Nat.lt_irrefl _ ((hmem _).mp hold)
        · exact hgt (horderly x _ htold hold)
      rw [InOrder, happend, List.length_append, List.length_singleton, List.range_succ, ← h, hnext]
    · rw [if_neg hx, List.append_nil] at happend
      rw [InOrder, happend]
      exact h

/-! ## Runs -/

theorem not_owed_of_idle (h : s.Idle) : ¬s.Owed t i := by
  rintro ⟨k, c, hc, howes⟩
  rw [h c (List.mem_of_getElem? hc)] at howes
  exact not_owes_of_owing rfl howes

/-- When no call is in progress, an observer has been told of all changes. -/
theorem Fair.perm_of_idle (h : s.Fair i) (hidle : s.Idle) :
    (s.heardTurns i).Perm (List.range s.turns) := by
  refine (List.perm_ext_iff_of_nodup h.nodup List.nodup_range).mpr ?_
  intro t
  rw [List.mem_range]
  refine ⟨h.known t, fun ht => ?_⟩
  rcases h.told_or_owed t ht with htold | howed
  · exact htold
  · exact absurd howed (not_owed_of_idle hidle)

theorem marked_initial (bus : Bus τ ι κ) : (initial bus).Marked where
  mark := rfl
  sound := nofun
  distinct := nofun
  told := nofun

theorem fair_initial (bus : Bus τ ι κ) (i : Nat) : (initial bus).Fair i where
  nodup := .nil
  known := nofun
  told_or_owed := nofun
  fresh := by
    rintro t ⟨k, c, hc, -⟩
    exact absurd hc nofun

theorem marked_of_run {bus : Bus τ ι κ} (hrun : Run Step (initial bus) es s) : s.Marked :=
  hrun.invariant Marked (marked_initial bus) fun _ _ _ h hstep => h.step hstep

/-- **Every order of the steps tells every change once.** -/
theorem fair_of_run {bus : Bus τ ι κ} (hrun : Run Step (initial bus) es s)
    (hi : i < bus.observers.length) : s.Fair i := by
  have hall : s.Marked ∧ s.size = bus.observers.length ∧ s.Fair i := by
    refine hrun.invariant (fun s => s.Marked ∧ s.size = bus.observers.length ∧ s.Fair i)
      ⟨marked_initial bus, rfl, fair_initial bus i⟩ ?_
    rintro s e u ⟨hmarked, hsize, hfair⟩ hstep
    exact ⟨hmarked.step hstep, hstep.size.trans hsize,
      hfair.step (hstep.effect hmarked) (hsize ▸ hi)⟩
  exact hall.2.2

/-- **In an orderly run the observers hear the changes in their order.** -/
theorem inOrder_of_run {bus : Bus τ ι κ} (hrun : Run Orderly (initial bus) es s)
    (hi : i < bus.observers.length) : s.InOrder i := by
  have hall : s.Marked ∧ s.size = bus.observers.length ∧ s.Fair i ∧ s.InOrder i := by
    refine hrun.invariant
      (fun s => s.Marked ∧ s.size = bus.observers.length ∧ s.Fair i ∧ s.InOrder i)
      ⟨marked_initial bus, rfl, fair_initial bus i, rfl⟩ ?_
    rintro s e u ⟨hmarked, hsize, hfair, horder⟩ ⟨hstep, horderly⟩
    have heffect := hstep.effect hmarked
    exact ⟨hmarked.step hstep, hstep.size.trans hsize, hfair.step heffect (hsize ▸ hi),
      horder.step hfair heffect horderly⟩
  exact hall.2.2.2

/-! ## After a disposal -/

/-- A call may still tell somebody that the bus has started. -/
def Stage.mayStart : Stage κ → Bool
  | .sweeping | .marking => true
  | .telling _ _ (.telling .started _ _) _ => true
  | _ => false

/-- The bus is being disposed, and no call may tell any more that it has started. -/
structure Closed (s : Notices τ ι κ) : Prop where
  disposing : s.bus.disposing = true
  calls : ∀ c ∈ s.calls, c.mayStart = false

theorem mayStart_tell (turn : Nat) (disposing : Bool) (observers : List κ) :
    (Stage.telling turn disposing (.tell .stopping observers) false).mayStart = false := by
  cases observers <;> rfl

theorem Advance.closed (hdisposing : s.bus.disposing = true) (hc : c.mayStart = false)
    (hadvance : Advance s c s' c') :
    s'.bus.disposing = true ∧ c'.mayStart = false ∧
      (s'.told = s.told ∨ ∃ x : Notice, s'.told = s.told ++ [x] ∧ x.event = .stopping) := by
  cases hadvance with
  | refuse hactive => exact ⟨hdisposing, rfl, .inl rfl⟩
  | enter hactive => simp [Bus.requireActive, Bus.isActive, hdisposing] at hactive
  | sweep tasksAvailable => exact absurd hc nofun
  | mark hmark => exact absurd hc nofun
  | markAgain hmark => exact absurd hc nofun
  | attempt hfirst => simp [Bus.attemptDisposal, hdisposing] at hfirst
  | pass hlater => exact ⟨hdisposing, rfl, .inl rfl⟩
  | clear disposing hmark =>
    rw [Bus.stop_of_started hmark]
    exact ⟨hdisposing, mayStart_tell _ _ _, .inl rfl⟩
  | clearAgain disposing hmark =>
    rw [Bus.stop_of_not_started hmark]
    exact ⟨hdisposing, rfl, .inl rfl⟩
  | tell turn disposing event next rest =>
    cases event with
    | started => exact absurd hc nofun
    | stopping => exact ⟨hdisposing, rfl, .inr ⟨_, rfl, rfl⟩⟩
  | answer turn disposing event next rest =>
    cases event with
    | started => exact absurd hc nofun
    | stopping => exact ⟨hdisposing, mayStart_tell _ _ _, .inl rfl⟩
  | finish turn disposing result isTold =>
    exact ⟨hdisposing, by cases disposing <;> rfl, .inl rfl⟩
  | close => exact ⟨hdisposing, rfl, .inl rfl⟩

theorem Closed.step (h : s.Closed) (hstep : Step s e u) :
    u.Closed ∧ (u.told = s.told ∨ ∃ x : Notice, u.told = s.told ++ [x] ∧ x.event = .stopping) := by
  have hcalled : ∀ c : Stage κ, c.mayStart = false → ∀ d ∈ s.calls ++ [c], d.mayStart = false := by
    intro c hc d hd
    rcases List.mem_append.mp hd with hold | hlast
    · exact h.calls d hold
    · exact List.mem_singleton.mp hlast ▸ hc
  cases hstep with
  | start => exact ⟨⟨h.disposing, hcalled _ rfl⟩, .inl rfl⟩
  | stop => exact ⟨⟨h.disposing, hcalled _ rfl⟩, .inl rfl⟩
  | dispose => exact ⟨⟨h.disposing, hcalled _ rfl⟩, .inl rfl⟩
  | proceed hcall hadvance =>
    obtain ⟨hdisposing, hc', htold⟩ :=
      hadvance.closed h.disposing (h.calls _ (List.mem_of_getElem? hcall))
    refine ⟨⟨hdisposing, ?_⟩, htold⟩
    intro d hd
    rcases List.mem_or_eq_of_mem_set hd with hold | rfl
    · exact h.calls d hold
    · exact hc'

/-- From then on the observers are only told that the bus is stopping. -/
theorem Closed.of_run (h : s.Closed) (hrun : Run Step s es u) :
    ∃ later, u.told = s.told ++ later ∧ ∀ x ∈ later, x.event = .stopping := by
  have hall : u.Closed ∧ ∃ later, u.told = s.told ++ later ∧ ∀ x ∈ later, x.event = .stopping := by
    refine hrun.invariant
      (fun u => u.Closed ∧ ∃ later, u.told = s.told ++ later ∧ ∀ x ∈ later, x.event = .stopping)
      ⟨h, [], by simp, nofun⟩ ?_
    rintro v e w ⟨hclosed, later, htold, hlater⟩ hstep
    obtain ⟨hnext, hsame | ⟨x, hnew, hx⟩⟩ := hclosed.step hstep
    · exact ⟨hnext, later, hsame.trans htold, hlater⟩
    · refine ⟨hnext, later ++ [x], by rw [hnew, htold, List.append_assoc], ?_⟩
      intro y hy
      rcases List.mem_append.mp hy with hold | hlast
      · exact hlater y hold
      · exact List.mem_singleton.mp hlast ▸ hx
  exact hall.2

/-! ## What the observers can rely on -/

/-- **Observers are told of every change of the mark, though not always in order.**  However starts,
stops and disposals of a bus overlap:

* when no call is in progress, each observer has been told of as many starts as stops, and of one
  start more if the bus is started;
* if every observer is told of a change only after all changes before it, what each observer hears
  alternates and begins with a start, and when no call is in progress the last it has heard is a
  start exactly if the bus is started;
* once the bus is being disposed and no start that was admitted before is in progress, no observer
  is told of a start any more. -/
theorem told_of_every_change {bus : Bus τ ι κ} (hrun : Run Step (initial bus) es s) :
    (s.Idle → ∀ i < bus.observers.length,
      (s.heard i).count .started =
        (s.heard i).count .stopping + if s.bus.started then 1 else 0) ∧
    (Run Orderly (initial bus) es s → ∀ i < bus.observers.length,
      s.heard i = LifecycleEvent.inTurn (s.heard i).length ∧
      (s.Idle → ((s.heard i).getLast? = some .started ↔ s.bus.started = true))) ∧
    (s.bus.disposing = true → (∀ c ∈ s.calls, c.mayStart = false) →
      ∀ ds u, Run Step s ds u →
        ∃ later, u.told = s.told ++ later ∧ ∀ x ∈ later, x.event = .stopping) := by
  have hmarked := marked_of_run hrun
  refine ⟨?_, ?_, fun hdisposing hcalls ds u hlater => Closed.of_run ⟨hdisposing, hcalls⟩ hlater⟩
  · intro hidle i hi
    have hperm : (s.heard i).Perm (LifecycleEvent.inTurn s.turns) :=
      hmarked.heard_eq ▸ ((fair_of_run hrun hi).perm_of_idle hidle).map _
    rw [hperm.count_eq, hperm.count_eq, LifecycleEvent.count_inTurn, hmarked.mark]
    rcases Nat.mod_two_eq_zero_or_one s.turns with h | h <;> simp [h]
  · intro horderly i hi
    have horder := inOrder_of_run horderly hi
    have hheard : s.heard i = LifecycleEvent.inTurn (s.heardTurns i).length := by
      rw [hmarked.heard_eq, LifecycleEvent.inTurn, ← horder]
    have hlength : (s.heard i).length = (s.heardTurns i).length := by
      rw [hheard, LifecycleEvent.length_inTurn]
    refine ⟨by rw [hlength]; exact hheard, fun hidle => ?_⟩
    have hturns : (s.heardTurns i).length = s.turns := by
      rw [((fair_of_run hrun hi).perm_of_idle hidle).length_eq, List.length_range]
    rw [hheard, hturns, LifecycleEvent.getLast?_inTurn, hmarked.mark, decide_eq_true_iff]

/-- A step that tells nobody is orderly. -/
theorem Orderly.quiet (hstep : Step s e u) (htold : u.told = s.told) : Orderly s e u := by
  refine ⟨hstep, fun x t hnew _ => ?_⟩
  rw [htold] at hnew
  simp at hnew

/-- Whether a change may be told: no call owes the observer an earlier one. -/
def isNext (s : Notices τ ι κ) (x : Notice) : Bool :=
  s.calls.all fun c => c.owing.all fun (turn, left) =>
    decide (s.size ≤ x.observer + left → x.turn ≤ turn)

theorem Orderly.tell (hstep : Step s e u) (htold : u.told = s.told ++ [x])
    (hnext : s.isNext x = true) : Orderly s e u := by
  refine ⟨hstep, fun y t hnew ⟨k, c, hcall, left, howing, hle⟩ => ?_⟩
  obtain rfl : x = y := by simpa [htold] using hnew
  have hc := List.all_eq_true.mp hnext c (List.mem_of_getElem? hcall)
  rw [howing] at hc
  exact of_decide_eq_true hc hle

/-! ## A bus with two observers -/

/-- A bus that tells two observers. -/
def watchedBus : Bus Unit Unit Unit :=
  { name := none, transport := (), serializer := .json, producers := [], requestResponse := none
    publishInterceptors := [], observers := [(), ()], sweeper := { interval := ⟨1000000000⟩ } }

/-- A start has told the first observer when a stop clears the mark, and each goes on to tell
both. -/
def crossing : List Event :=
  [.start, .proceed 0, .proceed 0, .proceed 0, .proceed 0, .stop, .proceed 1, .proceed 0, .proceed 0,
    .proceed 1, .proceed 0, .proceed 1, .proceed 0, .proceed 1, .proceed 1, .proceed 1]

/-- Both observers have heard the start before the stop. -/
def crossed : Notices Unit Unit Unit :=
  { bus := watchedBus
    turns := 2
    calls := [.returned, .returned]
    told := [⟨0, 0, .started⟩, ⟨1, 0, .started⟩, ⟨0, 1, .stopping⟩, ⟨1, 1, .stopping⟩] }

theorem run_crossing : Run Orderly (initial watchedBus) crossing crossed :=
  .cons (.quiet .start rfl) <|
  .cons (.quiet (.proceed rfl (.enter rfl)) rfl) <|
  .cons (.quiet (.proceed rfl (.sweep true)) rfl) <|
  .cons (.quiet (.proceed rfl (.mark rfl)) rfl) <|
  .cons (.tell (.proceed rfl (.tell 0 false .started () [()])) rfl rfl) <|
  .cons (.quiet .stop rfl) <|
  .cons (.quiet (.proceed rfl (.clear false rfl)) rfl) <|
  .cons (.quiet (.proceed rfl (.answer 0 false .started () [()])) rfl) <|
  .cons (.tell (.proceed rfl (.tell 0 false .started () [])) rfl rfl) <|
  .cons (.tell (.proceed rfl (.tell 1 false .stopping () [()])) rfl rfl) <|
  .cons (.quiet (.proceed rfl (.answer 0 false .started () [])) rfl) <|
  .cons (.quiet (.proceed rfl (.answer 1 false .stopping () [()])) rfl) <|
  .cons (.quiet (.proceed rfl (.finish 0 false (.ok ()) false)) rfl) <|
  .cons (.tell (.proceed rfl (.tell 1 false .stopping () [])) rfl rfl) <|
  .cons (.quiet (.proceed rfl (.answer 1 false .stopping () [])) rfl) <|
  .cons (.quiet (.proceed rfl (.finish 1 false (.ok ()) false)) rfl) (.nil _)

/-- The bus is being disposed after that. -/
def closing : Notices Unit Unit Unit :=
  { crossed with
    bus := { watchedBus with disposing := true }
    calls := [.returned, .returned, .clearing true] }

/-- A start and a stop overlap, and still every observer hears both changes in their order.  A start
that comes while the bus is being disposed tells nobody. -/
theorem told_of_every_change_crossing :
    Run Orderly (initial watchedBus) crossing crossed ∧ crossed.Idle ∧
    (crossed.heard 1).count .started =
      (crossed.heard 1).count .stopping + (if crossed.bus.started then 1 else 0) ∧
    crossed.heard 1 = LifecycleEvent.inTurn (crossed.heard 1).length ∧
    ((crossed.heard 1).getLast? = some .started ↔ crossed.bus.started = true) ∧
    Run Step crossed [.dispose, .proceed 2] closing ∧
    ∀ ds u, Run Step closing ds u →
      ∃ later, u.told = closing.told ++ later ∧ ∀ x ∈ later, x.event = .stopping := by
  have hrun : Run Step (initial watchedBus) crossing crossed := run_crossing.mono fun _ _ _ h => h.1
  have hidle : crossed.Idle := by
    intro c hc
    simpa [crossed] using hc
  have hdisposing : Run Step crossed [.dispose, .proceed 2] closing :=
    .cons .dispose <| .cons (.proceed rfl (.attempt rfl)) (.nil _)
  obtain ⟨hcounts, hinOrder, -⟩ := told_of_every_change hrun
  obtain ⟨halternates, hlast⟩ := hinOrder run_crossing 1 (by decide)
  obtain ⟨-, -, hclosed⟩ := told_of_every_change (hrun.append hdisposing)
  refine ⟨run_crossing, hidle, hcounts hidle 1 (by decide), halternates, hlast hidle, hdisposing,
    ?_⟩
  exact hclosed rfl (by simp [closing, Stage.mayStart])

/-! ## Out of order -/

/-- A start has told the first observer, and a stop tells both before the start goes on. -/
def overtaking : List Event :=
  [.start, .proceed 0, .proceed 0, .proceed 0, .proceed 0,
    .stop, .proceed 1, .proceed 1, .proceed 1, .proceed 1, .proceed 1, .proceed 1,
    .proceed 0, .proceed 0, .proceed 0, .proceed 0]

/-- The second observer has heard the stop before the start. -/
def overtaken : Notices Unit Unit Unit :=
  { bus := watchedBus
    turns := 2
    calls := [.returned, .returned]
    told := [⟨0, 0, .started⟩, ⟨0, 1, .stopping⟩, ⟨1, 1, .stopping⟩, ⟨1, 0, .started⟩] }

/-- A start has been admitted, and the bus has been disposed since. -/
def disposedOf : Notices Unit Unit Unit :=
  { bus := { watchedBus with
      disposing := true, disposed := true, sweeper := watchedBus.sweeper.dispose }
    calls := [.sweeping, .returned] }

/-- **An observer of a stopped bus hears a start last, and a disposed bus tells a start.**  In the
first run a stop overtakes a start: no call is in progress and the bus is not started, but what the
second observer has heard begins with a stop and ends with a start.  In the second one a start is
admitted before the bus is disposed, and goes on when the disposal has returned. -/
theorem told_out_of_order :
    (Run Step (initial watchedBus) overtaking overtaken ∧ overtaken.Idle ∧
      overtaken.bus.started = false ∧ overtaken.heard 1 = [.stopping, .started]) ∧
    Run Step (initial watchedBus)
      [.start, .proceed 0, .dispose, .proceed 1, .proceed 1, .proceed 1, .proceed 1] disposedOf ∧
    ∃ u, Run Step disposedOf [.proceed 0, .proceed 0, .proceed 0] u ∧ u.heard 0 = [.started] := by
  have hovertaking : Run Step (initial watchedBus) overtaking overtaken :=
    .cons .start <|
    .cons (.proceed rfl (.enter rfl)) <|
    .cons (.proceed rfl (.sweep true)) <|
    .cons (.proceed rfl (.mark rfl)) <|
    .cons (.proceed rfl (.tell 0 false .started () [()])) <|
    .cons .stop <|
    .cons (.proceed rfl (.clear false rfl)) <|
    .cons (.proceed rfl (.tell 1 false .stopping () [()])) <|
    .cons (.proceed rfl (.answer 1 false .stopping () [()])) <|
    .cons (.proceed rfl (.tell 1 false .stopping () [])) <|
    .cons (.proceed rfl (.answer 1 false .stopping () [])) <|
    .cons (.proceed rfl (.finish 1 false (.ok ()) false)) <|
    .cons (.proceed rfl (.answer 0 false .started () [()])) <|
    .cons (.proceed rfl (.tell 0 false .started () [])) <|
    .cons (.proceed rfl (.answer 0 false .started () [])) <|
    .cons (.proceed rfl (.finish 0 false (.ok ()) false)) (.nil _)
  have hidle : overtaken.Idle := by
    intro c hc
    simpa [overtaken] using hc
  have hdisposing : Run Step (initial watchedBus)
      [.start, .proceed 0, .dispose, .proceed 1, .proceed 1, .proceed 1, .proceed 1] disposedOf :=
    .cons .start <|
    .cons (.proceed rfl (.enter rfl)) <|
    .cons .dispose <|
    .cons (.proceed rfl (.attempt rfl)) <|
    .cons (.proceed rfl (.clearAgain true rfl)) <|
    .cons (.proceed rfl (.finish 0 true (.ok ()) false)) <|
    .cons (.proceed rfl .close) (.nil _)
  have hstarting : Run Step disposedOf [.proceed 0, .proceed 0, .proceed 0] _ :=
    .cons (.proceed rfl (.sweep true)) <|
    .cons (.proceed rfl (.mark rfl)) <|
    .cons (.proceed rfl (.tell 0 false .started () [()])) (.nil _)
  exact ⟨⟨hovertaking, hidle, rfl, rfl⟩, hdisposing, _, hstarting, rfl⟩

end Notices
end Courier
