import Courier.Outbox.SendingTask
import Courier.Proofs.Outbox.Endurance

/-!
# Who keeps a loop

A task is used by many at once: buses tell it that they have started or are stopping, and others
start and stop it directly.  A stop takes the loop out of its place, cancels the token of the loop
and waits for its end, and between any two of these steps, and while it waits, others may come in.
So its place can be empty while the loop is still alive.

`Custody` is a task with the calls of it that are under way, and its steps are theirs and those of
the loops.  `Custody.Step.effect` says what a step can do to the loops.

Main statements: `one_loop_while_patient` and `two_loops_after_stop`.
-/

namespace Courier

namespace SendingTask

variable {β : Type}

/-- What a bus tells about itself makes it reachable or unreachable. -/
def listed (t : SendingTask β) : LifecycleEvent → Option String → β → SendingTask β
  | .started, name, bus => t.register name bus
  | .stopping, name, _ => t.unregister name

/-- What a bus tells about itself is counted; says whether it is the first to start or the last to
stop. -/
def counted (t : SendingTask β) : LifecycleEvent → SendingTask β × Bool
  | .started => ({ t with startCount := t.startCount + 1 }, t.startCount == 0)
  | .stopping => ({ t with startCount := t.startCount - 1 }, t.startCount == 1)

theorem busStarted_eq (t : SendingTask β) (name : Option String) (bus : β) :
    t.busStarted name bus = (t.listed .started name bus).counted .started := rfl

theorem busStopping_eq (t : SendingTask β) (name : Option String) (bus : β) :
    t.busStopping name = (t.listed .stopping name bus).counted .stopping := rfl

end SendingTask

namespace Forwarder

variable {β : Type} {isCancelled : Bool} {f g : Forwarder β} {o : Occasion β}

theorem Move.token (hmove : Move isCancelled f o g) : g.token = f.token := by
  cases hmove with
  | decide next hview => exact token_decide
  | answer inst hcall answer => exact token_answered
  | forward hstage result => exact token_forwarded result
  | resume hstage hearly => exact token_resumed _

/-- A forwarder that has come to its end stays there. -/
theorem Move.isEnded (hmove : Move isCancelled f o g) (hended : f.isEnded = true) :
    g.isEnded = true := by
  have hstage : f.stage = .ended := by
    cases h : f.stage <;> simp_all [Forwarder.isEnded]
  cases hmove with
  | @decide v next hview => simp [Forwarder.decide, hstage, Forwarder.isEnded]
  | answer inst hcall answer => simp [call?, hstage] at hcall
  | forward hforwarding result => simp [hstage] at hforwarding
  | resume hpausing hearly => simp [hstage] at hpausing

/-- Only a forwarder that is alive gets the result of forwarding a row. -/
theorem Move.not_isEnded_of_result {result : Except Failure Unit}
    (hmove : Move isCancelled f (.result result) g) : f.isEnded = false := by
  cases hmove with
  | forward hstage result => simp [Forwarder.isEnded, hstage]

end Forwarder

/-- A call of a sending task, as far as it has come. -/
inductive Command (β : Type)
  /-- A bus tells about itself. -/
  | arriving (event : LifecycleEvent) (name : Option String) (bus : β)
  /-- What the bus tells has to be counted. -/
  | counting (event : LifecycleEvent)
  /-- The loop has to be started. -/
  | starting
  /-- The loop has to be stopped. -/
  | stopping
  /-- It has taken a loop out of its place, and has to cancel the token of the loop. -/
  | holding (n : Nat)
  /-- It waits for the end of the loop that it has taken out. -/
  | waiting (n : Nat)
  /-- It has returned, and nothing had to be started or stopped. -/
  | noted
  /-- A start has returned. -/
  | started
  /-- A stop has returned, with the loop whose end it has waited for. -/
  | stopped (awaited : Option Nat)
  /-- It was dropped while it waited. -/
  | dropped

/-- What a bus has told is followed by a start or a stop, or by nothing. -/
def Command.onward {β : Type} : LifecycleEvent → Bool → Command β
  | _, false => .noted
  | .started, true => .starting
  | .stopping, true => .stopping

/-- A task with all its calls so far. -/
structure Custody (β : Type) where
  task : SendingTask β
  tokens : Tokens := {}
  commands : List (Command β) := []

namespace Custody

variable {β : Type}

/-- A task that nobody has called. -/
def initial (settings : OutboxSettings) (inst : String) : Custody β :=
  { task := { settings, inst } }

/-- A call begins. -/
def called (s : Custody β) (c : Command β) : Custody β := { s with commands := s.commands ++ [c] }

/-- The call `k` has come as far as `c`. -/
def setCommand (s : Custody β) (k : Nat) (c : Command β) : Custody β :=
  { s with commands := s.commands.set k c }

/-- How many loops were ever started. -/
def started (s : Custody β) : Nat := s.task.forwarders.length

/-- The loop `n` was started and has not come to its end. -/
def Alive (s : Custody β) (n : Nat) : Prop :=
  ∃ f, s.task.forwarder? n = some f ∧ f.isEnded = false

/-- A loop that was taken out of its place is still alive. -/
def Lingers (s : Custody β) (n : Nat) : Prop := s.Alive n ∧ s.task.current ≠ some n

/-- At most one loop is alive. -/
def Lone (s : Custody β) : Prop := ∀ m n, s.Alive m → s.Alive n → m = n

/-- What can happen around a task. -/
inductive Event (β : Type)
  /-- A bus tells about itself. -/
  | notice (event : LifecycleEvent) (name : Option String) (bus : β)
  /-- The task is started directly. -/
  | start
  /-- The task is stopped directly. -/
  | stop
  /-- A call goes on. -/
  | proceed (k : Nat)
  /-- A call is dropped. -/
  | drop (k : Nat)
  /-- A loop goes on. -/
  | move (n : Nat) (o : Forwarder.Occasion β)
  /-- A loop breaks off. -/
  | crash (n : Nat)

/-- One step of a call: how far it has come, and what is left behind. -/
inductive Advance (s : Custody β) : Command β → SendingTask β → Tokens → Command β → Prop
  | list (event : LifecycleEvent) (name : Option String) (bus : β) :
      Advance s (.arriving event name bus) (s.task.listed event name bus) s.tokens (.counting event)
  | count (event : LifecycleEvent) :
      Advance s (.counting event) (s.task.counted event).1 s.tokens
        (.onward event (s.task.counted event).2)
  | launch : Advance s .starting (s.task.start s.tokens.fresh.1).1 s.tokens.fresh.2 .started
  | take {n : Nat} (hcurrent : s.task.takeCurrent.2 = some n) :
      Advance s .stopping s.task.takeCurrent.1 s.tokens (.holding n)
  | pass (hcurrent : s.task.takeCurrent.2 = none) :
      Advance s .stopping s.task.takeCurrent.1 s.tokens (.stopped none)
  | cancel {n : Nat} {f : Forwarder β} (hforwarder : s.task.forwarder? n = some f) :
      Advance s (.holding n) s.task (s.tokens.cancel f.token) (.waiting n)
  | await {n : Nat} {f : Forwarder β} (hforwarder : s.task.forwarder? n = some f)
      (hended : f.isEnded = true) :
      Advance s (.waiting n) s.task s.tokens (.stopped (some n))

/-- One step around a task. -/
inductive Step : Custody β → Event β → Custody β → Prop
  | notice {s : Custody β} (event : LifecycleEvent) (name : Option String) (bus : β) :
      Step s (.notice event name bus) (s.called (.arriving event name bus))
  | start {s : Custody β} : Step s .start (s.called .starting)
  | stop {s : Custody β} : Step s .stop (s.called .stopping)
  | proceed {s : Custody β} {k : Nat} {c c' : Command β} {t : SendingTask β} {tokens : Tokens}
      (hcommand : s.commands[k]? = some c) (hadvance : Advance s c t tokens c') :
      Step s (.proceed k) ({ s with task := t, tokens := tokens }.setCommand k c')
  | drop {s : Custody β} {k n : Nat} (hcommand : s.commands[k]? = some (.waiting n)) :
      Step s (.drop k) (s.setCommand k .dropped)
  | move {s : Custody β} {n : Nat} {f g : Forwarder β} {o : Forwarder.Occasion β}
      (hforwarder : s.task.forwarder? n = some f)
      (hmove : f.Move (s.tokens.isCancelled f.token) o g) :
      Step s (.move n o) { s with task := s.task.setForwarder n g }
  | crash {s : Custody β} {n : Nat} {f : Forwarder β} (hforwarder : s.task.forwarder? n = some f) :
      Step s (.crash n) { s with task := s.task.setForwarder n { f with stage := .ended } }

/-- A step that starts no loop while one that was taken out is still alive. -/
def Patient (s : Custody β) (e : Event β) (u : Custody β) : Prop :=
  Step s e u ∧ (u.started = s.started ∨ ∀ n, ¬s.Lingers n)

variable {s s' u v : Custody β} {e : Event β} {es ds : List (Event β)}
variable {k m n : Nat} {c c' : Command β} {f g : Forwarder β} {t : SendingTask β} {tokens : Tokens}

/-! ## What a step does to the loops -/

/-- What a step can do to the loops. -/
inductive Effect (s u : Custody β) : Prop
  | quiet (hforwarders : u.task.forwarders = s.task.forwarders)
      (hcurrent : u.task.current = s.task.current)
  | launch {token : Token} (hempty : s.task.current = none)
      (hforwarders : u.task.forwarders = s.task.forwarders ++ [({ token } : Forwarder β)])
      (hcurrent : u.task.current = some s.started)
  | take (hforwarders : u.task.forwarders = s.task.forwarders) (hcurrent : u.task.current = none)
  | move {n : Nat} {f g : Forwarder β} (hforwarder : s.task.forwarder? n = some f)
      (hforwarders : u.task.forwarders = s.task.forwarders.set n g) (htoken : g.token = f.token)
      (hended : f.isEnded = true → g.isEnded = true) (hcurrent : u.task.current = s.task.current)

theorem effect_of_start (token : Token) (htask : u.task = (s.task.start token).1) : Effect s u := by
  cases hcurrent : s.task.current with
  | some n =>
    rw [SendingTask.start_of_current token hcurrent] at htask
    exact .quiet (by rw [htask]) (by rw [htask])
  | none =>
    simp only [SendingTask.start, hcurrent] at htask
    exact .launch hcurrent (by rw [htask]) (by rw [htask]; rfl)

theorem Advance.effect (hadvance : Advance s c t tokens c') (htask : u.task = t) : Effect s u := by
  cases hadvance with
  | list event name bus => cases event <;> exact .quiet (by rw [htask]; rfl) (by rw [htask]; rfl)
  | count event => cases event <;> exact .quiet (by rw [htask]; rfl) (by rw [htask]; rfl)
  | launch => exact effect_of_start _ htask
  | take hcurrent => exact .take (by rw [htask]; rfl) (by rw [htask]; rfl)
  | pass hcurrent => exact .take (by rw [htask]; rfl) (by rw [htask]; rfl)
  | cancel hforwarder => exact .quiet (by rw [htask]) (by rw [htask])
  | await hforwarder hended => exact .quiet (by rw [htask]) (by rw [htask])

/-- Every step does one of these to the loops. -/
theorem Step.effect (hstep : Step s e u) : Effect s u := by
  cases hstep with
  | proceed hcommand hadvance => exact hadvance.effect rfl
  | move hforwarder hmove => exact .move hforwarder rfl hmove.token hmove.isEnded rfl
  | crash hforwarder => exact .move hforwarder rfl rfl (fun _ => rfl) rfl
  | _ => exact .quiet rfl rfl

theorem Alive.lt (h : s.Alive n) : n < s.started := by
  obtain ⟨f, hf, -⟩ := h
  exact (List.getElem?_eq_some_iff.mp hf).1

theorem Effect.started_le (heffect : Effect s u) : s.started ≤ u.started := by
  cases heffect <;> simp_all [started]

/-- A loop after a step was there before, or has just been started. -/
theorem Effect.forwarder_before (heffect : Effect s u) (hg : u.task.forwarder? n = some g) :
    (∃ f, s.task.forwarder? n = some f ∧ g.token = f.token ∧
      (f.isEnded = true → g.isEnded = true)) ∨
    (s.task.current = none ∧ n = s.started ∧ u.task.current = some n) := by
  unfold SendingTask.forwarder? at hg ⊢
  cases heffect with
  | quiet hforwarders hcurrent =>
    rw [hforwarders] at hg
    exact .inl ⟨g, hg, rfl, id⟩
  | take hforwarders hcurrent =>
    rw [hforwarders] at hg
    exact .inl ⟨g, hg, rfl, id⟩
  | launch hempty hforwarders hcurrent =>
    rw [hforwarders] at hg
    by_cases hn : n < s.task.forwarders.length
    · rw [List.getElem?_append_left hn] at hg
      exact .inl ⟨g, hg, rfl, id⟩
    · have hlt := (List.getElem?_eq_some_iff.mp hg).1
      have hlast : n = s.started := by
        simp only [List.length_append, List.length_singleton] at hlt
        simp only [started]
        omega
      exact .inr ⟨hempty, hlast, by rw [hcurrent, hlast]⟩
  | @move m f g' hforwarder hforwarders htoken hended hcurrent =>
    rw [hforwarders] at hg
    by_cases hmn : m = n
    · subst hmn
      have hlt : m < s.task.forwarders.length := (List.getElem?_eq_some_iff.mp hforwarder).1
      rw [List.getElem?_set_self hlt] at hg
      obtain rfl := Option.some.inj hg
      exact .inl ⟨f, hforwarder, htoken, hended⟩
    · rw [List.getElem?_set_ne hmn] at hg
      exact .inl ⟨g, hg, rfl, id⟩

/-- A loop that is alive after a step was so before, or has just been started in an empty place. -/
theorem Effect.alive_before (heffect : Effect s u) (h : u.Alive n) :
    s.Alive n ∨ (s.task.current = none ∧ n = s.started ∧ u.task.current = some n) := by
  obtain ⟨g, hg, halive⟩ := h
  rcases heffect.forwarder_before hg with ⟨f, hf, -, hended⟩ | hnew
  · refine .inl ⟨f, hf, ?_⟩
    cases h : f.isEnded with
    | false => rfl
    | true => exact absurd ((hended h).symm.trans halive) nofun
  · exact .inr hnew

/-- A step that starts a loop finds the place empty and leaves the others alone. -/
theorem Effect.of_started (heffect : Effect s u) (h : u.started ≠ s.started) :
    s.task.current = none ∧ u.Alive s.started ∧ ∀ n, s.Alive n → u.Alive n := by
  cases heffect with
  | @launch token hempty hforwarders hcurrent =>
    refine ⟨hempty, ⟨{ token }, ?_, rfl⟩, ?_⟩
    · simp [SendingTask.forwarder?, hforwarders, started]
    · rintro n ⟨f, hf, halive⟩
      have hlt : n < s.task.forwarders.length := (List.getElem?_eq_some_iff.mp hf).1
      refine ⟨f, ?_, halive⟩
      rw [SendingTask.forwarder?, hforwarders, List.getElem?_append_left hlt]
      exact hf
  | _ => exact absurd (by simp_all [started]) h

/-! ## One loop at a time -/

/-- If every loop that was taken out has come to its end, no loop is alive but the one in its
place. -/
theorem Lone.step (h : s.Lone) (heffect : Effect s u)
    (hpatient : u.started = s.started ∨ ∀ n, ¬s.Lingers n) : u.Lone := by
  have hnew : ∀ n, u.Alive n → n = s.started → u.started ≠ s.started := by
    intro n halive hn heq
    have hlt := halive.lt
    omega
  -- a loop that has just been started meets nobody
  have hmeets : ∀ m n, u.Alive m → s.Alive m → u.Alive n → s.task.current = none →
      n = s.started → m = n := by
    intro m n hm hold hn hempty heq
    rcases hpatient with hsame | hnone
    · exact absurd hsame (hnew n hn heq)
    · exact absurd ⟨hold, by simp [hempty]⟩ (hnone m)
  intro m n hm hn
  rcases heffect.alive_before hm with hold | ⟨hempty, heq, -⟩
  · rcases heffect.alive_before hn with hold' | ⟨hempty, heq, -⟩
    · exact h m n hold hold'
    · exact hmeets m n hm hold hn hempty heq
  · rcases heffect.alive_before hn with hold' | ⟨-, heq', -⟩
    · exact (hmeets n m hn hold' hm hempty heq).symm
    · exact heq.trans heq'.symm

theorem lone_initial (settings : OutboxSettings) (inst : String) :
    (initial settings inst : Custody β).Lone := by
  rintro m n ⟨f, hf, -⟩
  simp [initial, SendingTask.forwarder?] at hf

/-- A step after which at most one loop is alive has started none over one that lingers. -/
theorem Lone.patient (h : u.Lone) (heffect : Effect s u) :
    u.started = s.started ∨ ∀ n, ¬s.Lingers n := by
  by_cases hstarted : u.started = s.started
  · exact .inl hstarted
  · obtain ⟨-, hnew, hkept⟩ := heffect.of_started hstarted
    refine .inr fun n hn => ?_
    have heq := h n s.started (hkept n hn.1) hnew
    have hlt := hn.1.lt
    omega

theorem run_patient_of_lone (hrun : Run (fun s e u => Step s e u ∧ u.Lone) s es u) :
    Run Patient s es u :=
  hrun.mono fun _ _ _ h => ⟨h.1, h.2.patient h.1.effect⟩

theorem run_lone_of_patient (h : s.Lone) (hrun : Run Patient s es u) :
    Run (fun s e u => Step s e u ∧ u.Lone) s es u := by
  induction hrun with
  | nil s => exact .nil s
  | cons head tail ih =>
    have hlone := h.step head.1.effect head.2
    exact .cons ⟨head.1, hlone⟩ (ih hlone)

/-! ## Loops out of their place -/

theorem commands_setCommand (hcommand : s.commands[k]? = some c) :
    ({ s with task := t, tokens := tokens }.setCommand k c').commands[k]? = some c' := by
  have hlt : k < s.commands.length := (List.getElem?_eq_some_iff.mp hcommand).1
  simp [setCommand, hlt]

/-- How far a call has come after a step. -/
theorem Step.command (hstep : Step s e u) (hcommand : s.commands[k]? = some c) :
    u.commands[k]? = some c ∨
    (∃ t tokens c', Advance s c t tokens c' ∧
      u = ({ s with task := t, tokens := tokens } : Custody β).setCommand k c') ∨
    ∃ n, c = .waiting n ∧ u.commands[k]? = some .dropped := by
  have hlt : k < s.commands.length := (List.getElem?_eq_some_iff.mp hcommand).1
  cases hstep with
  | notice event name bus => exact .inl (by simp [called, List.getElem?_append_left hlt, hcommand])
  | start => exact .inl (by simp [called, List.getElem?_append_left hlt, hcommand])
  | stop => exact .inl (by simp [called, List.getElem?_append_left hlt, hcommand])
  | @proceed j d d' t tokens hd hadvance =>
    by_cases hk : j = k
    · subst hk
      obtain rfl := Option.some.inj (hcommand.symm.trans hd)
      exact .inr (.inl ⟨t, tokens, d', hadvance, rfl⟩)
    · exact .inl (by simpa [setCommand, List.getElem?_set_ne hk] using hcommand)
  | @drop j n hd =>
    by_cases hk : j = k
    · subst hk
      obtain rfl := Option.some.inj (hcommand.symm.trans hd)
      exact .inr (.inr ⟨n, rfl, commands_setCommand hd⟩)
    · exact .inl (by simpa [setCommand, List.getElem?_set_ne hk] using hcommand)
  | move hforwarder hmove => exact .inl hcommand
  | crash hforwarder => exact .inl hcommand

theorem Step.isCancelled {token : Token} (hstep : Step s e u)
    (h : s.tokens.isCancelled token = true) : u.tokens.isCancelled token = true := by
  cases hstep with
  | proceed hcommand hadvance =>
    cases hadvance with
    | cancel hforwarder => exact Tokens.isCancelled_cancel_of_isCancelled _ h
    | _ => exact h
  | _ => exact h

/-- A loop leaves its place only into the hands of a stop. -/
theorem Step.current (hstep : Step s e u) (hcurrent : s.task.current = some n) :
    u.task.current = some n ∨ ∃ k : Nat, u.commands[k]? = some (.holding n) := by
  cases hstep with
  | @proceed k c c' t tokens hcommand hadvance =>
    cases hadvance with
    | list event name bus => exact .inl (by cases event <;> exact hcurrent)
    | count event => exact .inl (by cases event <;> exact hcurrent)
    | launch => exact .inl (by rwa [SendingTask.start_of_current _ hcurrent])
    | @take m hm =>
      obtain rfl : n = m := Option.some.inj (hcurrent.symm.trans hm)
      exact .inr ⟨k, commands_setCommand hcommand⟩
    | pass hempty => exact absurd (hcurrent.symm.trans hempty) nofun
    | cancel hforwarder => exact .inl hcurrent
    | await hforwarder hended => exact .inl hcurrent
  | _ => exact .inl hcurrent

/-- Every loop is in its place, or its token is cancelled, or a stop is about to cancel it. -/
def Claimed (s : Custody β) : Prop :=
  ∀ n f, s.task.forwarder? n = some f →
    s.task.current = some n ∨ s.tokens.isCancelled f.token = true ∨
      ∃ k : Nat, s.commands[k]? = some (.holding n)

theorem claimed_initial (settings : OutboxSettings) (inst : String) :
    (initial settings inst : Custody β).Claimed := by
  intro n f hf
  simp [initial, SendingTask.forwarder?] at hf

theorem Claimed.step (h : s.Claimed) (hstep : Step s e u) : u.Claimed := by
  intro n g hg
  rcases hstep.effect.forwarder_before hg with ⟨f, hf, htoken, -⟩ | ⟨-, -, hnew⟩
  · rw [htoken]
    rcases h n f hf with hcurrent | hcancelled | ⟨k, hk⟩
    · rcases hstep.current hcurrent with hstays | hheld
      · exact .inl hstays
      · exact .inr (.inr hheld)
    · exact .inr (.inl (hstep.isCancelled hcancelled))
    · rcases hstep.command hk with hstays | ⟨t, tokens, c', hadvance, rfl⟩ | ⟨m, hm, -⟩
      · exact .inr (.inr ⟨k, hstays⟩)
      · cases hadvance with
        | cancel hforwarder =>
          obtain rfl := Option.some.inj (hf.symm.trans hforwarder)
          exact .inr (.inl (Tokens.isCancelled_cancel_self _ _))
      · exact absurd hm nofun
  · exact .inl hnew

/-! ## What a stop leaves behind -/

/-- Whatever is alive at `w` was out of its place at `s` already, or has been started since. -/
def Since (s w : Custody β) : Prop :=
  s.started ≤ w.started ∧ ∀ n, w.Alive n → s.Lingers n ∨ s.started ≤ n

theorem Since.step (h : Since s u) (heffect : Effect u v) : Since s v := by
  refine ⟨h.1.trans heffect.started_le, ?_⟩
  intro n hn
  rcases heffect.alive_before hn with hold | ⟨-, heq, -⟩
  · exact h.2 n hold
  · exact .inr (heq ▸ h.1)

/-- The stop `k` has taken the loop `n` out of its place and has not seen its end. -/
def Pending (s : Custody β) (k n : Nat) : Prop :=
  s.commands[k]? = some (.holding n) ∨ s.commands[k]? = some (.waiting n) ∨
    s.commands[k]? = some .dropped

/-- A loop that is alive after a step is still pending. -/
theorem Pending.step (h : s.Pending k n) (hstep : Step s e u) (halive : u.Alive n) :
    u.Pending k n := by
  rcases h with hk | hk | hk
  · rcases hstep.command hk with hstays | ⟨t, tokens, c', hadvance, rfl⟩ | ⟨m, hm, -⟩
    · exact .inl hstays
    · cases hadvance with
      | cancel hforwarder =>
        exact .inr (.inl (commands_setCommand hk))
    · exact absurd hm nofun
  · rcases hstep.command hk with hstays | ⟨t, tokens, c', hadvance, rfl⟩ | ⟨m, -, hdropped⟩
    · exact .inr (.inl hstays)
    · cases hadvance with
      | await hforwarder hended =>
        -- it returns only when the loop has come to its end
        obtain ⟨f, hf, hlive⟩ := halive
        obtain rfl := Option.some.inj (hforwarder.symm.trans hf)
        exact absurd (hended.symm.trans hlive) nofun
    · exact .inr (.inr hdropped)
  · rcases hstep.command hk with hstays | ⟨t, tokens, c', hadvance, rfl⟩ | ⟨m, hm, -⟩
    · exact .inr (.inr hstays)
    · cases hadvance
    · exact absurd hm nofun

theorem not_pending_of_stopped {awaited : Option Nat}
    (h : s.commands[k]? = some (.stopped awaited)) :
    ¬s.Pending k n := by
  simp [Pending, h]

/-- While the stop `k` is under way that began at `s`, what is alive may also be the loop that it
has taken out. -/
def Underway (s : Custody β) (k : Nat) (w : Custody β) : Prop :=
  s.started ≤ w.started ∧ ∀ n, w.Alive n → (s.Lingers n ∨ s.started ≤ n) ∨ w.Pending k n

theorem underway_of_stopping (hcommand : s.commands[k]? = some .stopping)
    (hstep : Step s (.proceed k) u) : Underway s k u := by
  have heffect := hstep.effect
  refine ⟨heffect.started_le, ?_⟩
  intro n hn
  rcases heffect.alive_before hn with hold | ⟨-, heq, -⟩
  · by_cases hplace : s.task.current = some n
    · cases hstep with
      | @proceed _ c c' t tokens hc hadvance =>
        obtain rfl := Option.some.inj (hcommand.symm.trans hc)
        cases hadvance with
        | @take m hm =>
          obtain rfl : n = m := Option.some.inj (hplace.symm.trans hm)
          exact .inr (.inl (commands_setCommand hcommand))
        | pass hempty => exact absurd (hplace.symm.trans hempty) nofun
    · exact .inl (.inl ⟨hold, hplace⟩)
  · exact .inl (.inr heq.ge)

theorem Underway.step (h : Underway s k u) (hstep : Step u e v) : Underway s k v := by
  have heffect := hstep.effect
  refine ⟨h.1.trans heffect.started_le, ?_⟩
  intro n hn
  rcases heffect.alive_before hn with hold | ⟨-, heq, -⟩
  · rcases h.2 n hold with hsince | hpending
    · exact .inl hsince
    · exact .inr (hpending.step hstep hn)
  · exact .inl (.inr (heq ▸ h.1))

/-- When a stop has returned, what is alive was out of its place before it, or was started since. -/
theorem since_of_stopped {awaited : Option Nat} (hcommand : s.commands[k]? = some .stopping)
    (hfirst : Step s (.proceed k) s') (hrun : Run Step s' es u)
    (hstopped : u.commands[k]? = some (.stopped awaited)) : Since s u := by
  have hunderway : Underway s k u :=
    hrun.invariant (Underway s k) (underway_of_stopping hcommand hfirst) fun _ _ _ h hstep =>
      h.step hstep
  refine ⟨hunderway.1, fun n hn => ?_⟩
  rcases hunderway.2 n hn with hsince | hpending
  · exact hsince
  · exact absurd hpending (not_pending_of_stopped hstopped)

/-- From then on no other loop forwards a row either. -/
theorem Since.of_run (h : Since s u) (hrun : Run Step u ds v) :
    Since s v ∧ ∀ n result, .move n (.result result) ∈ ds → s.Lingers n ∨ s.started ≤ n := by
  refine hrun.history
    (fun ds v => Since s v ∧
      ∀ n result, .move n (.result result) ∈ ds → s.Lingers n ∨ s.started ≤ n)
    ⟨h, nofun⟩ ?_
  rintro ds w e v ⟨hsince, hforwards⟩ hstep
  refine ⟨hsince.step hstep.effect, ?_⟩
  intro n result hmem
  rcases List.mem_append.mp hmem with hold | hlast
  · exact hforwards n result hold
  · obtain rfl := List.mem_singleton.mp hlast
    cases hstep with
    | move hforwarder hmove => exact hsince.2 n ⟨_, hforwarder, hmove.not_isEnded_of_result⟩

/-- **One loop at a time, as long as nobody starts one over another that ends.**  Whatever buses,
callers and loops do around a task:

* at no time of a run is more than one loop alive exactly if no loop is started while one that was
  taken out of its place is still alive;
* a loop that is not in its place is about to end: its token is cancelled, or a stop is about to
  cancel it;
* when a stop has returned, the only loops that are alive or forward a row are those that another
  call had taken out of their place before it and that had not come to their end then, and those
  that have been started since. -/
theorem one_loop_while_patient {settings : OutboxSettings} {inst : String}
    (hrun : Run Step (initial settings inst : Custody β) es s) :
    (Run (fun s e u => Step s e u ∧ u.Lone) (initial settings inst) es s ↔
      Run Patient (initial settings inst) es s) ∧
    (∀ n f, s.task.forwarder? n = some f →
      s.task.current = some n ∨ s.tokens.isCancelled f.token = true ∨
        ∃ k : Nat, s.commands[k]? = some (.holding n)) ∧
    (∀ (k : Nat) s' cs u awaited ds v, s.commands[k]? = some .stopping → Step s (.proceed k) s' →
      Run Step s' cs u → u.commands[k]? = some (.stopped awaited) → Run Step u ds v →
      (∀ n, v.Alive n → s.Lingers n ∨ s.started ≤ n) ∧
      ∀ n result, .move n (.result result) ∈ ds → s.Lingers n ∨ s.started ≤ n) := by
  refine ⟨⟨run_patient_of_lone, run_lone_of_patient (lone_initial settings inst)⟩, ?_, ?_⟩
  · exact hrun.invariant Claimed (claimed_initial settings inst) fun _ _ _ h hstep => h.step hstep
  · intro k s' cs u awaited ds v hcommand hfirst hcalls hstopped hlater
    have hsince := since_of_stopped hcommand hfirst hcalls hstopped
    obtain ⟨hsince', hforwards⟩ := hsince.of_run hlater
    exact ⟨hsince'.2, hforwards⟩

/-- A task of one worker that was started, and is about to be stopped for the first time. -/
def launched : Custody Unit :=
  { task := { settings := {}, inst := "worker", forwarders := [{ token := ⟨0⟩ }], current := some 0 }
    tokens := { issued := 1 }
    commands := [.started, .stopping] }

/-- The stop has taken the loop out of its place. -/
def held : Custody Unit :=
  { launched with task := launched.task.takeCurrent.1, commands := [.started, .holding 0] }

/-- The loop is stopped before it could prepare the repository, and when the stop has returned no
loop is alive. -/
theorem one_loop_while_patient_stopped : ∃ u : Custody Unit,
    Run Step (initial {} "worker") [.start, .proceed 0, .stop] launched ∧
    Step launched (.proceed 1) held ∧
    Run Step held [.proceed 1, .move 0 (.answer (.failed .cancelled)), .proceed 1] u ∧
    u.commands[1]? = some (.stopped (some 0)) ∧ ∀ n, ¬u.Alive n := by
  have hrun : Run Step (initial {} "worker" : Custody Unit) [.start, .proceed 0, .stop] launched :=
    .cons .start <| .cons (.proceed rfl .launch) <| .cons .stop (.nil _)
  have hfirst : Step launched (.proceed 1) held := .proceed rfl (.take rfl)
  have hcalls : Run Step held [.proceed 1, .move 0 (.answer (.failed .cancelled)), .proceed 1] _ :=
    .cons (.proceed rfl (.cancel rfl)) <|
    .cons (.move rfl (.answer "worker" rfl (.failed .cancelled))) <|
    .cons (.proceed rfl (.await rfl rfl)) (.nil _)
  refine ⟨_, hrun, hfirst, hcalls, rfl, ?_⟩
  intro n halive
  obtain ⟨-, -, hstop⟩ := one_loop_while_patient hrun
  rcases (hstop 1 _ _ _ _ [] _ rfl hfirst hcalls rfl (.nil _)).1 n halive with hlingers | hsince
  · obtain rfl : n = 0 := Nat.lt_one_iff.mp hlingers.1.lt
    exact hlingers.2 rfl
  · exact absurd (Nat.lt_of_lt_of_le halive.lt hsince) (Nat.lt_irrefl _)

/-- A loop is started and comes to forward an order; one stop takes it out of its place and waits
for it, and another one finds the place empty. -/
def overlap : List (Event Unit) :=
  [.start, .proceed 0, .move 0 (.answer .done), .move 0 (.decision Loop.calmView none),
    .move 0 (.answer (.count 1)), .move 0 (.decision Loop.calmView none),
    .move 0 (.answer (.rows [Loop.leasedOrder])), .move 0 (.decision Loop.calmView none),
    .stop, .proceed 1, .proceed 1, .stop, .proceed 2]

/-- The second stop has returned, and the first one still waits for the loop. -/
def overlapped : Custody Unit :=
  { task := { settings := {}, inst := "worker"
              forwarders := [{ token := ⟨0⟩, stage := .forwarding true () Loop.leasedOrder [] }] }
    tokens := { issued := 1, cancelled := [⟨0⟩] }
    commands := [.started, .waiting 0, .stopped none] }

/-- **A stop returns while the loop goes on, and a start puts a second loop beside it.**  The second
of two stops finds nothing to wait for and returns; no loop has been started since, and yet the
first loop is alive and forwards its order.  And if the task is started then, two loops are
alive. -/
theorem two_loops_after_stop : ∃ u v : Custody Unit,
    Run Step (initial {} "worker") overlap overlapped ∧
    overlapped.commands[2]? = some (.stopped none) ∧ overlapped.Alive 0 ∧
    Step overlapped (.move 0 (.result (.ok ()))) u ∧
    Run Step overlapped [.start, .proceed 3] v ∧ v.Alive 0 ∧ v.Alive 1 := by
  have hrun : Run Step (initial {} "worker") overlap overlapped :=
    .cons .start <|
    .cons (.proceed rfl .launch) <|
    .cons (.move rfl (.answer "worker" rfl .done)) <|
    .cons (.move rfl (.decide none rfl)) <|
    .cons (.move rfl (.answer "worker" rfl (.count 1))) <|
    .cons (.move rfl (.decide none rfl)) <|
    .cons (.move rfl (.answer "worker" rfl (.rows [Loop.leasedOrder]))) <|
    .cons (.move rfl (.decide none rfl)) <|
    .cons .stop <|
    .cons (.proceed rfl (.take rfl)) <|
    .cons (.proceed rfl (.cancel rfl)) <|
    .cons .stop <|
    .cons (.proceed rfl (.pass rfl)) (.nil _)
  have hforward : Step overlapped (.move 0 (.result (.ok ()))) _ :=
    .move rfl (.forward rfl (.ok ()))
  have hagain : Run Step overlapped [.start, .proceed 3] _ :=
    .cons .start <| .cons (.proceed rfl .launch) (.nil _)
  exact ⟨_, _, hrun, rfl, ⟨_, rfl, rfl⟩, hforward, hagain, ⟨_, rfl, rfl⟩, ⟨_, rfl, rfl⟩⟩

end Custody
end Courier
