import Courier.Proofs.Outbox.Custody
import Courier.Proofs.Outbox.Tenure
import Courier.Proofs.Time.Moving
import Mathlib.Data.List.Chain

/-!
# Cleanups

A loop that has nothing to deliver cleans up before its pause, if it is time.  The mark of the next
cleanup belongs to the task: it outlives the loops, and a loop that is started later, or beside the
one before, finds it.  It is moved before the removal is asked for, so a removal that fails is not
made up for.

`Upkeep` is a task with its calls and its loops, a clock that may show any time, and a repository of
which others make calls as they like.  It remembers which loop has triggered a cleanup, and what the
clock showed then.  `Regular` ties the mark and the removals under way to these cleanups.

A cleanup waits until the clock shows a time behind the last one and the interval.  This keeps all
cleanups apart as long as a sum does not lie before its start; so it does, up to the latest instant
(`Instant.le_add_and_add_le_max`).

Main statements: `cleans_up_apart` and `cleaned_up_too_soon`.
-/

namespace Courier

namespace Forwarder

variable {β : Type} {f : Forwarder β} {v : View β} {next : Option Instant}

/-- A forwarder waits for the removal of old rows. -/
def isCleaning (f : Forwarder β) : Bool :=
  match f.stage with
  | .deleting _ => true
  | _ => false

theorem isCleaning_of_stage {olderThan : Instant} (hstage : f.stage = .deleting olderThan) :
    f.isCleaning = true := by
  rw [isCleaning, hstage]

theorem isCleaning_roundOver (idle : Bool) : (f.roundOver idle).isCleaning = false := by
  cases idle <;> rfl

theorem isCleaning_roundFailed (cause : Failure) : (f.roundFailed cause).isCleaning = false := by
  cases h : cause.isCancellation <;> simp [roundFailed, isCleaning, h]

theorem isCleaning_decideRow (idle : Bool) (rows : List Row) :
    (f.decideRow v idle rows).isCleaning = false := by
  fun_cases f.decideRow v idle rows <;> rfl

theorem isCleaning_decideSettling (idle : Bool) (result : BatchResult) :
    (f.decideSettling v idle result).isCleaning = false := by
  fun_cases f.decideSettling v idle result with
  | case4 => exact isCleaning_roundOver idle
  | case5 => exact isCleaning_roundFailed _
  | _ => rfl

/-- Whatever the repository answers, no removal is asked for then. -/
theorem isCleaning_answered (f : Forwarder β) (answer : RepositoryAnswer) :
    (f.answered answer).isCleaning = false := by
  fun_cases f.answered answer with
  | case3 => exact isCleaning_roundFailed _
  | case4 => exact isCleaning_roundOver _
  | case6 => exact isCleaning_roundFailed _
  | case8 => exact isCleaning_roundOver _
  | case9 => exact isCleaning_roundFailed _
  | case11 => exact isCleaning_roundFailed _
  | case13 expires cause => cases cause.isCancellation <;> rfl
  | case15 _ _ _ _ _ _ hnot =>
    cases hstage : f.stage with
    | deleting olderThan => exact (hnot olderThan hstage).elim
    | _ => simp [isCleaning, hstage]
  | _ => rfl

theorem isCleaning_forwarded (idle : Bool) (row : Row) (rest : List Row)
    (result : Except Failure Unit) : (f.forwarded idle row rest result).isCleaning = false := by
  fun_cases f.forwarded idle row rest result <;> rfl

theorem stage_of_deleteSent {inst : String} {olderThan : Instant}
    (hcall : f.call? inst = some (.deleteSent olderThan)) : f.stage = .deleting olderThan := by
  cases hstage : f.stage <;> simp_all [call?]

theorem isCleanupDue_iff {cleanup : CleanupSettings} {now : Instant} :
    isCleanupDue cleanup next now = true ↔
      cleanup.enabled = true ∧ ∀ mark, next = some mark → mark < now := by
  cases next <;> simp [isCleanupDue]

/-- **What a decision has to do with cleanups.**  At a rest it triggers one that is due, and moves
the mark; every other decision leaves the mark where it is and asks for no removal. -/
theorem cleanup_of_decide (f : Forwarder β) (v : View β) (next : Option Instant) :
    (f.isCleaning = false ∧ isCleanupDue v.settings.cleanup next v.now = true ∧
      (f.decide v next).1.stage = .deleting (v.now.sub v.settings.cleanup.age) ∧
      (f.decide v next).2 = some (v.now.add v.settings.cleanup.interval)) ∨
    ((f.decide v next).2 = next ∧
      ((f.decide v next).1.isCleaning = true → (f.decide v next).1 = f)) := by
  fun_cases f.decide v next with
  | case5 idle rows => exact .inr ⟨rfl, by simp [isCleaning_decideRow]⟩
  | case6 idle result => exact .inr ⟨rfl, by simp [isCleaning_decideSettling]⟩
  | case7 hstage hdue => exact .inl ⟨by simp [isCleaning, hstage], hdue, rfl, rfl⟩
  | case9 => exact .inr ⟨rfl, fun _ => rfl⟩
  | case3 => exact .inr ⟨rfl, by simp [isCleaning_roundOver]⟩
  | _ => exact .inr ⟨rfl, by simp [isCleaning]⟩

end Forwarder

namespace Repository

/-- Every row stays where it is, with its message. -/
def AllKept (old new : List Row) : Prop := List.Forall₂ (fun r q => q.content = r.content) old new

theorem AllKept.refl (rows : List Row) : AllKept rows rows :=
  List.forall₂_same.mpr fun _ _ => rfl

/-- No call but a capture adds a row, and none but a cleanup leaves one out. -/
theorem allKept_or_retained (s : Repository) (isCancelled : Bool) (now : Instant)
    {call : RepositoryCall} (hsave : ∀ row, call ≠ .save row) :
    AllKept s.rows (s.perform isCancelled now call).1.rows ∨
      ∃ olderThan, call = .deleteSent olderThan ∧
        (s.perform isCancelled now call).1.rows = retainedRows olderThan s.rows := by
  cases isCancelled with
  | true =>
    rw [perform_cancelled]
    exact .inl (.refl s.rows)
  | false =>
    by_cases hdelete : ∃ olderThan, call = .deleteSent olderThan
    · obtain ⟨olderThan, rfl⟩ := hdelete
      exact .inr ⟨olderThan, rfl, rfl⟩
    · have hchanges := perform_changes s now call hsave fun olderThan h => hdelete ⟨olderThan, h⟩
      exact .inl (hchanges.imp fun _ _ h => h.content_eq)

end Repository

open Repository (AllKept)

/-- A cleanup that a loop has triggered. -/
structure Cleanup where
  loop : Nat
  /-- What the clock showed then. -/
  time : Instant
deriving DecidableEq

/-- A task with its calls and its loops, over a repository. -/
structure Upkeep (β : Type) where
  custody : Custody β
  clock : Instant
  repository : Repository
  /-- The cleanups that were triggered, the latest first. -/
  cleanups : List Cleanup := []

/-- How a call of a repository goes. -/
inductive Passage
  /-- It is carried out and answered. -/
  | answered
  /-- It fails before it is carried out. -/
  | refused (cause : Failure)
  /-- It is carried out and fails after that. -/
  | lost (cause : Failure)

/-- The clock or the repository has a part in what happens to a task. -/
def Custody.Event.isGuided {β : Type} : Custody.Event β → Bool
  | .move _ (.decision ..) | .move _ (.answer _) => true
  | _ => false

namespace Upkeep

variable {β : Type}

/-- A task that nobody has called. -/
def initial (settings : OutboxSettings) (inst : String) (clock : Instant)
    (repository : Repository) : Upkeep β :=
  { custody := .initial settings inst, clock, repository }

/-- What can happen around a task and its repository. -/
inductive Event (β : Type)
  /-- The clock shows a time. -/
  | clock (now : Instant)
  /-- Somebody else calls the repository. -/
  | visit (v : Visit)
  /-- The task is called, or a loop gets the result of a delivery, ends its pause or breaks off. -/
  | custody (e : Custody.Event β)
  /-- The loop `n` decides something, while buses are reachable by `route`. -/
  | decide (n : Nat) (route : Option String → Option β)
  /-- The loop `n` calls the repository. -/
  | call (n : Nat) (passage : Passage)

/-- The task or one of its loops acts. -/
def Event.isOwn : Event β → Bool
  | .clock _ | .visit _ => false
  | _ => true

/-- The loop `n` has become `f`. -/
def withForwarder (s : Upkeep β) (n : Nat) (f : Forwarder β) (cleanupNext : Option Instant) :
    Upkeep β :=
  { s with
    custody := { s.custody with
      task := { s.custody.task.setForwarder n f with cleanupNext } } }

/-- What a loop sees when it decides. -/
def view (s : Upkeep β) (f : Forwarder β) (route : Option String → Option β) : Forwarder.View β :=
  { settings := s.custody.task.settings, now := s.clock
    isCancelled := s.custody.tokens.isCancelled f.token, route }

/-- The loop `n` has decided something; a cleanup is triggered if it asks for a removal then. -/
def afterDecision (s : Upkeep β) (n : Nat) (f : Forwarder β)
    (route : Option String → Option β) : Upkeep β :=
  let decision := f.decide (s.view f route) s.custody.task.cleanupNext
  { s.withForwarder n decision.1 decision.2 with
    cleanups :=
      if decision.1.isCleaning && !f.isCleaning then ⟨n, s.clock⟩ :: s.cleanups else s.cleanups }

/-- A call is carried out, or it fails, or both. -/
def carryOut (s : Upkeep β) (token : Token) (call : RepositoryCall) :
    Passage → Repository × RepositoryAnswer
  | .answered => s.repository.perform (s.custody.tokens.isCancelled token) s.clock call
  | .refused cause => (s.repository, .failed cause)
  | .lost cause =>
    ((s.repository.perform (s.custody.tokens.isCancelled token) s.clock call).1, .failed cause)

/-- The loop `n` has called the repository. -/
def afterCall (s : Upkeep β) (n : Nat) (f : Forwarder β) (call : RepositoryCall)
    (passage : Passage) : Upkeep β :=
  let outcome := s.carryOut f.token call passage
  { s.withForwarder n (f.answered outcome.2) s.custody.task.cleanupNext with
    repository := outcome.1 }

/-- One step around a task and its repository. -/
inductive Step : Upkeep β → Event β → Upkeep β → Prop
  | clock {s : Upkeep β} (now : Instant) : Step s (.clock now) { s with clock := now }
  | visit {s : Upkeep β} (v : Visit) :
      Step s (.visit v) { s with repository := s.repository.visited v }
  | custody {s : Upkeep β} {e : Custody.Event β} {c : Custody β}
      (hstep : Custody.Step s.custody e c) (hfree : e.isGuided = false) :
      Step s (.custody e) { s with custody := c }
  | decide {s : Upkeep β} {n : Nat} {f : Forwarder β}
      (hforwarder : s.custody.task.forwarder? n = some f) (route : Option String → Option β) :
      Step s (.decide n route) (s.afterDecision n f route)
  | call {s : Upkeep β} {n : Nat} {f : Forwarder β} {call : RepositoryCall}
      (hforwarder : s.custody.task.forwarder? n = some f)
      (hcall : f.call? s.custody.task.inst = some call) (passage : Passage) :
      Step s (.call n passage) (s.afterCall n f call passage)

/-- The last cleanup that the loop `n` has triggered. -/
def last? (s : Upkeep β) (n : Nat) : Option Cleanup := s.cleanups.find? fun c => c.loop == n

variable {s : Upkeep β} {n m : Nat} {f g : Forwarder β}

/-! ## What a step has to do with cleanups -/

/-- The forwarders after one of them has moved. -/
theorem forwarder?_withForwarder (hforwarder : s.custody.task.forwarder? n = some f)
    (next : Option Instant) :
    (s.withForwarder n g next).custody.task.forwarder? m =
      if m = n then some g else s.custody.task.forwarder? m := by
  have hlt : n < s.custody.task.forwarders.length := (List.getElem?_eq_some_iff.mp hforwarder).1
  by_cases hm : m = n
  · simp [withForwarder, SendingTask.forwarder?, SendingTask.setForwarder, hm, hlt]
  · simp [withForwarder, SendingTask.forwarder?, SendingTask.setForwarder, hm,
      List.getElem?_set_ne (Ne.symm hm)]

end Upkeep

namespace Custody

variable {β : Type} {s u : Custody β} {e : Event β} {n : Nat} {g : Forwarder β}

/-- Calls of a task keep its settings, the mark of the next cleanup and all loops; a start may put
one more behind them. -/
theorem Advance.upkeep {c c' : Command β} {t : SendingTask β} {tokens : Tokens}
    (hadvance : Advance s c t tokens c') :
    t.settings = s.task.settings ∧ t.cleanupNext = s.task.cleanupNext ∧
      (t.forwarders = s.task.forwarders ∨
        ∃ token, t.forwarders = s.task.forwarders ++ [({ token } : Forwarder β)]) := by
  cases hadvance with
  | list event name bus => cases event <;> exact ⟨rfl, rfl, .inl rfl⟩
  | count event => cases event <;> exact ⟨rfl, rfl, .inl rfl⟩
  | launch =>
    cases hcurrent : s.task.current with
    | some k =>
      rw [SendingTask.start_of_current _ hcurrent]
      exact ⟨rfl, rfl, .inl rfl⟩
    | none =>
      rw [SendingTask.start, hcurrent]
      exact ⟨rfl, rfl, .inr ⟨_, rfl⟩⟩
  | _ => exact ⟨rfl, rfl, .inl rfl⟩

theorem Step.upkeep (hstep : Step s e u) :
    u.task.settings = s.task.settings ∧ u.task.cleanupNext = s.task.cleanupNext := by
  cases hstep with
  | proceed hcommand hadvance => exact ⟨hadvance.upkeep.1, hadvance.upkeep.2.1⟩
  | _ => exact ⟨rfl, rfl⟩

/-- A loop that asks for a removal after another one has moved has done so before. -/
theorem cleaning_of_set {f : Forwarder β} {k : Nat} (hf : f.isCleaning = false)
    (hg : (s.task.setForwarder k f).forwarder? n = some g) (hcleaning : g.isCleaning = true) :
    s.task.forwarder? n = some g := by
  by_cases hk : k = n
  · subst hk
    rw [SendingTask.forwarder?, SendingTask.setForwarder, List.getElem?_set_self'] at hg
    obtain ⟨f', -, rfl⟩ := Option.map_eq_some_iff.mp hg
    cases hf.symm.trans hcleaning
  · rwa [SendingTask.forwarder?, SendingTask.setForwarder, List.getElem?_set_ne hk] at hg

/-- Unless it decides, no loop comes to ask for a removal. -/
theorem Step.cleaning (hstep : Step s e u) (hfree : e.isGuided = false)
    (hg : u.task.forwarder? n = some g) (hcleaning : g.isCleaning = true) :
    s.task.forwarder? n = some g := by
  cases hstep with
  | proceed hcommand hadvance =>
    obtain ⟨-, -, hsame | ⟨token, hlaunched⟩⟩ := hadvance.upkeep
    · simpa [SendingTask.forwarder?, setCommand, hsame] using hg
    · simp only [SendingTask.forwarder?, setCommand, hlaunched] at hg
      rcases getElem?_or_eq_of_concat hg with hold | rfl
      · exact hold
      · cases hcleaning
  | move hforwarder hmove =>
    refine cleaning_of_set ?_ hg hcleaning
    cases hmove with
    | decide next hview => cases hfree
    | answer inst hcall answer => cases hfree
    | forward hstage result => exact Forwarder.isCleaning_forwarded _ _ _ result
    | @resume early hstage hearly => cases early <;> rfl
  | crash hforwarder => exact cleaning_of_set rfl hg hcleaning
  | _ => exact hg

end Custody

namespace Upkeep

variable {β : Type} {s u : Upkeep β} {e : Event β} {es : List (Event β)} {n : Nat}
variable {f g : Forwarder β} {settings : OutboxSettings} {inst : String} {clock : Instant}
variable {repository : Repository}

/-! ## What a run has to do with cleanups -/

/-- The mark and the removals under way follow from the cleanups so far. -/
structure Regular (settings : OutboxSettings) (s : Upkeep β) : Prop where
  settings_eq : s.custody.task.settings = settings
  mark : s.custody.task.cleanupNext =
    s.cleanups.head?.map fun c => c.time.add settings.cleanup.interval
  /-- No cleanup but the first one was triggered before the mark that it found. -/
  chain : s.cleanups.IsChain fun c b => b.time.add settings.cleanup.interval < c.time
  /-- A loop that waits for a removal asks for what its last cleanup does not keep. -/
  pending : ∀ n f olderThan, s.custody.task.forwarder? n = some f → f.stage = .deleting olderThan →
    ∃ c, s.last? n = some c ∧ olderThan = c.time.sub settings.cleanup.age
  enabled : s.cleanups ≠ [] → settings.cleanup.enabled = true

theorem regular_initial : Regular settings (initial settings inst clock repository : Upkeep β) where
  settings_eq := rfl
  mark := rfl
  chain := .nil
  pending n f olderThan hf := by simp [initial, Custody.initial, SendingTask.forwarder?] at hf
  enabled h := absurd rfl h

/-- Where no cleanup is triggered, nothing changes. -/
theorem Regular.of_quiet (h : Regular settings s)
    (hsettings : u.custody.task.settings = s.custody.task.settings)
    (hmark : u.custody.task.cleanupNext = s.custody.task.cleanupNext)
    (hcleanups : u.cleanups = s.cleanups)
    (hcleaning : ∀ n g, u.custody.task.forwarder? n = some g → g.isCleaning = true →
      s.custody.task.forwarder? n = some g) : Regular settings u where
  settings_eq := hsettings.trans h.settings_eq
  mark := by rw [hmark, hcleanups, h.mark]
  chain := by rw [hcleanups]; exact h.chain
  pending n g olderThan hg hstage := by
    rw [last?, hcleanups]
    exact h.pending n g olderThan (hcleaning n g hg (Forwarder.isCleaning_of_stage hstage)) hstage
  enabled := by rw [hcleanups]; exact h.enabled

/-- A loop that has moved and asks for no removal leaves things as they are. -/
theorem Regular.withForwarder (h : Regular settings s)
    (hforwarder : s.custody.task.forwarder? n = some f)
    (hg : g.isCleaning = true → g = f) {next : Option Instant}
    (hnext : next = s.custody.task.cleanupNext) :
    Regular settings (s.withForwarder n g next) := by
  refine h.of_quiet rfl hnext rfl fun m g' hg' hcleaning => ?_
  rw [forwarder?_withForwarder hforwarder] at hg'
  by_cases hm : m = n
  · rw [if_pos hm] at hg'
    obtain rfl := Option.some.inj hg'
    rw [hm, hg hcleaning, hforwarder]
  · rwa [if_neg hm] at hg'

/-- A decision that triggers a cleanup finds the mark behind it, and moves it. -/
theorem Regular.triggered (h : Regular settings s)
    (hforwarder : s.custody.task.forwarder? n = some f)
    (hstage : g.stage = .deleting (s.clock.sub settings.cleanup.age))
    (hdue : Forwarder.isCleanupDue settings.cleanup s.custody.task.cleanupNext s.clock = true) :
    Regular settings
      { s.withForwarder n g (some (s.clock.add settings.cleanup.interval)) with
        cleanups := ⟨n, s.clock⟩ :: s.cleanups } := by
  obtain ⟨henabled, hmark⟩ := Forwarder.isCleanupDue_iff.mp hdue
  refine ⟨h.settings_eq, rfl, ?_, fun m g' olderThan hg' hstage' => ?_, fun _ => henabled⟩
  · refine List.isChain_cons.mpr ⟨fun b hb => hmark _ ?_, h.chain⟩
    rw [h.mark, hb, Option.map_some]
  · change (s.withForwarder n g _).custody.task.forwarder? m = some g' at hg'
    rw [forwarder?_withForwarder hforwarder] at hg'
    by_cases hm : m = n
    · rw [if_pos hm] at hg'
      obtain rfl := Option.some.inj hg'
      obtain rfl := Forwarder.Stage.deleting.inj (hstage.symm.trans hstage')
      exact ⟨⟨n, s.clock⟩, by simp [last?, hm], rfl⟩
    · rw [if_neg hm] at hg'
      obtain ⟨c, hc, hage⟩ := h.pending m g' olderThan hg' hstage'
      exact ⟨c, by simpa [last?, Ne.symm hm] using hc, hage⟩

theorem Regular.decided (h : Regular settings s)
    (hforwarder : s.custody.task.forwarder? n = some f) (route : Option String → Option β) :
    Regular settings (s.afterDecision n f route) := by
  have hsettings : (s.view f route).settings = settings := h.settings_eq
  simp only [afterDecision]
  rcases f.cleanup_of_decide (s.view f route) s.custody.task.cleanupNext with
    ⟨hidle, hdue, hstage, hnext⟩ | ⟨hnext, hquiet⟩
  · rw [hsettings] at hdue hstage hnext
    rw [Forwarder.isCleaning_of_stage hstage, hidle, hnext]
    exact h.triggered hforwarder hstage hdue
  · rw [if_neg]
    · exact h.withForwarder hforwarder hquiet hnext
    · intro htriggered
      obtain ⟨hcleaning, hidle⟩ := Bool.and_eq_true_iff.mp htriggered
      rw [hquiet hcleaning] at hcleaning
      simp [hcleaning] at hidle

/-- Every step ties them to the cleanups again. -/
theorem Regular.step (h : Regular settings s) (hstep : Step s e u) : Regular settings u := by
  cases hstep with
  | clock now => exact h.of_quiet rfl rfl rfl fun _ _ hg _ => hg
  | visit v => exact h.of_quiet rfl rfl rfl fun _ _ hg _ => hg
  | custody hstep hfree =>
    obtain ⟨hsettings, hmark⟩ := hstep.upkeep
    exact h.of_quiet hsettings hmark rfl fun _ _ hg hcleaning => hstep.cleaning hfree hg hcleaning
  | decide hforwarder route => exact h.decided hforwarder route
  | @call n f call hforwarder hcall passage =>
    have hidle (answer : RepositoryAnswer) :
        (f.answered answer).isCleaning = true → f.answered answer = f := by
      simp [Forwarder.isCleaning_answered]
    have hregular := h.withForwarder hforwarder (hidle (s.carryOut f.token call passage).2) rfl
    exact hregular.of_quiet rfl rfl rfl fun _ _ hg _ => hg

theorem regular_of_run (hrun : Run Step (initial settings inst clock repository : Upkeep β) es s) :
    Regular settings s :=
  hrun.invariant (Regular settings) regular_initial fun _ _ _ h hstep => h.step hstep

/-- A loop at rest triggers a cleanup exactly if one is due. -/
theorem Regular.triggers_iff (h : Regular settings s) {route : Option String → Option β}
    (hforwarder : s.custody.task.forwarder? n = some f) (hresting : f.stage = .resting)
    (hstep : Step s (.decide n route) u) :
    u.cleanups = ⟨n, s.clock⟩ :: s.cleanups ↔ settings.cleanup.enabled = true ∧
      ∀ b, s.cleanups.head? = some b → b.time.add settings.cleanup.interval < s.clock := by
  have hdue : Forwarder.isCleanupDue settings.cleanup s.custody.task.cleanupNext s.clock = true ↔
      settings.cleanup.enabled = true ∧
        ∀ b, s.cleanups.head? = some b → b.time.add settings.cleanup.interval < s.clock := by
    rw [Forwarder.isCleanupDue_iff, h.mark]
    simp
  rw [← hdue]
  cases hstep with
  | decide hforwarder' route =>
    obtain rfl := Option.some.inj (hforwarder.symm.trans hforwarder')
    have hidle : f.isCleaning = false := by rw [Forwarder.isCleaning, hresting]
    have hsettings : (s.view f route).settings = settings := h.settings_eq
    have hnow : (s.view f route).now = s.clock := rfl
    simp only [afterDecision, Forwarder.decide, hresting, hsettings, hnow, hidle]
    split
    · next hdue => simp [hdue, Forwarder.isCleaning]
    · next hdue => simp [hdue, Forwarder.isCleaning]

/-- Each cleanup lies behind every earlier one and the interval, not only behind the one before it,
as long as the earlier one does not lie behind the latest instant. -/
theorem pairwise_of_chain {interval : Span} {cleanups : List Cleanup}
    (h : cleanups.IsChain fun c b => b.time.add interval < c.time) :
    cleanups.Pairwise fun c b => b.time ≤ .max → b.time.add interval < c.time := by
  induction cleanups with
  | nil => exact .nil
  | cons c rest ih =>
    have hrest := ih h.tail
    refine List.pairwise_cons.mpr ⟨fun b hb hmax => ?_, hrest⟩
    cases rest with
    | nil => cases hb
    | cons d rest =>
      have hlast : d.time.add interval < c.time := (List.isChain_cons_cons.mp h).1
      rcases List.mem_cons.mp hb with rfl | hb
      · exact hlast
      · obtain ⟨-, hbound⟩ := Instant.le_add_and_add_le_max hmax interval
        rcases le_or_gt d.time .max with hd | hd
        · have hearlier : b.time.add interval < d.time := List.rel_of_pairwise_cons hrest hb hmax
          exact (hearlier.trans_le (Instant.le_add_and_add_le_max hd interval).1).trans hlast
        · -- from there on every mark lies at the latest instant or behind it
          exact (hbound.trans (Instant.max_le_add hd interval)).trans_lt hlast

/-- However a call goes, it keeps all rows, or it is a cleanup. -/
theorem carryOut_rows {token : Token} {call : RepositoryCall} (passage : Passage)
    (hsave : ∀ row, call ≠ .save row) :
    AllKept s.repository.rows (s.carryOut token call passage).1.rows ∨
      ∃ olderThan, call = .deleteSent olderThan ∧
        (s.carryOut token call passage).1.rows =
          Repository.retainedRows olderThan s.repository.rows := by
  cases passage with
  | refused cause => exact .inl (.refl _)
  | answered => exact s.repository.allKept_or_retained _ _ hsave
  | lost cause => exact s.repository.allKept_or_retained _ _ hsave

/-- **What a task removes.**  A step of a task keeps all rows, or it carries out the last cleanup of
a loop, and keeps the rows that are not sent or not old enough for that. -/
theorem Regular.rows_of_own (h : Regular settings s) (hstep : Step s e u) (hown : e.isOwn = true) :
    AllKept s.repository.rows u.repository.rows ∨
      settings.cleanup.enabled = true ∧ ∃ n passage c, e = .call n passage ∧ s.last? n = some c ∧
        u.repository.rows = Repository.retainedRows (c.time.sub settings.cleanup.age)
          s.repository.rows := by
  cases hstep with
  | clock now => cases hown
  | visit v => cases hown
  | custody hstep hfree => exact .inl (.refl _)
  | decide hforwarder route => exact .inl (.refl _)
  | @call n f call hforwarder hcall passage =>
    refine (carryOut_rows passage (Forwarder.call?_ne_save hcall)).imp_right ?_
    rintro ⟨olderThan, rfl, hrows⟩
    obtain ⟨c, hlast, rfl⟩ := h.pending n f olderThan hforwarder
      (Forwarder.stage_of_deleteSent hcall)
    have hne : s.cleanups ≠ [] := List.ne_nil_of_mem (List.mem_of_find?_eq_some hlast)
    exact ⟨h.enabled hne, n, passage, c, rfl, hlast, hrows⟩

/-- **Cleanups remove what is old, and are an interval apart.**  Whatever callers, loops, the clock
and other users of the repository do:

* a loop at rest triggers a cleanup exactly if the task is to clean up and the clock shows a time
  behind the last cleanup and the interval, whichever loop triggered that one;
* a step of a task keeps all rows where they are, or it carries out the last cleanup that a loop has
  triggered; then the rows that were sent, and captured more than the age before the cleanup was
  triggered, are removed, and all others are kept in their order;
* each cleanup was triggered behind the one before it and the interval;
* any two cleanups were triggered more than the interval apart, where the earlier one does not lie
  behind the latest instant; if the later one lies there, the interval may be cut off;
* a task that is not to clean up has triggered no cleanup, and removes nothing. -/
theorem cleans_up_apart
    (hrun : Run Step (initial settings inst clock repository : Upkeep β) es s) :
    (∀ n f route u, s.custody.task.forwarder? n = some f → f.stage = .resting →
      Step s (.decide n route) u →
      (u.cleanups = ⟨n, s.clock⟩ :: s.cleanups ↔ settings.cleanup.enabled = true ∧
        ∀ b, s.cleanups.head? = some b → b.time.add settings.cleanup.interval < s.clock)) ∧
    (∀ e u, Step s e u → e.isOwn = true →
      AllKept s.repository.rows u.repository.rows ∨
      settings.cleanup.enabled = true ∧ ∃ n passage c,
        e = .call n passage ∧ s.last? n = some c ∧
        u.repository.rows = s.repository.rows.filter (fun r =>
          !(r.isSent && decide (r.timestamp < c.time.sub settings.cleanup.age))) ∧
        ∀ r ∈ s.repository.rows, r ∉ u.repository.rows → r.isSent = true ∧
          (settings.cleanup.age.nanoseconds : Int) < r.timestamp.elapsed c.time) ∧
    s.cleanups.IsChain (fun c b => b.time.add settings.cleanup.interval < c.time) ∧
    s.cleanups.Pairwise (fun c b => b.time ≤ .max →
      b.time.add settings.cleanup.interval < c.time ∧
      (c.time ≤ .max →
        (settings.cleanup.interval.nanoseconds : Int) < b.time.elapsed c.time)) ∧
    (settings.cleanup.enabled = false → s.cleanups = []) := by
  have hregular := regular_of_run hrun
  refine ⟨fun n f route u hf hresting hstep => hregular.triggers_iff hf hresting hstep,
    fun e u hstep hown => ?_, hregular.chain, ?_, fun hdisabled => ?_⟩
  · refine (hregular.rows_of_own hstep hown).imp_right ?_
    rintro ⟨henabled, n, passage, c, rfl, hlast, hrows⟩
    refine ⟨henabled, n, passage, c, rfl, hlast, hrows, fun r hr hremoved => ?_⟩
    have hexpendable : Repository.isExpendable (c.time.sub settings.cleanup.age) r = true := by
      by_contra hkept
      exact hremoved (hrows ▸ List.mem_filter.mpr ⟨hr, by simpa using hkept⟩)
    simp only [Repository.isExpendable, Bool.and_eq_true, decide_eq_true_eq] at hexpendable
    exact ⟨hexpendable.1, Instant.lt_elapsed_of_lt_sub hexpendable.2⟩
  · refine (pairwise_of_chain hregular.chain).imp fun hapart hmax => ?_
    exact ⟨hapart hmax, fun hlate => Instant.lt_elapsed_of_add_lt (hapart hmax) hlate⟩
  · by_contra hne
    exact absurd (hregular.enabled hne) (by simp [hdisabled])

/-- A cleanup after half a second, of what is older than a second. -/
def brisk : OutboxSettings := { cleanup := { interval := ⟨500000000⟩, age := ⟨1000000000⟩ } }

/-- So many seconds after the first instant of 1970. -/
def seconds (n : Nat) : Instant := Instant.epoch.add (.ofSeconds n 0)

/-- An order that was captured and sent at a time. -/
def sentOrder (id : RowId) (captured : Instant) : Row :=
  { id, busName := none, path := "orders", messageType := ⟨"OrderPlaced"⟩, payload := []
    headers := [], deliveredOn := some captured, timestamp := captured }

/-- Two orders that were sent. -/
def twoSent : Repository where
  rows := [sentOrder ⟨1⟩ .epoch, sentOrder ⟨2⟩ (seconds 11)]
  batchSize := 1
  batchSize_pos := by decide

/-- A loop has nothing to lease. -/
def idleRound (n : Nat) : List (Event Unit) :=
  [.decide n fun _ => none, .call n .answered, .decide n fun _ => none]

/-- A loop triggers a cleanup, and is stopped before the removal; another loop is started, finds the
clock set back and waits, and triggers the next cleanup. -/
def stoppedBetween : List (Event Unit) :=
  [.custody .start, .custody (.proceed 0), .call 0 .answered] ++ idleRound 0 ++
  [.custody .stop, .custody (.proceed 1), .custody (.proceed 1), .call 0 .answered,
    .custody (.proceed 1), .clock (seconds 5), .custody .start, .custody (.proceed 2),
    .call 1 .answered] ++ idleRound 1 ++
  [.custody (.move 1 (.pauseOver false)), .clock (seconds 11)] ++ idleRound 1

theorem run_stoppedBetween : ∃ s u : Upkeep Unit,
    Run Step (initial brisk "worker" (seconds 10) twoSent) stoppedBetween s ∧
    Step s (.call 1 .answered) u ∧ s.cleanups = [⟨1, seconds 11⟩, ⟨0, seconds 10⟩] ∧
    s.repository.rows = [sentOrder ⟨1⟩ .epoch, sentOrder ⟨2⟩ (seconds 11)] ∧
    u.repository.rows = [sentOrder ⟨2⟩ (seconds 11)] := by
  have hrun : Run Step (initial brisk "worker" (seconds 10) twoSent) stoppedBetween _ :=
    .cons (.custody .start rfl) <|
    .cons (.custody (.proceed rfl .launch) rfl) <|
    .cons (.call rfl rfl .answered) <|
    .cons (.decide rfl _) <|
    .cons (.call rfl rfl .answered) <|
    .cons (.decide rfl _) <|
    .cons (.custody .stop rfl) <|
    .cons (.custody (.proceed rfl (.take rfl)) rfl) <|
    .cons (.custody (.proceed rfl (.cancel rfl)) rfl) <|
    .cons (.call rfl rfl .answered) <|
    .cons (.custody (.proceed rfl (.await rfl rfl)) rfl) <|
    .cons (.clock (seconds 5)) <|
    .cons (.custody .start rfl) <|
    .cons (.custody (.proceed rfl .launch) rfl) <|
    .cons (.call rfl rfl .answered) <|
    .cons (.decide rfl _) <|
    .cons (.call rfl rfl .answered) <|
    .cons (.decide rfl _) <|
    .cons (.custody (.move rfl (.resume rfl nofun)) rfl) <|
    .cons (.clock (seconds 11)) <|
    .cons (.decide rfl _) <|
    .cons (.call rfl rfl .answered) <|
    .cons (.decide rfl _) (.nil _)
  exact ⟨_, _, hrun, .call rfl rfl .answered, rfl, rfl, rfl⟩

/-- The second loop removes the first order, which is more than a second old; the cleanups are more
than half a second apart. -/
theorem cleans_up_apart_restarted : ∃ s u : Upkeep Unit,
    Run Step (initial brisk "worker" (seconds 10) twoSent) stoppedBetween s ∧
    Step s (.call 1 .answered) u ∧ s.cleanups = [⟨1, seconds 11⟩, ⟨0, seconds 10⟩] ∧
    u.repository.rows = [sentOrder ⟨2⟩ (seconds 11)] ∧
    (1000000000 : Int) < (sentOrder ⟨1⟩ .epoch).timestamp.elapsed (seconds 11) ∧
    (500000000 : Int) < (seconds 10).elapsed (seconds 11) := by
  obtain ⟨s, u, hrun, hstep, hcleanups, hbefore, hafter⟩ := run_stoppedBetween
  obtain ⟨-, hremoves, -, hapart, -⟩ := cleans_up_apart hrun
  refine ⟨s, u, hrun, hstep, hcleanups, hafter, ?_, ?_⟩
  · rcases hremoves _ u hstep rfl with hkept | ⟨-, n, passage, c, hcall, hlast, -, hold⟩
    · rw [hbefore, hafter] at hkept
      exact absurd hkept.length_eq (by decide)
    · obtain ⟨rfl, -⟩ := Event.call.inj hcall
      obtain rfl : ⟨1, seconds 11⟩ = c := by simpa [last?, hcleanups] using hlast
      exact (hold _ (by simp [hbefore]) (by simp [hafter, sentOrder])).2
  · rw [hcleanups] at hapart
    have hlater := List.rel_of_pairwise_cons hapart (List.mem_singleton_self _) (by decide)
    exact hlater.2 (by decide)

/-- A time in the last second that a calendar counts, or in a leap second behind it. -/
def closing (fraction : Nat) : Instant :=
  (Instant.ofParts? Instant.maxSecond fraction).getD .max

/-- A loop cleans up, the clock goes on, the loop cleans up again, the clock is set back, and the
loop cleans up once more. -/
def setBack : List (Event Unit) :=
  [.custody .start, .custody (.proceed 0), .call 0 .answered] ++ idleRound 0 ++
  [.call 0 .answered, .clock (closing 1700000000), .custody (.move 0 (.pauseOver false))] ++
  idleRound 0 ++
  [.call 0 .answered, .clock (closing 1300000000), .custody (.move 0 (.pauseOver false))] ++
  idleRound 0

/-- **Behind the latest instant the mark goes back.**  The second cleanup is triggered in the leap
second that follows the latest instant, and the interval leads out of it.  So the next mark is the
latest instant, which lies before the clock; and when the clock is set back, a third cleanup follows
the first one too soon. -/
theorem cleaned_up_too_soon : ∃ s : Upkeep Unit,
    Run Step (initial brisk "worker" (closing 1100000000) (.empty 1)) setBack s ∧
    s.cleanups =
      [⟨0, closing 1300000000⟩, ⟨0, closing 1700000000⟩, ⟨0, closing 1100000000⟩] ∧
    ¬(closing 1100000000).add brisk.cleanup.interval < closing 1300000000 ∧
    ¬(closing 1300000000).add brisk.cleanup.interval < closing 1100000000 ∧
    (closing 1100000000).elapsed (closing 1300000000) = 200000000 := by
  have hrun : Run Step (initial brisk "worker" (closing 1100000000) (.empty 1)) setBack _ :=
    .cons (.custody .start rfl) <|
    .cons (.custody (.proceed rfl .launch) rfl) <|
    .cons (.call rfl rfl .answered) <|
    .cons (.decide rfl _) <|
    .cons (.call rfl rfl .answered) <|
    .cons (.decide rfl _) <|
    .cons (.call rfl rfl .answered) <|
    .cons (.clock (closing 1700000000)) <|
    .cons (.custody (.move rfl (.resume rfl nofun)) rfl) <|
    .cons (.decide rfl _) <|
    .cons (.call rfl rfl .answered) <|
    .cons (.decide rfl _) <|
    .cons (.call rfl rfl .answered) <|
    .cons (.clock (closing 1300000000)) <|
    .cons (.custody (.move rfl (.resume rfl nofun)) rfl) <|
    .cons (.decide rfl _) <|
    .cons (.call rfl rfl .answered) <|
    .cons (.decide rfl _) (.nil _)
  exact ⟨_, hrun, rfl, by decide, by decide, by decide⟩

end Upkeep

end Courier
