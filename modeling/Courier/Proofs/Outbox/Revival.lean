import Courier.Proofs.Outbox.Custody

/-!
# Starting a loop again

A start that finds the place of the loop empty puts a new loop there.  A start that finds a loop in
it does nothing, and it does not look whether that loop is still alive.  So a loop that has come to
its end on its own is not replaced: every start behind it returns without a loop, until a stop takes
the dead loop out of its place.

Nobody cancels the token of a loop that is in its place (`Sole`), so such a loop comes to its end in
one of three ways only: it could not prepare its repository, a cancellation was reported to it that
was not its own, or it has broken off (`Breaks`).

Main statements: `revived_unless_broken` and `not_revived`.
-/

namespace Courier

namespace Forwarder

variable {β : Type} {f g : Forwarder β} {o : Occasion β} {v : View β} {next : Option Instant}

/-- What ends a forwarder whose token nobody has cancelled. -/
inductive Fails (f : Forwarder β) : Occasion β → Prop
  /-- The repository cannot be prepared, or reports a cancellation. -/
  | answer {cause : Failure} (hcause : f.stage = .migrating ∨ cause.isCancellation = true) :
      Fails f (.answer (.failed cause))
  /-- A cancellation was reported for a row, and the forwarder gives up the batch of the row. -/
  | batch {idle : Bool} {cause : Failure} (hstage : f.stage = .settling idle (.failed cause))
      (hcause : cause.isCancellation = true) (v : View β) (next : Option Instant) :
      Fails f (.decision v next)

theorem isEnded_roundOver (idle : Bool) : (f.roundOver idle).isEnded = false := by
  cases idle <;> rfl

theorem isEnded_roundFailed (cause : Failure) :
    (f.roundFailed cause).isEnded = cause.isCancellation := by
  cases h : cause.isCancellation <;> simp [roundFailed, isEnded, h]

/-- A decision that ends a forwarder gives up a batch that was cancelled. -/
theorem fails_of_decide (hlive : v.isCancelled = false) (halive : f.isEnded = false)
    (hended : (f.decide v next).1.isEnded = true) : f.Fails (.decision v next) := by
  have hunsteady : f.isSteady = false := by
    by_contra hsteady
    have hstays : (f.decide v next).1.isSteady = true :=
      isSteady_decide hlive (by simpa using hsteady)
    cases (not_isEnded_of_isSteady hstays).symm.trans hended
  cases hstage : f.stage with
  | settling idle result =>
    cases result with
    | failed cause =>
      have hcause : cause.isCancellation = true := by
        simpa [isSteady, hstage, BatchResult.isCancellation] using hunsteady
      exact .batch hstage hcause v next
    | _ => simp [isSteady, hstage, BatchResult.isCancellation] at hunsteady
  | migrating => simp [decide, hstage, isEnded] at hended
  | confirming idle result => simp [decide, hstage, isEnded] at hended
  | releasing idle result retryAfter => simp [decide, hstage, isEnded] at hended
  | ended => simp [isEnded, hstage] at halive
  | _ => simp [isSteady, hstage] at hunsteady

/-- An answer that ends a forwarder is a failure. -/
theorem fails_of_answered {answer : RepositoryAnswer} (halive : f.isEnded = false) :
    (f.answered answer).isEnded = true → f.Fails (.answer answer) := by
  have hfailed : ∀ cause, (f.roundFailed cause).isEnded = true →
      f.Fails (.answer (.failed cause)) := by
    intro cause hended
    exact .answer (.inr ((isEnded_roundFailed cause).symm.trans hended))
  fun_cases f.answered answer with
  | case1 cause hstage => exact fun _ => .answer (.inl hstage)
  | case3 => exact hfailed _
  | case4 => simp [isEnded_roundOver]
  | case6 => exact hfailed _
  | case8 => simp [isEnded_roundOver]
  | case9 => exact hfailed _
  | case11 => exact hfailed _
  | case13 expires cause hstage =>
    intro hended
    refine .answer (.inr ?_)
    by_contra hcalm
    simp [isEnded, hcalm] at hended
  | case15 =>
    intro hended
    cases halive.symm.trans hended
  | _ =>
    intro hended
    cases hended

/-- **Under a live token a forwarder ends with a failure.** -/
theorem Move.fails (hmove : Move false f o g) (halive : f.isEnded = false)
    (hended : g.isEnded = true) : f.Fails o := by
  cases hmove with
  | decide next hview => exact fails_of_decide hview halive hended
  | answer inst hcall answer => exact fails_of_answered halive hended
  | @forward idle bus row rest hstage result =>
    revert hended
    fun_cases f.forwarded idle row rest result <;> exact fun hended => by cases hended
  | @resume early hstage hearly =>
    simp only [Bool.false_eq_true, imp_false, Bool.not_eq_true] at hearly
    subst hearly
    cases hended

end Forwarder

namespace Custody

variable {β : Type} {s u v w : Custody β} {e : Event β} {es ds rs : List (Event β)}
variable {k n : Nat} {f g : Forwarder β}

/-- The loop in its place has come to its end. -/
def Broken (s : Custody β) (n : Nat) : Prop := s.task.current = some n ∧ ¬s.Alive n

/-- A loop comes to its end in its place, although its token is not cancelled. -/
structure Breaks (s : Custody β) (n : Nat) (e : Event β) (u : Custody β) : Prop where
  step : Step s e u
  current : s.task.current = some n
  broken : u.Broken n
  loop : ∃ f, s.task.forwarder? n = some f ∧ f.isEnded = false ∧
    s.tokens.isCancelled f.token = false ∧ (e = .crash n ∨ ∃ o, e = .move n o ∧ f.Fails o)

/-! ## The loop in its place -/

/-- Who is in its place after a step was so before, or has just been started. -/
theorem Effect.current_before (heffect : Effect s u) (h : u.task.current = some n) :
    s.task.current = some n ∨ (n = s.started ∧ u.Alive n) := by
  cases heffect with
  | quiet hforwarders hcurrent => exact .inl (hcurrent ▸ h)
  | @launch token hempty hforwarders hcurrent =>
    obtain rfl : s.started = n := Option.some.inj (hcurrent.symm.trans h)
    refine .inr ⟨rfl, { token }, ?_, rfl⟩
    simp [SendingTask.forwarder?, hforwarders, started]
  | take hforwarders hcurrent => cases hcurrent.symm.trans h
  | move hforwarder hforwarders htoken hended hcurrent => exact .inl (hcurrent ▸ h)

/-- A loop keeps its token, and a new one gets a new token. -/
theorem Step.token (hstep : Step s e u) (hg : u.task.forwarder? n = some g) :
    (∃ f, s.task.forwarder? n = some f ∧ g.token = f.token) ∨
      (n = s.started ∧ g.token = s.tokens.fresh.1 ∧ u.tokens = s.tokens.fresh.2) := by
  rcases hstep.effect.forwarder_before hg with ⟨f, hf, htoken, -⟩ | ⟨hempty, hn, hcurrent⟩
  · exact .inl ⟨f, hf, htoken⟩
  · refine .inr ⟨hn, ?_⟩
    subst hn
    -- only a start fills an empty place
    cases hstep with
    | proceed hcommand hadvance =>
      cases hadvance with
      | launch =>
        simp only [setCommand, SendingTask.start, hempty, SendingTask.forwarder?, started,
          List.getElem?_concat_length, Option.some.injEq] at hg
        exact ⟨by rw [← hg], rfl⟩
      | list event name bus => cases event <;> cases hempty.symm.trans hcurrent
      | count event => cases event <;> cases hempty.symm.trans hcurrent
      | take htaken => cases hcurrent
      | pass hnone => cases hcurrent
      | cancel hforwarder => cases hempty.symm.trans hcurrent
      | await hforwarder hended => cases hempty.symm.trans hcurrent
    | _ => cases hempty.symm.trans hcurrent

/-- A stop that holds a loop has just taken it out of its place, or has held it before. -/
theorem Step.holding (hstep : Step s e u) (hk : u.commands[k]? = some (.holding n)) :
    s.commands[k]? = some (.holding n) ∨ (s.task.current = some n ∧ u.task.current = none) := by
  cases hstep with
  | notice event name bus =>
    rcases getElem?_or_eq_of_concat hk with hbefore | hnew
    · exact .inl hbefore
    · cases hnew
  | start =>
    rcases getElem?_or_eq_of_concat hk with hbefore | hnew
    · exact .inl hbefore
    · cases hnew
  | stop =>
    rcases getElem?_or_eq_of_concat hk with hbefore | hnew
    · exact .inl hbefore
    · cases hnew
  | @proceed j c c' t tokens hcommand hadvance =>
    by_cases hjk : j = k
    · subst hjk
      have hc' : c' = .holding n := Option.some.inj ((commands_setCommand hcommand).symm.trans hk)
      cases hadvance with
      | @take m hcurrent =>
        obtain rfl : m = n := Command.holding.inj hc'
        exact .inr ⟨hcurrent, rfl⟩
      | count event =>
        revert hc'
        fun_cases Command.onward event (s.task.counted event).2 <;> exact fun hc' => by cases hc'
      | _ => cases hc'
    · exact .inl (by simpa [setCommand, List.getElem?_set_ne hjk] using hk)
  | @drop j m hcommand =>
    by_cases hjk : j = k
    · subst hjk
      cases Option.some.inj ((commands_setCommand hcommand).symm.trans hk)
    · exact .inl (by simpa [setCommand, List.getElem?_set_ne hjk] using hk)
  | move hforwarder hmove => exact .inl hk
  | crash hforwarder => exact .inl hk

/-- Only stops cancel tokens. -/
theorem Step.cancelled_before {token : Token} (hstep : Step s e u)
    (h : u.tokens.isCancelled token = true) :
    s.tokens.isCancelled token = true ∨
      ∃ (k n : Nat) (f : Forwarder β), s.commands[k]? = some (.holding n) ∧
        s.task.forwarder? n = some f ∧ token = f.token := by
  cases hstep with
  | @proceed k c c' t tokens hcommand hadvance =>
    cases hadvance with
    | @cancel n f hforwarder =>
      by_cases htoken : token = f.token
      · exact .inr ⟨k, n, f, hcommand, hforwarder, htoken⟩
      · exact .inl (by simpa [setCommand, Tokens.isCancelled, Tokens.cancel, htoken] using h)
    | _ => exact .inl h
  | _ => exact .inl h

theorem Step.issued_le (hstep : Step s e u) : s.tokens.issued ≤ u.tokens.issued := by
  cases hstep with
  | proceed hcommand hadvance =>
    cases hadvance with
    | launch => exact Nat.le_succ _
    | _ => exact Nat.le_refl _
  | _ => exact Nat.le_refl _

/-- Every loop has a token of its own, and nobody has cancelled the one of the loop in its place. -/
structure Sole (s : Custody β) : Prop where
  place : ∀ n, s.task.current = some n → n < s.started
  issued : ∀ n f, s.task.forwarder? n = some f → f.token.number < s.tokens.issued
  known : ∀ token, s.tokens.isCancelled token = true → token.number < s.tokens.issued
  own : ∀ m n f g, s.task.forwarder? m = some f → s.task.forwarder? n = some g →
    f.token = g.token → m = n
  held : ∀ k n : Nat, s.commands[k]? = some (.holding n) → n < s.started ∧ s.task.current ≠ some n
  live : ∀ n f, s.task.current = some n → s.task.forwarder? n = some f →
    s.tokens.isCancelled f.token = false

theorem sole_initial (settings : OutboxSettings) (inst : String) :
    (initial settings inst : Custody β).Sole where
  place n hcurrent := by cases hcurrent
  issued n f hf := by simp [initial, SendingTask.forwarder?] at hf
  known token hcancelled := by simp [initial, Tokens.isCancelled] at hcancelled
  own m n f g hf := by simp [initial, SendingTask.forwarder?] at hf
  held k n hheld := by simp [initial] at hheld
  live n f hcurrent := by cases hcurrent

/-- A loop that has just been started has another token than all others. -/
theorem Sole.fresh_ne (h : s.Sole) (hf : s.task.forwarder? n = some f) :
    f.token ≠ s.tokens.fresh.1 := by
  intro htoken
  have hissued := h.issued n f hf
  rw [htoken] at hissued
  exact Nat.lt_irrefl _ hissued

theorem Sole.place_step (h : s.Sole) (hstep : Step s e u) (hcurrent : u.task.current = some n) :
    n < u.started := by
  rcases hstep.effect.current_before hcurrent with hbefore | ⟨-, halive⟩
  · exact (h.place n hbefore).trans_le hstep.effect.started_le
  · exact halive.lt

theorem Sole.issued_step (h : s.Sole) (hstep : Step s e u) (hg : u.task.forwarder? n = some g) :
    g.token.number < u.tokens.issued := by
  rcases hstep.token hg with ⟨f, hf, htoken⟩ | ⟨-, htoken, htokens⟩
  · rw [htoken]
    exact (h.issued n f hf).trans_le hstep.issued_le
  · rw [htoken, htokens]
    exact Nat.lt_succ_self _

theorem Sole.known_step {token : Token} (h : s.Sole) (hstep : Step s e u)
    (hcancelled : u.tokens.isCancelled token = true) : token.number < u.tokens.issued := by
  rcases hstep.cancelled_before hcancelled with hbefore | ⟨k, n, f, -, hf, rfl⟩
  · exact (h.known token hbefore).trans_le hstep.issued_le
  · exact (h.issued n f hf).trans_le hstep.issued_le

theorem Sole.own_step (h : s.Sole) (hstep : Step s e u) {m : Nat}
    (hf : u.task.forwarder? m = some f) (hg : u.task.forwarder? n = some g)
    (hsame : f.token = g.token) : m = n := by
  rcases hstep.token hf with ⟨f', hf', hfirst⟩ | ⟨hm, hfirst, -⟩
  · rcases hstep.token hg with ⟨g', hg', hsecond⟩ | ⟨hn, hsecond, -⟩
    · exact h.own m n f' g' hf' hg' (hfirst.symm.trans (hsame.trans hsecond))
    · exact absurd (hfirst.symm.trans (hsame.trans hsecond)) (h.fresh_ne hf')
  · rcases hstep.token hg with ⟨g', hg', hsecond⟩ | ⟨hn, -, -⟩
    · exact absurd (hsecond.symm.trans (hsame.symm.trans hfirst)) (h.fresh_ne hg')
    · exact hm.trans hn.symm

theorem Sole.held_step (h : s.Sole) (hstep : Step s e u)
    (hheld : u.commands[k]? = some (.holding n)) : n < u.started ∧ u.task.current ≠ some n := by
  rcases hstep.holding hheld with hbefore | ⟨hcurrent, hempty⟩
  · obtain ⟨hlt, hout⟩ := h.held k n hbefore
    refine ⟨hlt.trans_le hstep.effect.started_le, ?_⟩
    intro hcurrent
    rcases hstep.effect.current_before hcurrent with hplace | ⟨hn, -⟩
    · exact hout hplace
    · omega
  · refine ⟨(h.place n hcurrent).trans_le hstep.effect.started_le, ?_⟩
    rw [hempty]
    exact nofun

/-- **Nobody cancels the token of the loop in its place.** -/
theorem Sole.live_step (h : s.Sole) (hstep : Step s e u) (hcurrent : u.task.current = some n)
    (hg : u.task.forwarder? n = some g) : u.tokens.isCancelled g.token = false := by
  by_contra hcancelled
  rw [Bool.not_eq_false] at hcancelled
  rcases hstep.token hg with ⟨f, hf, htoken⟩ | ⟨-, htoken, htokens⟩
  · rw [htoken] at hcancelled
    have hplace : s.task.current = some n := by
      rcases hstep.effect.current_before hcurrent with hplace | ⟨hn, -⟩
      · exact hplace
      · have hlt : n < s.started := (List.getElem?_eq_some_iff.mp hf).1
        omega
    rcases hstep.cancelled_before hcancelled with hbefore | ⟨k, m, f', hheld, hf', hsame⟩
    · exact absurd ((h.live n f hplace hf).symm.trans hbefore) nofun
    · obtain rfl : n = m := h.own n m f f' hf hf' hsame
      exact (h.held k n hheld).2 hplace
  · rw [htoken, htokens] at hcancelled
    exact Nat.lt_irrefl _ (h.known _ hcancelled)

theorem Sole.step (h : s.Sole) (hstep : Step s e u) : u.Sole where
  place _ hcurrent := h.place_step hstep hcurrent
  issued _ _ hg := h.issued_step hstep hg
  known _ hcancelled := h.known_step hstep hcancelled
  own _ _ _ _ hf hg hsame := h.own_step hstep hf hg hsame
  held _ _ hheld := h.held_step hstep hheld
  live _ _ hcurrent hg := h.live_step hstep hcurrent hg

theorem sole_of_run {settings : OutboxSettings} {inst : String}
    (hrun : Run Step (initial settings inst) es s) : s.Sole :=
  hrun.invariant Sole (sole_initial settings inst) fun _ _ _ h hstep => h.step hstep

/-! ## The end of the loop in its place -/

/-- No call moves a loop. -/
theorem Advance.forwarder? {c c' : Command β} {t : SendingTask β} {tokens : Tokens}
    (hadvance : Advance s c t tokens c') (hf : s.task.forwarder? n = some f) :
    t.forwarder? n = some f := by
  cases hadvance with
  | list event name bus => cases event <;> exact hf
  | count event => cases event <;> exact hf
  | launch =>
    have hlt : n < s.task.forwarders.length := (List.getElem?_eq_some_iff.mp hf).1
    cases hcurrent : s.task.current with
    | some m => rwa [SendingTask.start_of_current _ hcurrent]
    | none =>
      simp only [SendingTask.start, hcurrent, SendingTask.forwarder?]
      rwa [List.getElem?_append_left hlt]
  | take hcurrent => exact hf
  | pass hcurrent => exact hf
  | cancel hforwarder => exact hf
  | await hforwarder hended => exact hf

/-- A loop that is not alive any more has made a move that ended it, or has broken off. -/
theorem Step.ends (hstep : Step s e u) (hf : s.task.forwarder? n = some f)
    (halive : f.isEnded = false) (hdead : ¬u.Alive n) :
    e = .crash n ∨ ∃ o g, e = .move n o ∧ f.Move (s.tokens.isCancelled f.token) o g ∧
      g.isEnded = true := by
  cases hstep with
  | notice event name bus => exact absurd ⟨f, hf, halive⟩ hdead
  | start => exact absurd ⟨f, hf, halive⟩ hdead
  | stop => exact absurd ⟨f, hf, halive⟩ hdead
  | proceed hcommand hadvance => exact absurd ⟨f, hadvance.forwarder? hf, halive⟩ hdead
  | drop hcommand => exact absurd ⟨f, hf, halive⟩ hdead
  | @move m f' g o hforwarder hmove =>
    rcases eq_or_getElem?_set hforwarder hf g with ⟨rfl, rfl⟩ | hstays
    · have hlt : m < s.task.forwarders.length := (List.getElem?_eq_some_iff.mp hf).1
      refine .inr ⟨o, g, rfl, hmove, ?_⟩
      by_contra hgoes
      refine hdead ⟨g, ?_, by simpa using hgoes⟩
      simp [SendingTask.forwarder?, SendingTask.setForwarder, hlt]
    · exact absurd ⟨f, hstays, halive⟩ hdead
  | @crash m f' hforwarder =>
    rcases eq_or_getElem?_set hforwarder hf { f' with stage := .ended } with ⟨rfl, -⟩ | hstays
    · exact .inl rfl
    · exact absurd ⟨f, hstays, halive⟩ hdead

/-- A dead loop in its place was so before the step, or it has come to its end in the step. -/
theorem Broken.before (h : u.Broken n) (hsole : s.Sole) (hstep : Step s e u) :
    s.Broken n ∨ s.Breaks n e u := by
  rcases hstep.effect.current_before h.1 with hcurrent | ⟨-, halive⟩
  · by_cases halive : s.Alive n
    · obtain ⟨f, hf, hgoes⟩ := halive
      have hlive := hsole.live n f hcurrent hf
      refine .inr ⟨hstep, hcurrent, h, f, hf, hgoes, hlive, ?_⟩
      refine (hstep.ends hf hgoes h.2).imp_right ?_
      rintro ⟨o, g, he, hmove, hended⟩
      rw [hlive] at hmove
      exact ⟨o, he, hmove.fails hgoes hended⟩
    · exact .inl ⟨hcurrent, halive⟩
  · exact absurd halive h.2

/-- A dead loop stays in its place as long as nobody takes it out. -/
theorem Broken.step (h : s.Broken n) (hstep : Step s e u) (hcurrent : u.task.current = some n) :
    u.Broken n := by
  refine ⟨hcurrent, fun halive => ?_⟩
  rcases hstep.effect.alive_before halive with hbefore | ⟨hempty, -, -⟩
  · exact h.2 hbefore
  · exact absurd (hempty.symm.trans h.1) nofun

/-- A step after which the loop `n` is in its place. -/
def Keeps (n : Nat) (s : Custody β) (e : Event β) (u : Custody β) : Prop :=
  Step s e u ∧ u.task.current = some n

/-- **A dead loop is in its place exactly if it has come to its end there** and nobody has taken it
out since. -/
theorem broken_iff {settings : OutboxSettings} {inst : String}
    (hrun : Run Step (initial settings inst : Custody β) es s) :
    s.Broken n ↔ ∃ ds e rs v w, es = ds ++ e :: rs ∧ Run Step (initial settings inst) ds v ∧
      v.Breaks n e w ∧ Run (Keeps n) w rs s := by
  constructor
  · -- by induction on the run: the last step has broken the loop, or it has kept it in its place
    refine (hrun.history (fun es s => Run Step (initial settings inst) es s ∧
      (s.Broken n → ∃ ds e rs v w, es = ds ++ e :: rs ∧ Run Step (initial settings inst) ds v ∧
        v.Breaks n e w ∧ Run (Keeps n) w rs s)) ⟨.nil _, nofun⟩ ?_).2
    rintro ds s e u ⟨hbefore, ih⟩ hstep
    refine ⟨hbefore.append (.cons hstep (.nil u)), ?_⟩
    intro hbroken
    rcases hbroken.before (sole_of_run hbefore) hstep with hold | hbreaks
    · obtain ⟨cs, d, rs, v, w, rfl, hfirst, hbreaks, hkeeps⟩ := ih hold
      exact ⟨cs, d, rs ++ [e], v, w, by simp, hfirst, hbreaks,
        hkeeps.append (.cons ⟨hstep, hbroken.1⟩ (.nil u))⟩
    · exact ⟨ds, e, [], s, u, rfl, hbefore, hbreaks, .nil u⟩
  · rintro ⟨ds, e, rs, v, w, -, -, hbreaks, hkeeps⟩
    exact hkeeps.invariant (·.Broken n) hbreaks.broken fun _ _ _ h hstep => h.step hstep.1 hstep.2

/-! ## Starts -/

/-- A task runs if the loop in its place is alive. -/
theorem isRunning_iff : s.task.isRunning = true ↔ ∃ n, s.task.current = some n ∧ s.Alive n := by
  unfold SendingTask.isRunning
  cases hcurrent : s.task.current with
  | none => simp
  | some n => cases hf : s.task.forwarder? n <;> simp [Alive, hf]

/-- How a start returns. -/
theorem Step.of_starting (hstep : Step s (.proceed k) u)
    (hcommand : s.commands[k]? = some .starting) :
    u.commands[k]? = some .started ∧ u.task = (s.task.start s.tokens.fresh.1).1 := by
  cases hstep with
  | @proceed _ c c' t tokens hc hadvance =>
    obtain rfl := Option.some.inj (hcommand.symm.trans hc)
    cases hadvance with
    | launch => exact ⟨commands_setCommand hcommand, rfl⟩

/-- The first bus to start leads to a start. -/
theorem Step.of_counting (hstep : Step s (.proceed k) u)
    (hcommand : s.commands[k]? = some (.counting .started)) (hfirst : s.task.startCount = 0) :
    u.commands[k]? = some .starting ∧ u.task.startCount = 1 := by
  cases hstep with
  | @proceed _ c c' t tokens hc hadvance =>
    obtain rfl := Option.some.inj (hcommand.symm.trans hc)
    cases hadvance with
    | count event =>
      rw [commands_setCommand hcommand]
      simp [SendingTask.counted, hfirst, Command.onward, setCommand]

/-- A start in front of a loop does nothing. -/
theorem task_of_starting (hstep : Step s (.proceed k) u)
    (hcommand : s.commands[k]? = some .starting) (hcurrent : s.task.current = some n) :
    u.task = s.task := by
  rw [(hstep.of_starting hcommand).2, SendingTask.start_of_current _ hcurrent]

/-- A start revives the loop unless a dead one is in its place. -/
theorem isRunning_of_starting (hstep : Step s (.proceed k) u)
    (hcommand : s.commands[k]? = some .starting) :
    u.task.isRunning = true ↔ ∀ n, ¬s.Broken n := by
  cases hcurrent : s.task.current with
  | none =>
    refine iff_of_true ?_ fun n hbroken => absurd (hcurrent.symm.trans hbroken.1) nofun
    rw [(hstep.of_starting hcommand).2]
    simp [SendingTask.start, hcurrent, SendingTask.isRunning, SendingTask.forwarder?,
      Forwarder.isEnded]
  | some n =>
    rw [task_of_starting hstep hcommand hcurrent, isRunning_iff]
    constructor
    · rintro ⟨m, hm, halive⟩ m' ⟨hm', hdead⟩
      obtain rfl := Option.some.inj (hm.symm.trans hm')
      exact hdead halive
    · intro hsound
      refine ⟨n, hcurrent, ?_⟩
      by_contra hdead
      exact hsound n ⟨hcurrent, hdead⟩

/-- **A start revives the loop unless a dead one is in its place.**  Whatever buses, callers and
loops do around a task:

* the first bus to start leads to a start;
* when a start returns the task runs, unless the loop in its place has come to its end; then the
  start has done nothing;
* a loop in its place has come to its end exactly if it has done so while it was there, with a live
  token, because it has broken off, could not prepare its repository or was told of a cancellation
  that was not its own, and no stop has taken it out since. -/
theorem revived_unless_broken {settings : OutboxSettings} {inst : String}
    (hrun : Run Step (initial settings inst : Custody β) es s) :
    (∀ (k : Nat) u, s.commands[k]? = some (.counting .started) → s.task.startCount = 0 →
      Step s (.proceed k) u → u.commands[k]? = some .starting ∧ u.task.startCount = 1) ∧
    (∀ (k : Nat) u, s.commands[k]? = some .starting → Step s (.proceed k) u →
      u.commands[k]? = some .started ∧ (u.task.isRunning = true ↔ ∀ n, ¬s.Broken n) ∧
      ∀ n, s.Broken n → u.task = s.task) ∧
    ∀ n, s.Broken n ↔ ∃ ds e rs v w, es = ds ++ e :: rs ∧
      Run Step (initial settings inst) ds v ∧ v.Breaks n e w ∧ Run (Keeps n) w rs s := by
  refine ⟨?_, ?_, fun n => broken_iff hrun⟩
  · intro k u hcommand hfirst hstep
    exact hstep.of_counting hcommand hfirst
  · intro k u hcommand hstep
    refine ⟨(hstep.of_starting hcommand).1, isRunning_of_starting hstep hcommand, ?_⟩
    intro n hbroken
    exact task_of_starting hstep hcommand hbroken.1

/-- A loop breaks off, a stop takes it out of its place, and a bus starts. -/
def cleared : List (Event Unit) :=
  [.start, .proceed 0, .crash 0, .stop, .proceed 1, .proceed 1, .proceed 1,
    .notice .started none (), .proceed 2, .proceed 2]

/-- The bus is about to start the loop. -/
def vacant : Custody Unit :=
  { task := { settings := {}, inst := "worker", buses := [(none, ())], startCount := 1
              forwarders := [{ token := ⟨0⟩, stage := .ended }] }
    tokens := { issued := 1, cancelled := [⟨0⟩] }
    commands := [.started, .stopped (some 0), .starting] }

/-- Behind a stop that has taken the dead loop out, a start brings another one. -/
theorem revived_unless_broken_vacant : ∃ u : Custody Unit,
    Run Step (initial {} "worker") cleared vacant ∧ Step vacant (.proceed 2) u ∧
      u.commands[2]? = some .started ∧ u.task.isRunning = true := by
  have hrun : Run Step (initial {} "worker" : Custody Unit) cleared vacant :=
    .cons .start <|
    .cons (.proceed rfl .launch) <|
    .cons (.crash rfl) <|
    .cons .stop <|
    .cons (.proceed rfl (.take rfl)) <|
    .cons (.proceed rfl (.cancel rfl)) <|
    .cons (.proceed rfl (.await rfl rfl)) <|
    .cons (.notice .started none ()) <|
    .cons (.proceed rfl (.list .started none ())) <|
    .cons (.proceed rfl (.count .started)) (.nil _)
  have hstep : Step vacant (.proceed 2) _ := .proceed rfl .launch
  obtain ⟨-, hstarts, -⟩ := revived_unless_broken hrun
  obtain ⟨hreturned, hrunning, -⟩ := hstarts 2 _ rfl hstep
  exact ⟨_, hrun, hstep, hreturned, hrunning.mpr fun n hbroken => absurd hbroken.1 nofun⟩

/-- The first loop could not prepare its repository, and the task was started again. -/
def unprepared : Custody Unit :=
  { task := { settings := {}, inst := "worker", forwarders := [{ token := ⟨0⟩, stage := .ended }]
              current := some 0 }
    tokens := { issued := 2 }
    commands := [.started, .started] }

/-- **A loop that could not prepare its repository is not replaced.**  The task is started again,
and then the first bus starts; both starts return, and no loop is alive. -/
theorem not_revived : ∃ u : Custody Unit,
    Run Step (initial {} "worker")
      [.start, .proceed 0, .move 0 (.answer (.failed (.repository "down"))), .start, .proceed 1]
      unprepared ∧
    unprepared.commands[1]? = some .started ∧ unprepared.task.isRunning = false ∧
    Run Step unprepared [.notice .started none (), .proceed 2, .proceed 2, .proceed 2] u ∧
    u.commands[2]? = some .started ∧ u.task.startCount = 1 ∧ u.task.isRunning = false := by
  have hrun : Run Step (initial {} "worker" : Custody Unit)
      [.start, .proceed 0, .move 0 (.answer (.failed (.repository "down"))), .start, .proceed 1]
      unprepared :=
    .cons .start <|
    .cons (.proceed rfl .launch) <|
    .cons (.move rfl (.answer "worker" rfl (.failed (.repository "down")))) <|
    .cons .start <|
    .cons (.proceed rfl .launch) (.nil _)
  have hbus : Run Step unprepared [.notice .started none (), .proceed 2, .proceed 2, .proceed 2] _ :=
    .cons (.notice .started none ()) <|
    .cons (.proceed rfl (.list .started none ())) <|
    .cons (.proceed rfl (.count .started)) <|
    .cons (.proceed rfl .launch) (.nil _)
  exact ⟨_, hrun, rfl, rfl, hbus, rfl, rfl, rfl⟩

end Custody
end Courier
