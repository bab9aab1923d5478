import Courier.Proofs.Processor.Conservation

/-!
# Waiting for the background

Somebody who waits for the background looks at it from time to time, and returns when nothing is
pending.  By then every message that was handed on has ended, and its failure was recorded if
nothing was kept when it ended, because a message leaves the background only after that.

Main statement: `conserved_and_drained`.
-/

namespace Courier

namespace Intake

variable {μ : Type} {n : Nat} {s t u v : Intake μ} {c : Call μ} {k : Ticket} {p : Bounded μ}
variable {e : Event μ} {events : List (Event μ)} {ending : Ending}

/-- The message of the call has ended. -/
def Stage.hasSettled : Stage → Bool
  | .dispatched .settled | .dispatched .left | .dispatched .finished => true
  | _ => false

/-- A message ends in one kind of step only. -/
theorem Step.hasSettled (hstep : Step s e u) (hafter : u.isAt Stage.hasSettled k = true) :
    s.isAt Stage.hasSettled k = true ∨ ∃ ending, e = .settle k ending := by
  -- A step that moves a call concerns the ticket `k` only if it moves the call of `k`.
  have hmove : ∀ {t : Ticket} {c : Call μ} {stage : Stage}, s.calls[t]? = some c →
      (s.withStage t c stage).isAt Stage.hasSettled k = true →
      (stage.hasSettled = true → c.stage.hasSettled = true) →
      s.isAt Stage.hasSettled k = true := by
    intro t c stage hcall hafter hkeep
    rw [isAt_withStage hcall] at hafter
    split at hafter
    · next hk => rw [hk, isAt_eq hcall, hkeep hafter]
    · exact hafter
  cases hstep with
  | cancel token => exact .inl hafter
  | call message headers token =>
    refine .inl ?_
    obtain ⟨c, hcall, hstage⟩ := isAt_iff.mp hafter
    rcases getElem?_or_eq_of_concat hcall with hold | rfl
    · exact isAt_iff.mpr ⟨c, hold, hstage⟩
    · cases hstage
  | ask hcall hstage => exact .inl (hmove hcall hafter nofun)
  | resume hcall hstage hgranted => exact .inl (hmove hcall hafter nofun)
  | report hcall hstage => exact .inl (hmove hcall hafter nofun)
  | dispatch hcall hstage => exact .inl (hmove hcall hafter nofun)
  | refuse hcall hwaiting hcancelled => exact .inl (hmove hcall hafter nofun)
  | drop hcall hwaiting => exact .inl (hmove hcall hafter nofun)
  | begin hcall hstage hjob => exact .inl (hmove hcall hafter nofun)
  | @settle c job hcall hstage hjob ending =>
    by_cases hk : k = job.ticket
    · exact .inr ⟨ending, by rw [hk]⟩
    · refine .inl ?_
      have hsame : (s.withStage job.ticket c (.dispatched .settled)).isAt Stage.hasSettled k =
          true := hafter
      rwa [isAt_withStage hcall, if_neg hk] at hsame
  | leave hcall hstage => exact .inl (hmove hcall hafter fun _ => by rw [hstage]; rfl)
  | release hcall hstage => exact .inl (hmove hcall hafter fun _ => by rw [hstage]; rfl)
  | take => exact .inl hafter

/-- What has ended after a run ended in the course of it, or before. -/
theorem exists_settle (hrun : Run Step s events u) (hbefore : s.isAt Stage.hasSettled k = false)
    (hafter : u.isAt Stage.hasSettled k = true) :
    ∃ before ending after x y, events = before ++ .settle k ending :: after ∧
      Run Step s before x ∧ Step x (.settle k ending) y ∧ Run Step y after u := by
  induction hrun with
  | nil s => simp_all
  | @cons s t u e es head tail ih =>
    cases ht : t.isAt Stage.hasSettled k with
    | false =>
      obtain ⟨before, ending, after, x, y, rfl, hx, hstep, hy⟩ := ih ht hafter
      exact ⟨e :: before, ending, after, x, y, rfl, .cons head hx, hstep, hy⟩
    | true =>
      rcases head.hasSettled ht with hearly | ⟨ending, rfl⟩
      · rw [hearly] at hbefore
        cases hbefore
      · exact ⟨[], ending, es, s, t, rfl, .nil s, head, tail⟩

/-- The history grows. -/
theorem Step.moments (hstep : Step s e u) : ∃ new, u.moments = new ++ s.moments := by
  cases hstep with
  | @resume t c hcall hstage hgranted => exact ⟨[.resumed t], rfl⟩
  | @settle c job hcall hstage hjob ending =>
    simp only [afterEnding]
    split
    · exact ⟨[], rfl⟩
    · exact ⟨[_], rfl⟩
  | _ => exact ⟨[], rfl⟩

theorem moments_of_run (hrun : Run Step s events u) : ∃ new, u.moments = new ++ s.moments := by
  refine hrun.invariant (fun u => ∃ new, u.moments = new ++ s.moments) ⟨[], rfl⟩ ?_
  rintro t e u ⟨new, ht⟩ hstep
  obtain ⟨newer, hu⟩ := hstep.moments
  exact ⟨newer ++ new, by rw [hu, ht, List.append_assoc]⟩

/-- A failure that finds nothing kept is recorded when its message ends. -/
theorem Step.recorded (hstep : Step s (.settle k ending) u) (herror : s.processor.error = none)
    (hfailed : s.processor.failed = none) {cause : Failure} {consumer : Option String}
    (hfailure : Bounded.Ending.failure? ending = some (cause, consumer)) :
    ∃ job, job.ticket = k ∧ u.moments = .recorded job cause consumer :: s.moments := by
  cases hstep with
  | @settle c job hcall hstage hjob ending =>
    have hrecorded : s.processor.recorded? ending = some (cause, consumer) := by
      rw [Bounded.recorded?, herror, hfailed, hfailure]
    refine ⟨job, rfl, ?_⟩
    simp only [afterEnding, withStage, hrecorded]

/-- In the course of the events from `s` to `u` the message of a ticket has ended; a failure of it
that found nothing kept is recorded. -/
def Completed (s : Intake μ) (events : List (Event μ)) (u : Intake μ) (k : Ticket) : Prop :=
  ∃ before ending after x y, events = before ++ .settle k ending :: after ∧
    Run Step s before x ∧ Step x (.settle k ending) y ∧ Run Step y after u ∧
    ∀ cause consumer, x.processor.error = none → x.processor.failed = none →
      Bounded.Ending.failure? ending = some (cause, consumer) →
      ∃ later job earlier, job.ticket = k ∧
        u.moments = later ++ .recorded job cause consumer :: earlier

theorem completed_of_settled (hrun : Run Step s events u)
    (hbefore : s.isAt Stage.hasSettled k = false) (hafter : u.isAt Stage.hasSettled k = true) :
    Completed s events u k := by
  obtain ⟨before, ending, after, x, y, hevents, hx, hstep, hy⟩ := exists_settle hrun hbefore hafter
  refine ⟨before, ending, after, x, y, hevents, hx, hstep, hy, ?_⟩
  intro cause consumer herror hfailed hfailure
  obtain ⟨job, hjob, hmoments⟩ := hstep.recorded herror hfailed hfailure
  obtain ⟨new, hnew⟩ := moments_of_run hy
  exact ⟨new, job, x.moments, hjob, by rw [hnew, hmoments]⟩

/-- What is recorded in a state is returned by the first call that goes on after the recording, and
kept until there is one. -/
theorem reported_or_kept (hs : Accounted s) {later earlier : List (Moment μ)} {job : Background μ}
    {cause : Failure} {consumer : Option String}
    (hmoments : s.moments = later ++ .recorded job cause consumer :: earlier)
    (hrun : Run Step s events v) :
    ∃ since, v.moments = since ++ s.moments ∧
      ((since ++ later = [] ∧ v.processor.error = some (cause, consumer)) ∨
        ∃ rest t c, since ++ later = rest ++ [.resumed t] ∧ v.calls[t]? = some c ∧
          c.stage.Reports cause consumer) := by
  have hv : Accounted v := hrun.invariant Accounted hs fun _ _ _ h hstep => h.step hstep
  obtain ⟨since, hsince⟩ := moments_of_run hrun
  have hall : v.moments = (since ++ later) ++ .recorded job cause consumer :: earlier := by
    rw [hsince, hmoments, List.append_assoc]
  exact ⟨since, hsince, hv.reported_of_recorded hall⟩

/-- With nothing pending, every message that was handed on has left the background. -/
theorem Conserved.left_of_drained (h : Conserved n s) (hpause : s.processor.pause? = none)
    (hcall : s.calls[k]? = some c) {work : Work} (hstage : c.stage = .dispatched work) :
    work = .left ∨ work = .finished := by
  have hzero : s.processor.pending = 0 := by
    by_contra hpending
    rw [Bounded.pause?, if_neg hpending] at hpause
    cases hpause
  have hnone : s.count Stage.isPending = 0 := by
    rw [← h.background, ← h.pending, hzero]
  have hquiet := List.countP_eq_zero.mp hnone c (List.mem_of_getElem? hcall)
  rw [hstage] at hquiet
  cases work with
  | left => exact .inl rfl
  | finished => exact .inr rfl
  | _ => exact absurd rfl hquiet

/-- **Permits are conserved, and a wait for the background sees it drained.**  Of a processor with
`n` permits, in every state that callers and background can reach:

* what is pending is the number of messages in the background, which is at most `n`;
* free permits, those of messages that are not finished, and those of calls that have not decided
  yet are `n` together; the last ones belong to different calls, and a call that goes on has one;
* when no message holds a permit nothing is pending, and all permits are free but those of calls
  that have not decided yet;
* when somebody who waits for the background returns, every message that was handed on has ended,
  and its failure is recorded if it found nothing kept;
* what is recorded is kept until a call goes on with a permit, and the first such call returns it. -/
theorem conserved_and_drained (hcreate : Bounded.create n = .ok p)
    (hrun : Run Step (initial p) events s) :
    (s.processor.pending = s.count Stage.isPending ∧ s.processor.pending ≤ n) ∧
    (s.processor.free + s.count Stage.isCarried + s.processor.granted.length = n ∧
      s.processor.granted.Nodup ∧
      (∀ t ∈ s.processor.granted, s.isAt Stage.isUndecided t = true) ∧
      ∀ t, s.isAt Stage.isResumed t = true → t ∈ s.processor.granted) ∧
    (s.count Stage.isCarried = 0 → s.processor.pending = 0 ∧
      s.processor.free + s.processor.granted.length = n ∧
      (s.processor.granted = [] → s.processor.free = n)) ∧
    (s.processor.pause? = none → ∀ t c work, s.calls[t]? = some c →
      c.stage = .dispatched work →
      (work = .left ∨ work = .finished) ∧ Completed (initial p) events s t) ∧
    ∀ later job cause consumer earlier,
      s.moments = later ++ .recorded job cause consumer :: earlier →
      ∀ more v, Run Step s more v → ∃ since, v.moments = since ++ s.moments ∧
        ((since ++ later = [] ∧ v.processor.error = some (cause, consumer)) ∨
          ∃ rest t c, since ++ later = rest ++ [.resumed t] ∧ v.calls[t]? = some c ∧
            c.stage.Reports cause consumer) := by
  obtain ⟨haccounted, h⟩ : Accounted s ∧ Conserved n s := by
    refine hrun.invariant (fun s => Accounted s ∧ Conserved n s)
      ⟨.initial hcreate, .initial hcreate⟩ ?_
    rintro s e u ⟨haccounted, h⟩ hstep
    exact ⟨haccounted.step hstep, h.step haccounted hstep⟩
  have hpending : s.processor.pending = s.count Stage.isPending := h.pending.trans h.background
  have hcarried := count_carried s
  have htotal : s.processor.free + s.count Stage.isCarried + s.processor.granted.length = n := by
    have hpermits := h.permits
    rw [Bounded.permits, h.background] at hpermits
    omega
  refine ⟨⟨hpending, by omega⟩, ⟨htotal, ?_, ?_, h.granted⟩, ?_, ?_, ?_⟩
  · exact h.nodup.sublist (List.sublist_append_left _ _)
  · intro t ht
    exact (h.queued t).mp (List.mem_append_left _ ht)
  · intro hnone
    refine ⟨by omega, by omega, fun hgranted => ?_⟩
    rw [hgranted, List.length_nil] at htotal
    omega
  · intro hpause t c work hcall hstage
    have hleft := h.left_of_drained hpause hcall hstage
    have hsettled : s.isAt Stage.hasSettled t = true := by
      rw [isAt_eq hcall, hstage]
      rcases hleft with rfl | rfl <;> rfl
    exact ⟨hleft, completed_of_settled hrun (by simp [isAt, initial]) hsettled⟩
  · intro later job cause consumer earlier hmoments more v hmore
    exact reported_or_kept haccounted hmoments hmore

/-- A message is handed on and fails, and somebody waits for the background. -/
def draining : List (Event Nat) :=
  [.call 1 [] ⟨0⟩, .ask 0, .resume 0, .dispatch 0, .begin 0,
    .settle 0 (.returned (.failed (.repository "down"))), .leave 0, .release 0]

/-- The wait returns with both permits free, and the next call returns the failure. -/
theorem conserved_and_drained_failing : ∃ s v c, (initial two).run? draining = some s ∧
    s.processor.pause? = none ∧ s.processor.free = 2 ∧ Completed (initial two) draining s 0 ∧
    s.run? [.call 2 [] ⟨1⟩, .ask 1, .resume 1] = some v ∧ v.calls[1]? = some c ∧
    c.stage.Reports (.repository "down") none := by
  generalize hrun : (initial two).run? draining = end?
  have hend : end?.map (fun s => (s.calls, s.processor.pause?, s.count Stage.isCarried,
      s.processor.granted, s.moments)) =
      some ([⟨1, [], ⟨0⟩, .dispatched .finished⟩], none, 0, [],
        [.recorded ⟨0, 1, []⟩ (.repository "down") none, .resumed 0]) := by
    subst hrun
    rfl
  obtain ⟨s, rfl, hparts⟩ := Option.map_eq_some_iff.mp hend
  simp only [Prod.mk.injEq] at hparts
  obtain ⟨hcalls, hpause, hcarried, hgranted, hmoments⟩ := hparts
  obtain ⟨-, -, hfree, hdrained, hreported⟩ :=
    conserved_and_drained (n := 2) rfl (run_of_run? hrun)
  have hcompleted := (hdrained hpause 0 _ .finished (by rw [hcalls]; rfl) rfl).2
  generalize hnext : s.run? [.call 2 [] ⟨1⟩, .ask 1, .resume 1] = next?
  have hmore : next?.map (fun v => v.moments) =
      some [.resumed 1, .recorded ⟨0, 1, []⟩ (.repository "down") none, .resumed 0] := by
    subst hnext
    obtain rfl : s = _ := (Option.some.inj hrun).symm
    rfl
  obtain ⟨v, rfl, hlater⟩ := Option.map_eq_some_iff.mp hmore
  obtain ⟨since, hsince, hreport⟩ := hreported [] _ _ _ [.resumed 0] hmoments _ v (run_of_run? hnext)
  obtain rfl : since = [.resumed 1] := by
    rw [hlater, hmoments] at hsince
    exact (List.append_cancel_right hsince).symm
  rcases hreport with ⟨hnil, -⟩ | ⟨rest, t, c, hlast, hcall, hreports⟩
  · cases hnil
  · obtain rfl : 1 = t := by simpa using congrArg List.getLast? hlast
    exact ⟨s, v, c, rfl, hpause, (hfree hcarried).2.2 hgranted, hcompleted, hnext, hcall, hreports⟩

end Intake
end Courier
