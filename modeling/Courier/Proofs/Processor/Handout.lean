import Courier.Proofs.Processor.Draining

/-!
# Failed messages that are handed out

A failure leaves a processor in two halves: a call returns the failure, and somebody takes the
message.  Neither half waits for the other, and the next failure is recorded only when both have
gone.

`Handout` is an intake with a log, latest first, of what is recorded, which calls go on, what they
return and what is handed out.  `Sound` says what an entry must have before it in the log, and every
later fact is read off sound logs.

Main statements: `orderly_iff_due` (what is handed out, and when this is the message of the failure
that was returned) and `handed_out_early`.
-/

namespace Courier

/-- The message of a failure, with the consumer of the failure. -/
def Background.failed {μ : Type} (job : Background μ) (consumer : Option String) :
    FailedMessage μ :=
  { message := job.message, headers := job.headers, consumer }

namespace Bounded

variable {μ : Type} {p : Bounded μ} {t : Ticket} {job : Background μ} {ending : Ending}

theorem failed_of_create {n : Nat} (hcreate : create n = .ok p) : p.failed = none := by
  unfold create at hcreate
  split at hcreate
  · obtain rfl := Except.ok.inj hcreate
    rfl
  · cases hcreate

@[simp] theorem failed_giveBack : p.giveBack.failed = p.failed := by
  unfold giveBack
  split <;> rfl

@[simp] theorem failed_ask : (p.ask t).failed = p.failed := by
  unfold ask
  split <;> rfl

@[simp] theorem failed_withdraw : (p.withdraw t).failed = p.failed := by
  unfold withdraw
  split <;> simp

@[simp] theorem failed_handBack : (p.handBack t).failed = p.failed := failed_giveBack

/-- A failure is recorded only if no message is kept, and then its own message is. -/
theorem failed_record_of_recorded {cause : Failure} {consumer : Option String}
    (job : Background μ) (h : p.recorded? ending = some (cause, consumer)) :
    p.failed = none ∧ (p.record job ending).failed = some (job.failed consumer) := by
  cases herror : p.error with
  | some failure => simp [recorded?, herror] at h
  | none =>
    cases hfailed : p.failed with
    | some f => simp [recorded?, herror, hfailed] at h
    | none =>
      rw [recorded?, herror, hfailed] at h
      simp only [record, h, herror, hfailed, true_and]
      rfl

theorem failed_record_of_none (h : p.recorded? ending = none) :
    (p.record job ending).failed = p.failed := by
  cases herror : p.error <;> cases hfailed : p.failed <;>
    cases hending : Ending.failure? ending <;>
      simp_all [record, recorded?]

end Bounded

namespace Handout

variable {μ : Type}

/-! ## Logs -/

/-- What callers of a processor see, and what it refers to. -/
inductive Entry (μ : Type)
  /-- A failure was recorded. -/
  | recorded (job : Background μ) (cause : Failure) (consumer : Option String)
  /-- A call went on with a permit. -/
  | resumed (t : Ticket)
  /-- A call has returned a failure. -/
  | returned (t : Ticket) (cause : Failure) (consumer : Option String)
  /-- Somebody asked for a failed message and was given this. -/
  | taken (given : Option (FailedMessage μ))

/-- The entry of a moment. -/
def Entry.ofMoment : Intake.Moment μ → Entry μ
  | .recorded job cause consumer => .recorded job cause consumer
  | .resumed t => .resumed t

/-- The moment of an entry. -/
def Entry.moment? : Entry μ → Option (Intake.Moment μ)
  | .recorded job cause consumer => some (.recorded job cause consumer)
  | .resumed t => some (.resumed t)
  | _ => none

/-- The moments in a log. -/
def moments (log : List (Entry μ)) : List (Intake.Moment μ) := log.filterMap Entry.moment?

/-- Nobody asked for a failed message. -/
def Untaken (since : List (Entry μ)) : Prop := ∀ given, .taken given ∉ since

/-- The call that was the first to go on. -/
def First (t : Ticket) (since : List (Entry μ)) : Prop :=
  (moments since).getLast? = some (.resumed t)

/-- A failure was recorded whose message nobody has asked for since. -/
def Kept (log : List (Entry μ)) (f : FailedMessage μ) : Prop :=
  ∃ since job cause consumer first, log = since ++ .recorded job cause consumer :: first ∧
    Untaken since ∧ f = job.failed consumer

/-- The first call that went on since that failure was recorded has returned it. -/
def Reported (log : List (Entry μ)) (f : FailedMessage μ) : Prop :=
  ∃ since job cause consumer first, log = since ++ .recorded job cause consumer :: first ∧
    Untaken since ∧ f = job.failed consumer ∧
    ∃ t, First t since ∧ .returned t cause consumer ∈ since

/-- A call has returned a failure since somebody last asked for a message. -/
def Told (log : List (Entry μ)) : Prop :=
  ∃ since t cause consumer first, log = since ++ .returned t cause consumer :: first ∧ Untaken since

/-- What a log has before an entry. -/
def Sound (earlier : List (Entry μ)) : Entry μ → Prop
  | .recorded .. => ∀ f, ¬Kept earlier f
  | .resumed _ => True
  | .returned t cause consumer =>
    (∃ since job first, earlier = since ++ .recorded job cause consumer :: first ∧ First t since) ∧
      ∀ cause' consumer', .returned t cause' consumer' ∉ earlier
  | .taken given => ∀ f, given = some f ↔ Kept earlier f

/-- Every entry has before it what it must have. -/
def AllSound (log : List (Entry μ)) : Prop := ∀ x earlier, x :: earlier <:+ log → Sound earlier x

/-- Messages are handed out as failures are returned. -/
structure Orderly (log : List (Entry μ)) : Prop where
  /-- A message is handed out when its failure has been returned. -/
  reported : ∀ f earlier, .taken (some f) :: earlier <:+ log → Reported earlier f
  /-- When a call has returned a failure, the message of this failure is handed out next. -/
  next : ∀ given between t cause consumer earlier,
    .taken given :: between ++ .returned t cause consumer :: earlier <:+ log → Untaken between →
    ∃ since job first, earlier = since ++ .recorded job cause consumer :: first ∧ First t since ∧
      given = some (job.failed consumer)

variable {log since between first earlier : List (Entry μ)} {x : Entry μ} {f g : FailedMessage μ}
variable {job : Background μ} {cause : Failure} {consumer : Option String} {t k : Ticket}
variable {given : Option (FailedMessage μ)}

theorem untaken_append : Untaken (between ++ since) ↔ Untaken between ∧ Untaken since := by
  simp [Untaken, forall_and]

theorem untaken_cons : Untaken (x :: since) ↔ (∀ given, x ≠ .taken given) ∧ Untaken since := by
  simp [Untaken, forall_and, ne_comm]

/-- Somebody was the first to ask. -/
theorem first_taken (h : ¬Untaken since) :
    ∃ later given early, since = later ++ .taken given :: early ∧ Untaken early := by
  induction since with
  | nil => exact absurd nofun h
  | cons x since ih =>
    by_cases hsince : Untaken since
    · have hx : ∃ given, x = .taken given := by
        by_contra hnone
        exact h (untaken_cons.mpr ⟨fun given hx => hnone ⟨given, hx⟩, hsince⟩)
      obtain ⟨given, rfl⟩ := hx
      exact ⟨[], given, since, rfl, hsince⟩
    · obtain ⟨later, given, early, rfl, hearly⟩ := ih hsince
      exact ⟨x :: later, given, early, rfl, hearly⟩

/-- An entry stands in a log before what it had before it. -/
theorem suffix_of_split (later : List (Entry μ)) :
    x :: (since ++ first) <:+ later ++ x :: since ++ first := by
  rw [List.append_assoc]
  exact List.suffix_append _ _

/-- What an entry had before it stands in the log. -/
theorem suffix_behind (h : x :: earlier <:+ log) : earlier <:+ log :=
  (List.suffix_cons x earlier).trans h

theorem First.append (h : First t since) (later : List (Entry μ)) : First t (later ++ since) := by
  rw [First, moments, List.filterMap_append, List.getLast?_append]
  exact congrArg (Option.or · _) h

theorem First.unique (h : First t since) (hk : First k since) : t = k := by
  have heq := Option.some.inj (h.symm.trans hk)
  cases heq
  rfl

theorem not_kept_nil : ¬Kept ([] : List (Entry μ)) f := by
  rintro ⟨since, job, cause, consumer, first, hsplit, -⟩
  simp at hsplit

theorem not_kept_taken : ¬Kept (.taken given :: log) f := by
  rintro ⟨since, job, cause, consumer, first, hsplit, huntaken, -⟩
  cases since with
  | nil => cases hsplit
  | cons y since =>
    obtain ⟨rfl, -⟩ := List.cons.inj hsplit
    exact huntaken given List.mem_cons_self

theorem kept_recorded (hnone : ∀ f, ¬Kept log f) :
    Kept (.recorded job cause consumer :: log) f ↔ f = job.failed consumer := by
  constructor
  · rintro ⟨since, job', cause', consumer', first, hsplit, huntaken, rfl⟩
    cases since with
    | nil =>
      cases hsplit
      rfl
    | cons y since =>
      obtain ⟨-, rfl⟩ := List.cons.inj hsplit
      exact absurd ⟨_, _, _, _, _, rfl, (untaken_cons.mp huntaken).2, rfl⟩ (hnone _)
  · rintro rfl
    exact ⟨[], _, _, _, _, rfl, nofun, rfl⟩

theorem kept_cons (htaken : ∀ given, x ≠ .taken given)
    (hrecorded : ∀ job cause consumer, x ≠ .recorded job cause consumer) :
    Kept (x :: log) f ↔ Kept log f := by
  constructor
  · rintro ⟨since, job, cause, consumer, first, hsplit, huntaken, hf⟩
    cases since with
    | nil => exact absurd (List.cons.inj hsplit).1 (hrecorded job cause consumer)
    | cons y since =>
      obtain ⟨-, rfl⟩ := List.cons.inj hsplit
      exact ⟨since, job, cause, consumer, first, rfl, (untaken_cons.mp huntaken).2, hf⟩
  · rintro ⟨since, job, cause, consumer, first, rfl, huntaken, hf⟩
    exact ⟨x :: since, job, cause, consumer, first, rfl, untaken_cons.mpr ⟨htaken, huntaken⟩, hf⟩

theorem allSound_cons : AllSound (x :: log) ↔ Sound log x ∧ AllSound log := by
  constructor
  · exact fun h => ⟨h x log List.suffix_rfl,
      fun y earlier hy => h y earlier (hy.trans (List.suffix_cons x log))⟩
  · rintro ⟨hx, hlog⟩ y earlier hy
    rcases List.suffix_cons_iff.mp hy with heq | hold
    · obtain ⟨rfl, rfl⟩ := List.cons.inj heq
      exact hx
    · exact hlog y earlier hold

theorem AllSound.suffix (h : AllSound log) (hsuffix : earlier <:+ log) : AllSound earlier :=
  fun x first hx => h x first (hx.trans hsuffix)

/-! ## What is kept -/

/-- Nothing is recorded while a message is kept, so no recording that is still kept is older than
another one. -/
theorem AllSound.since_le {since' first' : List (Entry μ)} {job' : Background μ} {cause' : Failure}
    {consumer' : Option String} (h : AllSound (since ++ .recorded job cause consumer :: first))
    (huntaken : Untaken since')
    (hsplit : since ++ .recorded job cause consumer :: first =
      since' ++ .recorded job' cause' consumer' :: first') :
    since'.length ≤ since.length := by
  rcases List.append_eq_append_iff.mp hsplit with ⟨rest, rfl, hrest⟩ | ⟨rest, rfl, -⟩
  · cases rest with
    | nil => simp
    | cons x rest =>
      obtain ⟨rfl, rfl⟩ := List.cons.inj hrest
      have hnone := h _ _ (List.suffix_append _ _)
      obtain ⟨-, hrest'⟩ := untaken_append.mp huntaken
      exact absurd ⟨_, _, _, _, _, rfl, (untaken_cons.mp hrest').2, rfl⟩ (hnone _)
  · simp

/-- One recording at most is kept. -/
theorem AllSound.split_unique {since' first' : List (Entry μ)} {job' : Background μ}
    {cause' : Failure} {consumer' : Option String}
    (h : AllSound (since ++ .recorded job cause consumer :: first)) (huntaken : Untaken since)
    (huntaken' : Untaken since')
    (hsplit : since ++ .recorded job cause consumer :: first =
      since' ++ .recorded job' cause' consumer' :: first') :
    since = since' ∧ job = job' ∧ cause = cause' ∧ consumer = consumer' := by
  have hlength : since.length = since'.length :=
    Nat.le_antisymm ((hsplit ▸ h).since_le huntaken hsplit.symm) (h.since_le huntaken' hsplit)
  obtain ⟨hsince, hrecorded⟩ := List.append_inj hsplit hlength
  cases hrecorded
  exact ⟨hsince, rfl, rfl, rfl⟩

theorem AllSound.kept_iff (h : AllSound (since ++ .recorded job cause consumer :: first))
    (huntaken : Untaken since) :
    Kept (since ++ .recorded job cause consumer :: first) f ↔ f = job.failed consumer := by
  constructor
  · rintro ⟨since', job', cause', consumer', first', hsplit, huntaken', rfl⟩
    obtain ⟨-, rfl, -, rfl⟩ := h.split_unique huntaken huntaken' hsplit
    rfl
  · rintro rfl
    exact ⟨since, job, cause, consumer, first, rfl, huntaken, rfl⟩

theorem Reported.kept (h : Reported log f) : Kept log f := by
  obtain ⟨since, job, cause, consumer, first, hsplit, huntaken, hf, -⟩ := h
  exact ⟨since, job, cause, consumer, first, hsplit, huntaken, hf⟩

theorem Reported.told (h : Reported log f) : Told log := by
  obtain ⟨since, job, cause, consumer, first, rfl, huntaken, -, t, -, hreturned⟩ := h
  obtain ⟨later, early, rfl⟩ := List.append_of_mem hreturned
  exact ⟨later, t, cause, consumer, early ++ .recorded job cause consumer :: first, by simp,
    (untaken_append.mp huntaken).1⟩

theorem Reported.cons (h : Reported log f) (hx : ∀ given, x ≠ .taken given) :
    Reported (x :: log) f := by
  obtain ⟨since, job, cause, consumer, first, rfl, huntaken, hf, t, hfirst, hreturned⟩ := h
  exact ⟨x :: since, job, cause, consumer, first, rfl, untaken_cons.mpr ⟨hx, huntaken⟩, hf, t,
    hfirst.append [x], List.mem_cons_of_mem x hreturned⟩

theorem AllSound.kept_unique (h : AllSound log) (hf : Kept log f) (hg : Kept log g) : f = g := by
  obtain ⟨since, job, cause, consumer, first, rfl, huntaken, rfl⟩ := hf
  exact ((h.kept_iff huntaken).mp hg).symm

theorem AllSound.reported_of_kept (h : AllSound log) (hg : Reported log g) (hf : Kept log f) :
    Reported log f :=
  h.kept_unique hf hg.kept ▸ hg

/-- What is handed out first after a recording is its message. -/
theorem AllSound.given_eq
    (h : AllSound (.taken given :: since ++ .recorded job cause consumer :: first))
    (huntaken : Untaken since) : given = some (job.failed consumer) := by
  obtain ⟨hgiven, hrest⟩ := allSound_cons.mp h
  exact (hgiven _).mpr ((hrest.kept_iff huntaken).mpr rfl)

/-- If somebody has asked since a recording, the first who did was given its message. -/
theorem AllSound.first_given (h : AllSound (since ++ .recorded job cause consumer :: first))
    (htaken : ¬Untaken since) :
    ∃ later early, since = later ++ .taken (some (job.failed consumer)) :: early ∧
      Untaken early := by
  obtain ⟨later, given, early, rfl, hearly⟩ := first_taken htaken
  obtain rfl := (h.suffix (suffix_of_split later)).given_eq hearly
  exact ⟨later, early, rfl, hearly⟩

/-! ## Returned and handed out -/

/-- If the message of a failure is still kept when the failure is returned, it is what is handed out
next. -/
theorem AllSound.given_of_returned
    (h : AllSound (.taken given :: between ++
      .returned t cause consumer :: (since ++ .recorded job cause consumer :: first)))
    (hbetween : Untaken between) (hsince : Untaken since) : given = some (job.failed consumer) := by
  have hall : Untaken (between ++ .returned t cause consumer :: since) :=
    untaken_append.mpr ⟨hbetween, untaken_cons.mpr ⟨nofun, hsince⟩⟩
  have hsplit : .taken given :: between ++
      .returned t cause consumer :: (since ++ .recorded job cause consumer :: first) =
      .taken given :: (between ++ .returned t cause consumer :: since) ++
        .recorded job cause consumer :: first := by simp
  exact (hsplit ▸ h).given_eq hall

/-- If messages are handed out only when their failures have been returned, the message of a failure
is still kept when this failure is returned. -/
theorem AllSound.untaken_of_returned
    (h : AllSound (.returned t cause consumer :: (since ++ .recorded job cause consumer :: first)))
    (hfirst : First t since)
    (hreported : ∀ f early, .taken (some f) :: early <:+
      since ++ .recorded job cause consumer :: first → Reported early f) :
    Untaken since := by
  obtain ⟨⟨-, honce⟩, hsound⟩ := allSound_cons.mp h
  by_contra htaken
  obtain ⟨later, early, rfl, hearly⟩ := hsound.first_given htaken
  -- its message was handed out after the same call had returned
  obtain ⟨since', job', cause', consumer', first', hsplit, huntaken', -, k, hk, hreturned⟩ :=
    hreported _ _ (suffix_of_split later)
  have hearlier := hsound.suffix (suffix_behind (suffix_of_split later))
  obtain ⟨rfl, -⟩ := hearlier.split_unique hearly huntaken' hsplit
  obtain rfl : t = k := by
    refine First.unique hfirst ?_
    rw [List.append_cons]
    exact hk.append _
  exact honce cause' consumer' (by simp [hreturned])

theorem AllSound.reported_of_returned (h : AllSound (.returned t cause consumer :: log))
    (hreported : ∀ f early, .taken (some f) :: early <:+ log → Reported early f) :
    ∃ f, Reported (.returned t cause consumer :: log) f := by
  obtain ⟨⟨⟨since, job, first, rfl, hfirst⟩, -⟩, -⟩ := allSound_cons.mp h
  have huntaken := h.untaken_of_returned hfirst hreported
  exact ⟨_, .returned t cause consumer :: since, job, cause, consumer, first, rfl,
    untaken_cons.mpr ⟨nofun, huntaken⟩, rfl, t, hfirst.append [_], List.mem_cons_self⟩

theorem told_cons (h : Told (x :: log)) :
    (∀ given, x ≠ .taken given) ∧
      ((∃ t cause consumer, x = .returned t cause consumer) ∨ Told log) := by
  obtain ⟨since, t, cause, consumer, first, hsplit, huntaken⟩ := h
  cases since with
  | nil =>
    obtain ⟨rfl, -⟩ := List.cons.inj hsplit
    exact ⟨nofun, .inl ⟨t, cause, consumer, rfl⟩⟩
  | cons y since =>
    obtain ⟨rfl, rfl⟩ := List.cons.inj hsplit
    obtain ⟨hx, hsince⟩ := untaken_cons.mp huntaken
    exact ⟨hx, .inr ⟨since, t, cause, consumer, first, rfl, hsince⟩⟩

/-- If messages are handed out only when some failure has been returned, a failure that was returned
since is the one whose message is kept. -/
theorem AllSound.reported_of_told (h : AllSound log)
    (htold : ∀ f earlier, .taken (some f) :: earlier <:+ log → Told earlier) :
    ∀ early, early <:+ log → Told early → ∃ f, Reported early f := by
  induction log with
  | nil =>
    rintro early hearly ⟨since, t, cause, consumer, first, rfl, -⟩
    simp at hearly
  | cons x log ih =>
    have hlog := (allSound_cons.mp h).2
    have ih := ih hlog fun f earlier hsuffix =>
      htold f earlier (hsuffix.trans (List.suffix_cons x log))
    intro early hearly htoldEarly
    rcases List.suffix_cons_iff.mp hearly with rfl | hold
    · obtain ⟨hnottaken, ⟨t, cause, consumer, rfl⟩ | htoldlog⟩ := told_cons htoldEarly
      · -- whatever was handed out before had its failure returned
        refine h.reported_of_returned fun f early hsuffix => ?_
        have htoldEarly := htold f early (hsuffix.trans (List.suffix_cons _ log))
        obtain ⟨g, hg⟩ := ih early (suffix_behind hsuffix) htoldEarly
        have hsound := hlog.suffix (suffix_behind hsuffix)
        exact hsound.reported_of_kept hg ((hlog _ _ hsuffix f).mp rfl)
      · obtain ⟨f, hf⟩ := ih log List.suffix_rfl htoldlog
        exact ⟨f, hf.cons hnottaken⟩
    · exact ih early hold htoldEarly

/-- Messages are handed out as failures are returned exactly if nobody is given a message before a
failure has been returned since somebody last asked. -/
theorem AllSound.orderly_iff (h : AllSound log) :
    Orderly log ↔ ∀ f earlier, .taken (some f) :: earlier <:+ log → Told earlier := by
  refine ⟨fun horderly f earlier hsuffix => (horderly.reported f earlier hsuffix).told, ?_⟩
  intro htold
  have hreported : ∀ f earlier, .taken (some f) :: earlier <:+ log → Reported earlier f := by
    intro f earlier hsuffix
    have hearlier := suffix_behind hsuffix
    obtain ⟨g, hg⟩ := h.reported_of_told htold earlier hearlier (htold f earlier hsuffix)
    exact (h.suffix hearlier).reported_of_kept hg ((h _ _ hsuffix f).mp rfl)
  refine ⟨hreported, ?_⟩
  intro given between t cause consumer earlier hsuffix hbetween
  have hreturned : .returned t cause consumer :: earlier <:+ log :=
    (List.suffix_append _ _).trans hsuffix
  obtain ⟨⟨since, job, first, rfl, hfirst⟩, -⟩ := h _ _ hreturned
  have hsince : Untaken since := by
    refine (h.suffix hreturned).untaken_of_returned hfirst fun f early hearly => ?_
    exact hreported f early (hearly.trans (suffix_behind hreturned))
  exact ⟨since, job, first, rfl, hfirst, (h.suffix hsuffix).given_of_returned hbetween hsince⟩

end Handout

/-! ## Steps -/

namespace Intake

variable {μ : Type} {s u : Intake μ} {e : Event μ} {k : Ticket}

/-- The call has returned the failure of an earlier message. -/
def Stage.hasReported : Stage → Bool
  | .reported .. => true
  | _ => false

/-- A call that has returned a failure stays where it is. -/
theorem Step.hasReported (hstep : Step s e u) (h : s.isAt Stage.hasReported k = true) :
    u.isAt Stage.hasReported k = true := by
  have hmove : ∀ {t : Ticket} {c : Call μ} {stage : Stage}, s.calls[t]? = some c →
      c.stage.hasReported = false → (s.withStage t c stage).isAt Stage.hasReported k = true := by
    intro t c stage hcall hother
    have hk : k ≠ t := by
      rintro rfl
      rw [isAt_eq hcall, hother] at h
      cases h
    rwa [isAt_withStage hcall, if_neg hk]
  have hwaiting : ∀ {stage : Stage}, stage.isWaiting = true → stage.hasReported = false := by
    intro stage hstage
    cases stage <;> simp_all [Stage.isWaiting, Stage.hasReported]
  cases hstep with
  | cancel token => exact h
  | call message headers token =>
    obtain ⟨c, hcall, hstage⟩ := isAt_iff.mp h
    have hlt := (List.getElem?_eq_some_iff.mp hcall).1
    exact isAt_iff.mpr ⟨c, (List.getElem?_append_left hlt).trans hcall, hstage⟩
  | ask hcall hstage => exact hmove hcall (by rw [hstage]; rfl)
  | resume hcall hstage hgranted => exact hmove hcall (by rw [hstage]; rfl)
  | report hcall hstage => exact hmove hcall (by rw [hstage]; rfl)
  | dispatch hcall hstage => exact hmove hcall (by rw [hstage]; rfl)
  | refuse hcall hstage hcancelled => exact hmove hcall (hwaiting hstage)
  | drop hcall hstage => exact hmove hcall (hwaiting hstage)
  | begin hcall hstage hjob => exact hmove hcall (by rw [hstage]; rfl)
  | settle hcall hstage hjob ending => exact hmove hcall (by rw [hstage]; rfl)
  | leave hcall hstage => exact hmove hcall (by rw [hstage]; rfl)
  | release hcall hstage => exact hmove hcall (by rw [hstage]; rfl)
  | take => exact h

end Intake

/-- An intake with what is recorded, returned and handed out, latest first. -/
structure Handout (μ : Type) where
  intake : Intake μ
  log : List (Handout.Entry μ) := []

namespace Handout

variable {μ : Type}

/-- A processor that nobody has called. -/
def initial (p : Bounded μ) : Handout μ := { intake := .initial p }

/-- The message that would be handed out. -/
def kept (s : Handout μ) : Option (FailedMessage μ) := s.intake.processor.failed

/-- What somebody is told when this happens. -/
def answered (s : Handout μ) : Intake.Event μ → List (Entry μ)
  | .report t =>
    match (s.intake.calls[t]?).map Intake.Call.stage with
    | some (.resumed (some (cause, consumer))) => [.returned t cause consumer]
    | _ => []
  | .take => [.taken s.intake.processor.takeFailure.2]
  | _ => []

/-- One step of an intake, with what it adds to the log. -/
structure Step (s : Handout μ) (e : Intake.Event μ) (u : Handout μ) : Prop where
  intake : Intake.Step s.intake e u.intake
  log : ∃ news, u.intake.moments = news ++ s.intake.moments ∧
    u.log = s.answered e ++ news.map .ofMoment ++ s.log

/-- If a message is handed out now, a failure has been returned since somebody last asked. -/
def Due (s : Handout μ) : Prop := s.kept = none ∨ Told s.log

variable {s u : Handout μ} {e : Intake.Event μ} {es : List (Intake.Event μ)} {p : Bounded μ}
variable {n : Nat}

/-- What a step can do to the log and to the message that is kept. -/
inductive Effect (s : Handout μ) (e : Intake.Event μ) (u : Handout μ) : Prop
  | quiet (hlog : u.log = s.log) (hkept : u.kept = s.kept)
  | recorded {job : Background μ} {cause : Failure} {consumer : Option String}
      (hnone : s.kept = none) (hlog : u.log = .recorded job cause consumer :: s.log)
      (hkept : u.kept = some (job.failed consumer))
  | resumed {t : Ticket} (hlog : u.log = .resumed t :: s.log) (hkept : u.kept = s.kept)
  | returned {t : Ticket} {cause : Failure} {consumer : Option String}
      (hfound : s.intake.found? t = some (some (cause, consumer)))
      (hbefore : s.intake.isAt Intake.Stage.hasReported t = false)
      (hafter : u.intake.isAt Intake.Stage.hasReported t = true)
      (hlog : u.log = .returned t cause consumer :: s.log) (hkept : u.kept = s.kept)
  | taken (he : e = .take) (hlog : u.log = .taken s.kept :: s.log) (hkept : u.kept = none)

theorem Effect.of_same (hstep : s.Step e u) (hanswered : s.answered e = [])
    (hmoments : u.intake.moments = s.intake.moments) (hkept : u.kept = s.kept) : Effect s e u := by
  obtain ⟨news, hnews, hlog⟩ := hstep.log
  obtain rfl : news = [] := List.self_eq_append_left.mp (hmoments.symm.trans hnews)
  exact .quiet (by simpa [hanswered] using hlog) hkept

/-- Every step does one of these. -/
theorem Step.effect (hstep : s.Step e u) : Effect s e u := by
  obtain ⟨news, hnews, hlog⟩ := hstep.log
  have hintake := hstep.intake
  generalize hnext : u.intake = v at hintake
  have hkept : u.kept = v.processor.failed := by rw [kept, hnext]
  rw [hnext] at hnews
  cases hintake with
  | ask hcall hstage => exact .of_same hstep rfl (hnext ▸ rfl) (hkept.trans Bounded.failed_ask)
  | @resume t c hcall hstage hgranted =>
    obtain rfl : [.resumed t] = news := List.append_cancel_right hnews
    exact .resumed hlog hkept
  | @report t c cause consumer hcall hstage =>
    obtain rfl : [] = news := List.append_cancel_right hnews
    have hanswered : s.answered (.report t) = [.returned t cause consumer] := by
      simp [answered, hcall, hstage]
    refine .returned ?_ ?_ ?_ (by simpa [hanswered] using hlog)
      (hkept.trans Bounded.failed_handBack)
    · rw [Intake.found?_eq hcall, hstage]
      rfl
    · rw [Intake.isAt_eq hcall, hstage]
      rfl
    · rw [hnext]
      exact (Intake.isAt_withStage hcall _ _ t).trans (if_pos rfl)
  | refuse hcall hwaiting hcancelled =>
    exact .of_same hstep rfl (hnext ▸ rfl) (hkept.trans Bounded.failed_withdraw)
  | drop hcall hwaiting =>
    exact .of_same hstep rfl (hnext ▸ rfl) (hkept.trans Bounded.failed_withdraw)
  | @settle c job hcall hstage hjob ending =>
    cases hrecorded : s.intake.processor.recorded? ending with
    | none =>
      have hkept' := hkept.trans (Bounded.failed_record_of_none hrecorded)
      exact .of_same hstep rfl (by simp [hnext, Intake.afterEnding, Intake.withStage, hrecorded])
        hkept'
    | some failure =>
      obtain ⟨cause, consumer⟩ := failure
      obtain ⟨hnone, hsome⟩ := Bounded.failed_record_of_recorded job hrecorded
      rw [Intake.afterEnding] at hnews
      simp only [Intake.withStage, hrecorded] at hnews
      obtain rfl : [.recorded job cause consumer] = news := List.append_cancel_right hnews
      exact .recorded hnone hlog (hkept.trans hsome)
  | release hcall hstage =>
    exact .of_same hstep rfl (hnext ▸ rfl) (hkept.trans Bounded.failed_giveBack)
  | take =>
    obtain rfl : [] = news := List.append_cancel_right hnews
    exact .taken rfl hlog hkept
  | _ => exact .of_same hstep rfl (hnext ▸ rfl) hkept

/-! ## Every log is sound -/

/-- The log agrees with the intake. -/
structure Recounted (s : Handout μ) : Prop where
  accounted : Intake.Accounted s.intake
  remembered : moments s.log = s.intake.moments
  kept : ∀ f, s.kept = some f ↔ Kept s.log f
  sound : AllSound s.log
  /-- A call that has returned a failure does not return again. -/
  returned : ∀ t cause consumer, .returned t cause consumer ∈ s.log →
    s.intake.isAt Intake.Stage.hasReported t = true

theorem Recounted.initial (hcreate : Bounded.create n = .ok p) : Recounted (initial p) where
  accounted := .initial hcreate
  remembered := rfl
  kept f := by
    have hnone : p.failed = none := Bounded.failed_of_create hcreate
    simp [Handout.kept, Handout.initial, Intake.initial, hnone, not_kept_nil]
  sound x earlier hsuffix := by simp [Handout.initial] at hsuffix
  returned := nofun

/-- Moments of the intake are entries of the log. -/
theorem split_of_moments {later earlier : List (Intake.Moment μ)} {job : Background μ}
    {cause : Failure} {consumer : Option String} {t : Ticket} {log : List (Entry μ)}
    (h : moments log = later ++ .resumed t :: .recorded job cause consumer :: earlier) :
    ∃ since first, log = since ++ .recorded job cause consumer :: first ∧ First t since := by
  rw [List.append_cons] at h
  obtain ⟨upper, lower, rfl, hupper, hlower⟩ := List.filterMap_eq_append_iff.mp h
  obtain ⟨quiet, x, first, rfl, hquiet, hx, -⟩ := List.filterMap_eq_cons_iff.mp hlower
  obtain rfl : x = .recorded job cause consumer := by
    cases x <;> simp_all [Entry.moment?]
  refine ⟨upper ++ quiet, first, by simp, ?_⟩
  have hnone : List.filterMap Entry.moment? quiet = [] := List.filterMap_eq_nil_iff.mpr hquiet
  simp [First, moments, hupper, hnone]

theorem moments_map_ofMoment (news : List (Intake.Moment μ)) :
    moments (news.map .ofMoment) = news := by
  induction news with
  | nil => rfl
  | cons m news ih => cases m <;> exact congrArg _ ih

/-- What somebody is told is no moment. -/
theorem moments_answered : moments (s.answered e) = [] := by
  cases e with
  | report t =>
    simp only [answered]
    split <;> rfl
  | _ => rfl

theorem Recounted.remembered_step (h : Recounted s) (hstep : s.Step e u) :
    moments u.log = u.intake.moments := by
  obtain ⟨news, hnews, hlog⟩ := hstep.log
  have hsplit : moments u.log =
      moments (s.answered e) ++ moments (news.map .ofMoment) ++ moments s.log := by
    rw [hlog]
    simp [moments]
  rw [hsplit, moments_answered, moments_map_ofMoment, h.remembered, hnews, List.nil_append]

/-- A log with one more entry. -/
theorem Recounted.cons {x : Entry μ} (h : Recounted s) (hstep : s.Step e u)
    (hlog : u.log = x :: s.log) (hsound : Sound s.log x)
    (hkept : ∀ f, u.kept = some f ↔ Kept (x :: s.log) f)
    (hreturned : ∀ t cause consumer, x = .returned t cause consumer →
      u.intake.isAt Intake.Stage.hasReported t = true) : Recounted u where
  accounted := h.accounted.step hstep.intake
  remembered := h.remembered_step hstep
  kept := hlog ▸ hkept
  sound := hlog ▸ allSound_cons.mpr ⟨hsound, h.sound⟩
  returned := by
    rw [hlog]
    intro t cause consumer hmem
    rcases List.mem_cons.mp hmem with hnew | hold
    · exact hreturned t cause consumer hnew.symm
    · exact hstep.intake.hasReported (h.returned t cause consumer hold)

/-- **Every step keeps the log sound.** -/
theorem Recounted.step (h : Recounted s) (hstep : s.Step e u) : Recounted u := by
  cases hstep.effect with
  | quiet hlog hkept =>
    refine ⟨h.accounted.step hstep.intake, h.remembered_step hstep, ?_, hlog ▸ h.sound, ?_⟩
    · rw [hlog, hkept]
      exact h.kept
    · rw [hlog]
      exact fun t cause consumer hmem => hstep.intake.hasReported (h.returned t cause consumer hmem)
  | @recorded job cause consumer hnone hlog hkept =>
    have hempty : ∀ f, ¬Kept s.log f := fun f hf =>
      absurd (hnone.symm.trans ((h.kept f).mpr hf)) nofun
    refine h.cons hstep hlog hempty (fun f => ?_) nofun
    rw [hkept, kept_recorded hempty, Option.some.injEq, eq_comm]
  | @resumed t hlog hkept =>
    refine h.cons hstep hlog trivial (fun f => ?_) nofun
    rw [hkept, kept_cons (x := .resumed t) nofun nofun]
    exact h.kept f
  | @returned t cause consumer hfound hbefore hafter hlog hkept =>
    obtain ⟨later, job, earlier, hsplit⟩ :=
      Intake.split_of_keptFor ((h.accounted.found t).symm.trans hfound)
    obtain ⟨since, first, hsince, hfirst⟩ := split_of_moments (h.remembered.trans hsplit)
    have honce : ∀ cause' consumer', .returned t cause' consumer' ∉ s.log := by
      intro cause' consumer' hmem
      exact absurd (hbefore.symm.trans (h.returned t cause' consumer' hmem)) nofun
    refine h.cons hstep hlog ⟨⟨since, job, first, hsince, hfirst⟩, honce⟩ (fun f => ?_) ?_
    · rw [hkept, kept_cons (x := .returned t cause consumer) nofun nofun]
      exact h.kept f
    · rintro k cause' consumer' heq
      cases heq
      exact hafter
  | taken he hlog hkept =>
    refine h.cons hstep hlog h.kept (fun f => ?_) nofun
    rw [hkept]
    exact ⟨nofun, fun hf => absurd hf not_kept_taken⟩

/-! ## Whoever asks in time -/

theorem Step.log_suffix (hstep : s.Step e u) : s.log <:+ u.log := by
  obtain ⟨news, -, hlog⟩ := hstep.log
  exact hlog ▸ List.suffix_append _ _

theorem log_suffix_of_run (hrun : Run Step s es u) : s.log <:+ u.log :=
  hrun.invariant (fun u => s.log <:+ u.log) List.suffix_rfl fun _ _ _ h hstep =>
    h.trans hstep.log_suffix

/-- What is handed out is in the log. -/
theorem Step.log_take (hstep : s.Step .take u) : u.log = .taken s.kept :: s.log := by
  obtain ⟨news, hnews, hlog⟩ := hstep.log
  have hintake := hstep.intake
  generalize u.intake = v at hintake hnews
  cases hintake with
  | take =>
    obtain rfl : [] = news := List.append_cancel_right hnews
    exact hlog

theorem run_due (hrun : Run Step s es u)
    (htold : ∀ f earlier, .taken (some f) :: earlier <:+ u.log → Told earlier) :
    Run (fun s e u => s.Step e u ∧ (e = .take → s.Due)) s es u := by
  induction hrun with
  | nil s => exact .nil s
  | @cons s t u e es head tail ih =>
    refine .cons ⟨head, ?_⟩ (ih htold)
    rintro rfl
    cases hkept : s.kept with
    | none => exact .inl hkept
    | some f =>
      refine .inr (htold f s.log ?_)
      rw [← hkept, ← head.log_take]
      exact log_suffix_of_run tail

theorem told_of_due
    (hrun : Run (fun s e u => s.Step e u ∧ (e = .take → s.Due)) (initial p) es u) :
    ∀ f earlier, .taken (some f) :: earlier <:+ u.log → Told earlier := by
  refine hrun.invariant (fun u => ∀ f earlier, .taken (some f) :: earlier <:+ u.log → Told earlier)
    (fun f earlier hsuffix => by simp [initial] at hsuffix) ?_
  rintro s e u htold ⟨hstep, hdue⟩ f earlier hsuffix
  have hcons : ∀ {x : Entry μ}, u.log = x :: s.log → (x = .taken (some f) → Told s.log) →
      Told earlier := by
    intro x hlog hx
    rw [hlog] at hsuffix
    rcases List.suffix_cons_iff.mp hsuffix with hnew | hold
    · obtain ⟨rfl, rfl⟩ := List.cons.inj hnew
      exact hx rfl
    · exact htold f earlier hold
  cases hstep.effect with
  | quiet hlog hkept => exact htold f earlier (hlog ▸ hsuffix)
  | recorded hnone hlog hkept => exact hcons hlog nofun
  | resumed hlog hkept => exact hcons hlog nofun
  | returned hfound hbefore hafter hlog hkept => exact hcons hlog nofun
  | taken he hlog hkept =>
    refine hcons hlog fun hgiven => (hdue he).resolve_left fun hnone => ?_
    rw [hnone] at hgiven
    cases hgiven

/-- **A failed message is handed out after its failure exactly if nobody is given one before some
failure was returned.**  Whatever callers and background do in between:

* what is handed out is the message, the headers and the consumer of the failure that was recorded
  since somebody last asked, and nothing if there is none;
* a failure that a call returns was recorded before this call was the first to go on; if nobody has
  asked for a message since, the one of this failure is handed out next, and otherwise it was handed
  out to the first who asked;
* every message that was handed out had its failure returned before, and every failure that was
  returned had its message handed out next, exactly if nobody was given a message unless a failure
  had been returned since somebody last asked. -/
theorem orderly_iff_due (hcreate : Bounded.create n = .ok p) (hrun : Run Step (initial p) es s) :
    (∀ given earlier, .taken given :: earlier <:+ s.log → ∀ f, given = some f ↔ Kept earlier f) ∧
    (∀ t cause consumer earlier, .returned t cause consumer :: earlier <:+ s.log →
      ∃ since job first, earlier = since ++ .recorded job cause consumer :: first ∧
        First t since ∧
        ((Untaken since ∧ ∀ given between,
          .taken given :: between ++ .returned t cause consumer :: earlier <:+ s.log →
          Untaken between → given = some (job.failed consumer)) ∨
        ∃ later early, since = later ++ .taken (some (job.failed consumer)) :: early ∧
          Untaken early)) ∧
    (Orderly s.log ↔ Run (fun s e u => s.Step e u ∧ (e = .take → s.Due)) (initial p) es s) := by
  have h : Recounted s :=
    hrun.invariant Recounted (.initial hcreate) fun _ _ _ h hstep => h.step hstep
  refine ⟨fun given earlier hsuffix => h.sound _ _ hsuffix, ?_, ?_⟩
  · intro t cause consumer earlier hsuffix
    obtain ⟨⟨since, job, first, rfl, hfirst⟩, -⟩ := h.sound _ _ hsuffix
    refine ⟨since, job, first, rfl, hfirst, ?_⟩
    by_cases hsince : Untaken since
    · refine .inl ⟨hsince, fun given between htaken hbetween => ?_⟩
      exact (h.sound.suffix htaken).given_of_returned hbetween hsince
    · exact .inr ((h.sound.suffix (suffix_behind hsuffix)).first_given hsince)
  · rw [h.sound.orderly_iff]
    exact ⟨run_due hrun, told_of_due⟩

/-! ## Runs by computation -/

/-- A step as a computation. -/
def step? (s : Handout μ) (e : Intake.Event μ) : Option (Handout μ) :=
  (s.intake.step? e).map fun v =>
    { intake := v
      log := s.answered e ++
        (v.moments.take (v.moments.length - s.intake.moments.length)).map .ofMoment ++ s.log }

/-- The state that a list of events leads to. -/
def run? (s : Handout μ) : List (Intake.Event μ) → Option (Handout μ)
  | [] => some s
  | e :: es => (s.step? e).bind fun u => u.run? es

theorem Step.of_step? (h : s.step? e = some u) : s.Step e u := by
  obtain ⟨v, hstep, rfl⟩ := Option.map_eq_some_iff.mp h
  have hintake := Intake.Step.of_step? hstep
  obtain ⟨news, hnews⟩ := hintake.moments
  exact ⟨hintake, news, hnews, by simp [hnews]⟩

theorem run_of_run? (h : s.run? es = some u) : Run Step s es u := by
  induction es generalizing s with
  | nil =>
    obtain rfl := Option.some.inj h
    exact .nil s
  | cons e es ih =>
    obtain ⟨t, hstep, hrest⟩ := Option.bind_eq_some_iff.mp h
    exact .cons (.of_step? hstep) (ih hrest)

/-- A message fails. -/
def fails : List (Intake.Event Nat) :=
  [.call 1 [("Trace", "t1")] ⟨0⟩, .ask 0, .resume 0, .dispatch 0, .begin 0,
    .settle 0 (.returned { error := some (.repository "down"), consumer := some "orders" })]

/-- The next call returns the failure. -/
def returns : List (Intake.Event Nat) := [.call 2 [] ⟨1⟩, .ask 1, .resume 1, .report 1]

/-- The message that fails. -/
def order : Background Nat := { ticket := 0, message := 1, headers := [("Trace", "t1")] }

/-- The failed message is handed out after its failure was returned. -/
theorem orderly_iff_due_returned : ∃ s,
    (initial Intake.two).run? (fails ++ returns ++ [.take]) = some s ∧ Orderly s.log ∧
    s.log.head? = some (.taken (some (order.failed (some "orders")))) := by
  generalize hrun : (initial Intake.two).run? (fails ++ returns ++ [.take]) = end?
  have hend : end?.map (·.log) =
      some [.taken (some (order.failed (some "orders"))),
        .returned 1 (.repository "down") (some "orders"), .resumed 1,
        .recorded order (.repository "down") (some "orders"), .resumed 0] := by
    subst hrun
    rfl
  obtain ⟨s, rfl, hlog⟩ := Option.map_eq_some_iff.mp hend
  have hsteps := run_of_run? hrun
  obtain ⟨-, -, horderly⟩ := orderly_iff_due (n := 2) rfl hsteps
  refine ⟨s, rfl, horderly.mpr (run_due hsteps ?_), by rw [hlog]; rfl⟩
  intro f earlier hsuffix
  rw [hlog] at hsuffix
  rcases List.suffix_cons_iff.mp hsuffix with hlast | hrest
  · exact ⟨[], _, _, _, _, (List.cons.inj hlast).2, nofun⟩
  · exact absurd (hrest.subset List.mem_cons_self) (by simp)

/-- **A message is handed out before its failure is returned.**  Somebody who asks when the message
has failed is given it, and whoever asks when a call has returned the failure is given nothing. -/
theorem handed_out_early : ∃ s,
    (initial Intake.two).run? (fails ++ [.take] ++ returns ++ [.take]) = some s ∧
    s.log = [.taken none, .returned 1 (.repository "down") (some "orders"), .resumed 1,
      .taken (some (order.failed (some "orders"))),
      .recorded order (.repository "down") (some "orders"), .resumed 0] ∧ ¬Orderly s.log := by
  generalize hrun : (initial Intake.two).run? (fails ++ [.take] ++ returns ++ [.take]) = end?
  have hend : end?.map (·.log) =
      some [.taken none, .returned 1 (.repository "down") (some "orders"), .resumed 1,
        .taken (some (order.failed (some "orders"))),
        .recorded order (.repository "down") (some "orders"), .resumed 0] := by
    subst hrun
    rfl
  obtain ⟨s, rfl, hlog⟩ := Option.map_eq_some_iff.mp hend
  refine ⟨s, rfl, hlog, fun horderly => ?_⟩
  have hgiven : .taken (some (order.failed (some "orders"))) ::
      [.recorded order (.repository "down") (some "orders"), .resumed 0] <:+ s.log :=
    ⟨[.taken none, .returned 1 (.repository "down") (some "orders"), .resumed 1], hlog.symm⟩
  -- nobody had returned anything by then
  obtain ⟨since, t, cause, consumer, first, hsplit, -⟩ := (horderly.reported _ _ hgiven).told
  have hmem : Entry.returned t cause consumer ∈
      [.recorded order (.repository "down") (some "orders"), .resumed 0] := by
    rw [hsplit]
    simp
  simp at hmem

end Handout
end Courier
