import Courier.Proofs.Outbox.Solitary

/-!
# Rounds of a forwarder alone

Round after round a forwarder leases what it may claim, and drains it.  Whatever it held before, the
first batch that it reads consists of the rows that it has just leased, so every round settles at
least one row that it could claim, until there is none left (`drains_and_rests`).  A settled row is
sent, or it is left alone until its retry time, so it is not claimed again while the clock stands.
-/

namespace Courier

/-- Settings are valid only if a lease lasts longer than what has to be left of it. -/
theorem OutboxSettings.buffer_lt_of_validate {s : OutboxSettings} (hvalid : s.validate = .ok ()) :
    s.lockExpirationBuffer.nanoseconds < s.lockExpiration.nanoseconds := by
  refine Nat.lt_of_not_le fun hshort => ?_
  have hle : s.lockExpiration ≤ s.lockExpirationBuffer := hshort
  simp only [validate, hle, if_true] at hvalid
  -- The buffer is checked last, so the earlier checks have to be passed first.
  split at hvalid
  · cases hvalid
  · split at hvalid <;> cases hvalid

namespace Surroundings

variable {β : Type} (c : Surroundings β)

/-- The rows that the instance may claim. -/
def waiting (rows : List Row) : List Row := rows.filter (·.claimableBy c.inst c.now)

/-- What has become of a row that the instance was able to claim. -/
def Settled (r q : Row) : Prop :=
  if c.delivers r then q.content = r.content ∧ q.deliveredOn = some c.now
  else q = r.released c.inst c.deadline

/-- What has become of a row. -/
def Outcome (r q : Row) : Prop :=
  if r.claimableBy c.inst c.now then c.Settled r q else q = r

/-- What may have become of a row so far. -/
def Midway (r q : Row) : Prop :=
  q = r ∨ (r.claimableBy c.inst c.now = true ∧ ((∃ e, q = r.leased c.inst e) ∨ c.Settled r q))

/-- Every row that is leased now can be dealt with. -/
structure Lasting : Prop where
  /-- A lease that is taken now has not run out. -/
  later : c.now < c.deadline
  /-- It suffices. -/
  buffer : c.now.add c.settings.lockExpirationBuffer ≤ c.deadline
  /-- No failure ends a batch. -/
  fails : ∀ r, c.fails r = false

variable {c} {r q p : Row} {rows : List Row}

/-- With valid settings a lease ends later than now, unless the clock has come to its end. -/
theorem now_lt_deadline (hvalid : c.settings.validate = .ok ()) (hnow : c.now < Instant.max) :
    c.now < c.deadline :=
  Instant.lt_add hnow (Nat.zero_lt_of_lt (OutboxSettings.buffer_lt_of_validate hvalid))

/-- Valid settings leave time to forward a row that has just been leased. -/
theorem Lasting.of_validate (hvalid : c.settings.validate = .ok ()) (hlater : c.now < c.deadline)
    (hresult : ∀ id cause, c.result id = .error cause →
      cause.isTransient = false ∧ cause.isCancellation = false) : c.Lasting where
  later := hlater
  buffer := Instant.add_le_add_of_le (OutboxSettings.buffer_lt_of_validate hvalid).le hlater
  fails := by
    intro r
    by_contra hfails
    obtain ⟨_, _, cause, hcause, hpasses⟩ := fails_iff.mp (by simpa using hfails)
    obtain ⟨htransient, hcancellation⟩ := hresult r.id cause hcause
    simp [htransient, hcancellation] at hpasses

/-- A row that has just been leased does not stop a drain. -/
theorem Lasting.handles_leased (h : c.Lasting) (r : Row) :
    c.handles (r.leased c.inst c.deadline) = true := by
  have hlasts : c.lasts (r.leased c.inst c.deadline) = true := by
    have hnot : ¬ c.deadline < c.now.add c.settings.lockExpirationBuffer := not_lt_of_ge h.buffer
    simp [lasts, Forwarder.leaseSuffices, Row.leased, hnot]
  simp [handles, hlasts, h.fails]

/-- Only a lease that is too short stops a drain. -/
theorem Lasting.not_lasts (h : c.Lasting) {tail : List Row} (hleft : c.left rows = r :: tail) :
    c.lasts r = false := by
  have hstops : c.handles r = false := by
    have hhead := List.head?_dropWhile_not c.handles rows
    have hfirst : (rows.dropWhile c.handles).head? = some r := by
      rw [show rows.dropWhile c.handles = r :: tail from hleft, List.head?_cons]
    simpa [hfirst] using hhead
  simpa [handles, h.fails] using hstops

theorem Lasting.ending (h : c.Lasting) (rows : List Row) :
    c.ending rows = .drained ∨ c.ending rows = .stopped := by
  cases hleft : c.left rows with
  | nil => simp [Surroundings.ending, hleft]
  | cons r tail => simp [Surroundings.ending, stop, hleft, h.not_lasts hleft]

theorem Lasting.attempted (h : c.Lasting) (rows : List Row) :
    c.attempted rows = (c.handled rows).filter c.reaches := by
  cases hleft : c.left rows with
  | nil => simp [Surroundings.attempted, hleft]
  | cons r tail => simp [Surroundings.attempted, hleft, h.not_lasts hleft]

/-- A row that the instance gave back is left alone while the clock stands. -/
theorem claimableBy_released (hlater : c.now < c.deadline) (r : Row) :
    (r.released c.inst c.deadline).claimableBy c.inst c.now = false := by
  have hnot : ¬ c.deadline < c.now := not_lt_of_gt hlater
  simp [Row.claimableBy, Row.released, hnot]

theorem claimableBy_settle (hlater : c.now < c.deadline) (r : Row) :
    (c.settle r).claimableBy c.inst c.now = false := by
  unfold settle
  split
  · simp [Row.claimableBy]
  · exact claimableBy_released hlater r

theorem Settled.not_claimable (h : c.Settled r q) (hlater : c.now < c.deadline) :
    q.claimableBy c.inst c.now = false := by
  unfold Settled at h
  split at h
  · simp [Row.claimableBy, Row.isSent, h.2]
  · exact h ▸ claimableBy_released hlater r

theorem settled_settle (hclaim : r.claimableBy c.inst c.now = true) :
    c.Settled r (c.settle r) := by
  have hunsent : r.deliveredOn = none := by
    simpa [Row.isSent] using Row.isSent_of_claimableBy hclaim
  unfold Settled settle
  split
  · exact ⟨Row.content_delivered, by simp [Row.delivered, hunsent]⟩
  · rfl

theorem Midway.trans (hlater : c.now < c.deadline) (h : c.Midway r q) (h' : c.Midway q p) :
    c.Midway r p := by
  rcases h with rfl | ⟨hclaim, hq⟩
  · exact h'
  rcases hq with ⟨e, rfl⟩ | hsettled
  · refine .inr ⟨hclaim, ?_⟩
    rcases h' with rfl | ⟨-, ⟨d, rfl⟩ | hp⟩
    · exact .inl ⟨e, rfl⟩
    · exact .inl ⟨d, rfl⟩
    · exact .inr hp
  · rcases h' with rfl | ⟨hagain, -⟩
    · exact .inr ⟨hclaim, .inr hsettled⟩
    · rw [hsettled.not_claimable hlater] at hagain
      cases hagain

theorem Midway.outcome (h : c.Midway r q) (hclaim : q.claimableBy c.inst c.now = false) :
    c.Outcome r q := by
  unfold Outcome
  rcases h with rfl | ⟨hbefore, hq⟩
  · simp [hclaim]
  · rw [if_pos hbefore]
    rcases hq with ⟨e, rfl⟩ | hsettled
    · rw [Row.claimableBy_leased (Row.isSent_of_claimableBy hbefore)] at hclaim
      cases hclaim
    · exact hsettled

/-- When nothing is left to claim, it is settled what has become of the rows. -/
theorem forall₂_outcome {new : List Row} (h : List.Forall₂ c.Midway rows new)
    (hdone : c.waiting new = []) : List.Forall₂ c.Outcome rows new := by
  induction h with
  | nil => exact .nil
  | cons head tail ih =>
    simp only [waiting, List.filter_eq_nil_iff, List.mem_cons, forall_eq_or_imp,
      Bool.not_eq_true] at hdone
    refine .cons (head.outcome hdone.1) (ih ?_)
    simpa [waiting] using hdone.2

theorem forall₂_midway_trans (hlater : c.now < c.deadline) {mid new : List Row}
    (h : List.Forall₂ c.Midway rows mid) (h' : List.Forall₂ c.Midway mid new) :
    List.Forall₂ c.Midway rows new := by
  induction h generalizing new with
  | nil => exact h'
  | cons head tail ih =>
    obtain ⟨_, _, head', tail', rfl⟩ := List.forall₂_cons_left_iff.mp h'
    exact .cons (head.trans hlater head') (ih tail')

theorem midway_lockRows (n : Nat) (rows : List Row) :
    List.Forall₂ c.Midway rows (Repository.lockRows c.inst c.deadline c.now n rows).1 := by
  refine (Repository.lockRows_change c.inst c.deadline c.now n rows).imp ?_
  rintro r q (rfl | ⟨hclaim, rfl⟩)
  · exact .inl rfl
  · exact .inr ⟨hclaim, .inl ⟨c.deadline, rfl⟩⟩

/-- Leasing does not change what is waiting, but for the leases. -/
theorem waiting_lockRows (n : Nat) (rows : List Row) :
    (c.waiting (Repository.lockRows c.inst c.deadline c.now n rows).1).map Row.content =
      (c.waiting rows).map Row.content := by
  have hchange := Repository.lockRows_change c.inst c.deadline c.now n rows
  generalize (Repository.lockRows c.inst c.deadline c.now n rows).1 = locked at hchange
  induction hchange with
  | nil => rfl
  | @cons r q rows locked head tail ih =>
    rcases head with rfl | ⟨hclaim, rfl⟩
    · cases hrow : q.claimableBy c.inst c.now <;> simpa [waiting, hrow] using ih
    · have hstill : (r.leased c.inst c.deadline).claimableBy c.inst c.now = true :=
        Row.claimableBy_leased (Row.isSent_of_claimableBy hclaim)
      simpa [waiting, hclaim, hstill] using ih

theorem map_content_filter (rows : List Row) :
    (rows.filter c.reaches).map Row.content = (rows.map Row.content).filter c.reaches := by
  rw [List.filter_map]
  rfl

theorem handled_subset_waiting : c.handled (c.leases rows) ⊆ c.waiting rows := by
  intro r hr
  obtain ⟨hmem, hleased⟩ := List.mem_filter.mp ((List.takeWhile_sublist _).subset hr)
  exact List.mem_filter.mpr ⟨hmem, Row.claimableBy_of_leasedTo hleased⟩

theorem midway_settleAll (hids : (rows.map (·.id)).Nodup) :
    List.Forall₂ c.Midway rows (c.settleAll ((c.handled (c.leases rows)).map (·.id)) rows) := by
  have hpart : c.handled (c.leases rows) ⊆ rows :=
    List.Subset.trans handled_subset_waiting List.filter_sublist.subset
  refine List.forall₂_map_right_iff.mpr (List.forall₂_same.mpr fun r hr => ?_)
  by_cases hid : r.id ∈ (c.handled (c.leases rows)).map (·.id)
  · rw [if_pos hid]
    have hmem := handled_subset_waiting ((mem_ids_iff hids hpart hr).mp hid)
    have hclaim : r.claimableBy c.inst c.now = true := (List.mem_filter.mp hmem).2
    exact .inr ⟨hclaim, .inr (settled_settle hclaim)⟩
  · rw [if_neg hid]
    exact .inl rfl

/-- What a drain has dealt with is not waiting any more. -/
theorem waiting_settleAll (hlater : c.now < c.deadline) (hids : (rows.map (·.id)).Nodup) :
    (c.waiting rows).Perm (c.handled (c.leases rows) ++
      c.waiting (c.settleAll ((c.handled (c.leases rows)).map (·.id)) rows)) := by
  have hpart : c.handled (c.leases rows) ⊆ rows :=
    List.Subset.trans handled_subset_waiting List.filter_sublist.subset
  have hnodup : rows.Nodup := .of_map _ hids
  have hrest := filter_settleAll (c := c) (p := fun r => r.claimableBy c.inst c.now)
    (claimableBy_settle hlater) ((c.handled (c.leases rows)).map (·.id)) rows
  have hfirst : ((c.waiting rows).filter fun r =>
      decide (r.id ∈ (c.handled (c.leases rows)).map (·.id))).Perm
        (c.handled (c.leases rows)) := by
    have hhandled : (c.handled (c.leases rows)).Nodup :=
      hnodup.sublist ((List.takeWhile_sublist _).trans List.filter_sublist)
    refine (List.perm_ext_iff_of_nodup ((hnodup.filter _).filter _) hhandled).mpr fun r => ?_
    rw [List.mem_filter, decide_eq_true_iff]
    constructor
    · intro ⟨hmem, hid⟩
      exact (mem_ids_iff hids hpart (List.mem_filter.mp hmem).1).mp hid
    · intro hmem
      exact ⟨handled_subset_waiting hmem, List.mem_map_of_mem hmem⟩
  have hparts := List.filter_append_perm
    (fun r : Row => decide (r.id ∈ (c.handled (c.leases rows)).map (·.id))) (c.waiting rows)
  simp only [← decide_not] at hparts
  rw [waiting, waiting, hrest]
  exact hparts.symm.trans (hfirst.append_right _)

end Surroundings

namespace Solitary

variable {β : Type} {c : Surroundings β} {s t u : Solitary β}

/-! ## A round -/

theorem step?_of_ready (hready : s.forwarder.stage = .ready) :
    s.step? c =
      some { s with forwarder := { s.forwarder with stage := .locking c.deadline } } := by
  simp [step?, hready, Forwarder.call?, afterDecision, Forwarder.decide, Surroundings.view,
    Surroundings.deadline]

theorem step?_of_locking {expires : Instant} (hstage : s.forwarder.stage = .locking expires) :
    s.step? c = some (s.afterCall c (.tryToLock c.inst expires)) := by
  simp [step?, hstage, Forwarder.call?]

/-- The state after rows have been leased. -/
def afterLock (s : Solitary β) (c : Surroundings β) : Solitary β :=
  { s with
    forwarder := { s.forwarder with stage := .draining true }
    repository := { s.repository with
      rows := (Repository.lockRows c.inst c.deadline c.now s.repository.batchSize
        s.repository.rows).1 } }

/-- What has happened between two rounds. -/
structure Progress (c : Surroundings β) (s u : Solitary β) : Prop where
  rows : List.Forall₂ c.Midway s.repository.rows u.repository.rows
  attempts :
    ((u.attempts ++ (c.waiting u.repository.rows).filter c.reaches).map Row.content).Perm
      ((s.attempts ++ (c.waiting s.repository.rows).filter c.reaches).map Row.content)

theorem Progress.refl (c : Surroundings β) (s : Solitary β) : Progress c s s where
  rows := List.forall₂_same.mpr fun _ _ => .inl rfl
  attempts := .refl _

theorem Progress.trans (hlater : c.now < c.deadline) (h : Progress c s t) (h' : Progress c t u) :
    Progress c s u where
  rows := Surroundings.forall₂_midway_trans hlater h.rows h'.rows
  attempts := h'.attempts.trans h.attempts

/-- **A round without work** leases nothing and leads to rest. -/
theorem run_idle_round (hready : s.forwarder.stage = .ready)
    (hnone : c.waiting s.repository.rows = []) :
    Run (Works c) s [none, some true]
      { s with forwarder := { s.forwarder with stage := .resting } } := by
  have hfree : ∀ r ∈ s.repository.rows, r.claimableBy c.inst c.now = false := by
    simpa [Surroundings.waiting] using hnone
  have hlock := Repository.lockRows_of_none c.deadline s.repository.batchSize hfree
  refine .cons ⟨step?_of_ready hready, rfl⟩ (.cons ⟨?_, rfl⟩ (.nil _))
  rw [step?_of_locking rfl]
  simp [afterCall, Repository.perform, Repository.settle, Repository.tryToLock,
    Repository.unlessCancelled, hlock, Forwarder.answered, Forwarder.roundOver]

/-- With something to claim a round goes on to a drain. -/
theorem quietly_lock (hready : s.forwarder.stage = .ready)
    (hsome : c.waiting s.repository.rows ≠ []) : Quietly c s (s.afterLock c) := by
  have hcount : (Repository.lockRows c.inst c.deadline c.now s.repository.batchSize
      s.repository.rows).2 ≠ 0 := by
    have hsize := s.repository.batchSize_pos
    have hwaiting := List.length_pos_iff.mpr hsome
    rw [Repository.lockRows_count, Repository.claimable, List.countP_eq_length_filter]
    simp only [Surroundings.waiting] at hwaiting
    omega
  refine .step (step?_of_ready hready) rfl (.step (t := s.afterLock c) ?_ rfl (.refl c _))
  rw [step?_of_locking rfl]
  obtain ⟨count, hcount⟩ := Nat.exists_eq_succ_of_ne_zero hcount
  simp [afterCall, afterLock, Repository.perform, Repository.settle, Repository.tryToLock,
    Repository.unlessCancelled, Forwarder.answered, hcount]

theorem Clear.afterLock (hclear : s.Clear) : (s.afterLock c).Clear where
  sent := hclear.sent
  skipped := hclear.skipped
  ids := by
    have hupdates : Repository.Updates (.tryToLock c.inst c.deadline) c.now s.repository.rows
        (s.afterLock c).repository.rows :=
      ⟨_, .refl _, fun _ hr _ => hr, Repository.lockRows_change _ _ _ _ _⟩
    exact hclear.ids.sublist hupdates.ids_sublist

/-- **The first row that a drain reads is one that was just leased**, so it does not stop it. -/
theorem handled_afterLock_ne_nil (hlasting : c.Lasting)
    (hsome : c.waiting s.repository.rows ≠ []) :
    c.handled (c.leases (s.afterLock c).repository.rows) ≠ [] := by
  obtain ⟨r, rest, hwaiting⟩ := List.exists_cons_of_ne_nil hsome
  obtain ⟨n, hsize⟩ := Nat.exists_eq_succ_of_ne_zero s.repository.batchSize_pos.ne'
  have hread : (s.afterLock c).nextBatch c =
      ((c.waiting s.repository.rows).take s.repository.batchSize).map
        (·.leased c.inst c.deadline) :=
    Repository.leasedRows_lockRows hlasting.later s.repository.batchSize s.repository.rows
  rw [hwaiting, hsize, List.take_succ_cons, List.map_cons] at hread
  rw [leases_eq_append, hread, List.cons_append,
    Surroundings.handled_cons_of_handles (hlasting.handles_leased r)]
  exact List.cons_ne_nil _ _

/-- What a round has dealt with, and what is left. -/
theorem waiting_round (hlasting : c.Lasting) (hclear : s.Clear) :
    ((c.waiting s.repository.rows).map Row.content).Perm
      ((c.handled (c.leases (s.afterLock c).repository.rows) ++
        c.waiting ((s.afterLock c).afterDrain c true).repository.rows).map Row.content) := by
  have hleased : (c.waiting (s.afterLock c).repository.rows).map Row.content =
      (c.waiting s.repository.rows).map Row.content :=
    Surroundings.waiting_lockRows s.repository.batchSize s.repository.rows
  rw [← hleased]
  exact (Surroundings.waiting_settleAll hlasting.later hclear.afterLock.ids).map Row.content

theorem length_waiting_round (hlasting : c.Lasting) (hclear : s.Clear)
    (hsome : c.waiting s.repository.rows ≠ []) :
    (c.waiting ((s.afterLock c).afterDrain c true).repository.rows).length <
      (c.waiting s.repository.rows).length := by
  have hmoved := List.length_pos_iff.mpr (handled_afterLock_ne_nil hlasting hsome)
  have hlength := (waiting_round hlasting hclear).length_eq
  simp only [List.length_map, List.length_append] at hlength
  omega

theorem progress_round (hlasting : c.Lasting) (hclear : s.Clear) :
    Progress c s ((s.afterLock c).afterDrain c true) where
  rows := Surroundings.forall₂_midway_trans hlasting.later
    (Surroundings.midway_lockRows s.repository.batchSize s.repository.rows)
    (Surroundings.midway_settleAll hclear.afterLock.ids)
  attempts := by
    have hattempts : ((s.afterLock c).afterDrain c true).attempts = s.attempts ++
        (c.handled (c.leases (s.afterLock c).repository.rows)).filter c.reaches :=
      congrArg (s.attempts ++ ·) (hlasting.attempted _)
    have hround := (waiting_round hlasting hclear).filter c.reaches
    rw [← Surroundings.map_content_filter, ← Surroundings.map_content_filter,
      List.filter_append, List.map_append] at hround
    simp only [hattempts, List.map_append, List.append_assoc]
    exact hround.symm.append_left _

/-- **A round with work** deals with some of the rows that can be claimed. -/
theorem exists_run_busy_round (hlasting : c.Lasting) (hclear : s.Clear)
    (hready : s.forwarder.stage = .ready) (hsome : c.waiting s.repository.rows ≠ []) :
    ∃ m u, Run (Works c) s (List.replicate m none ++ [some false]) u ∧ u.Clear ∧
      u.forwarder.stage = .ready ∧ Progress c s u ∧
      (c.waiting u.repository.rows).length < (c.waiting s.repository.rows).length := by
  have hlocked : (s.afterLock c).Clear := hclear.afterLock
  have hmoved := handled_afterLock_ne_nil hlasting hsome
  obtain ⟨m, hdrain⟩ := exists_run_drain (c := c) _ (s.afterLock c) true le_rfl hlocked rfl
  have hready' : ((s.afterLock c).afterDrain c true).forwarder.stage = .ready := by
    rcases hlasting.ending (c.leases (s.afterLock c).repository.rows) with hend | hend <;>
      simp [afterDrain, hend, closed, Forwarder.roundOver, hmoved]
  have hreport : ((s.afterLock c).afterDrain c true).report? = some false := by
    simp [report?, hready']
  rw [hreport] at hdrain
  obtain ⟨k, hrun⟩ := (quietly_lock hready hsome).run hdrain
  exact ⟨k, _, hrun, hlocked.afterDrain true, hready', progress_round hlasting hclear,
    length_waiting_round hlasting hclear hsome⟩

/-! ## All rounds -/

/-- As long as something can be claimed there is another round, and each leaves less of it. -/
theorem exists_run_rounds (hlasting : c.Lasting) (n : Nat) : ∀ s : Solitary β,
    (c.waiting s.repository.rows).length ≤ n → s.Clear → s.forwarder.stage = .ready →
      ∃ reports t, Run (Works c) s reports t ∧ t.forwarder.stage = .resting ∧
        reports.count (some false) ≤ n ∧ Progress c s t ∧ c.waiting t.repository.rows = [] := by
  induction n with
  | zero =>
    intro s hlength hclear hready
    have hnone : c.waiting s.repository.rows = [] := List.length_eq_zero_iff.mp (by omega)
    refine ⟨_, _, run_idle_round hready hnone, rfl, by simp, ?_, hnone⟩
    exact ⟨(Progress.refl c s).rows, (Progress.refl c s).attempts⟩
  | succ n ih =>
    intro s hlength hclear hready
    by_cases hnone : c.waiting s.repository.rows = []
    · refine ⟨_, _, run_idle_round hready hnone, rfl, by simp, ?_, hnone⟩
      exact ⟨(Progress.refl c s).rows, (Progress.refl c s).attempts⟩
    obtain ⟨m, u, hround, hclear', hready', hprogress, hless⟩ :=
      exists_run_busy_round hlasting hclear hready hnone
    -- The round has dealt with at least one row, so it may be counted against that row.
    obtain ⟨reports, t, hrun, hrest, hcount, hlater, hdone⟩ := ih u (by omega) hclear' hready'
    refine ⟨_, t, hround.append hrun, hrest, ?_, hprogress.trans hlasting.later hlater, hdone⟩
    have hfew : (List.replicate m none).count (some false) = 0 := by simp [List.count_replicate]
    rw [List.count_append, List.count_append, hfew, List.count_singleton_self]
    omega

/-- **Every run leads to where one run comes to rest.** -/
theorem exists_rest {reports passed : List (Option Bool)} (hrun : Run (Works c) s reports t)
    (hrest : t.forwarder.stage = .resting) (hpassed : Run (Works c) s passed u) :
    ∃ rest, reports = passed ++ rest ∧ Run (Works c) u rest t := by
  induction hpassed generalizing reports with
  | nil s => exact ⟨reports, rfl, hrun⟩
  | cons head tail ih =>
    obtain ⟨hstep, hreport⟩ := head
    cases hrun with
    | nil => simp [step?, hrest] at hstep
    | cons head' tail' =>
      obtain ⟨hstep', hreport'⟩ := head'
      obtain rfl := Option.some.inj (hstep.symm.trans hstep')
      obtain ⟨rest, rfl, hrun⟩ := ih tail'
      exact ⟨rest, by rw [hreport, hreport', List.cons_append], hrun⟩

/-- **A forwarder that works alone drains the outbox and then rests.**  The clock stands at a time
from which the end of a lease is still to come, the settings are valid, and forwarding a row either
succeeds or fails for good.  Then every run from the start of a round is part of one that comes to
rest.  It has at most as many rounds that are not idle as there are rows that could be claimed.  At
its end each of these rows is delivered or, if it cannot be delivered, given back, every other row
is as it was, and each row that could be claimed and has a bus was handed to it exactly once. -/
theorem drains_and_rests (c : Surroundings β) (s : Solitary β)
    (hvalid : c.settings.validate = .ok ()) (hlater : c.now < c.deadline)
    (hresult : ∀ id cause, c.result id = .error cause →
      cause.isTransient = false ∧ cause.isCancellation = false)
    (hclear : s.Clear) (hready : s.forwarder.stage = .ready) :
    ∃ reports t,
      (∀ passed u, Run (Works c) s passed u →
        ∃ rest, reports = passed ++ rest ∧ Run (Works c) u rest t) ∧
      t.forwarder.stage = .resting ∧
      reports.count (some false) ≤ (c.waiting s.repository.rows).length ∧
      List.Forall₂ c.Outcome s.repository.rows t.repository.rows ∧
      (t.attempts.map Row.content).Perm
        ((s.attempts ++ (c.waiting s.repository.rows).filter c.reaches).map Row.content) := by
  have hlasting : c.Lasting := .of_validate hvalid hlater hresult
  obtain ⟨reports, t, hrun, hrest, hcount, hprogress, hdone⟩ :=
    exists_run_rounds hlasting _ s le_rfl hclear hready
  refine ⟨reports, t, fun passed u hpassed => exists_rest hrun hrest hpassed, hrest, hcount, ?_, ?_⟩
  · exact Surroundings.forall₂_outcome hprogress.rows hdone
  · have hattempts := hprogress.attempts
    rwa [hdone, List.filter_nil, List.append_nil] at hattempts

/-- Only the unnamed bus is there, and it delivers everything. -/
def unnamedOnly : Surroundings Unit where
  settings := {}
  inst := "a"
  now := .epoch
  route := fun name => if name = none then some () else none
  result := fun _ => .ok ()

/-- Batches of one row; in front is a row without a bus. -/
def blocked : Solitary Unit where
  forwarder := { token := ⟨0⟩, stage := .ready }
  repository := {
    rows := [
      { id := ⟨1⟩, busName := some "gone", path := "orders", messageType := ⟨"OrderPlaced"⟩
        payload := [], headers := [], timestamp := .epoch },
      { id := ⟨2⟩, busName := none, path := "orders", messageType := ⟨"OrderPlaced"⟩
        payload := [], headers := [], timestamp := .epoch }]
    batchSize := 1
    batchSize_pos := Nat.one_pos }

/-- The row without a bus is given back, and the row behind it is delivered. -/
theorem drains_and_rests_blocked : ∃ reports t r q,
    Run (Works unnamedOnly) blocked reports t ∧ t.forwarder.stage = .resting ∧
      reports.count (some false) ≤ 2 ∧ t.repository.rows = [r, q] ∧
      r.releasedBy = some "a" ∧ r.isSent = false ∧ q.deliveredOn = some .epoch ∧
      t.attempts.map (·.id) = [⟨2⟩] := by
  have hlater : unnamedOnly.now < unnamedOnly.deadline :=
    Surroundings.now_lt_deadline rfl (by decide)
  obtain ⟨reports, t, hruns, hrest, hcount, hrows, hattempts⟩ :=
    drains_and_rests unnamedOnly blocked rfl hlater nofun ⟨rfl, rfl, by decide⟩ rfl
  obtain ⟨_, rfl, hrun⟩ := hruns [] blocked (.nil _)
  obtain ⟨r, _, hfirst, htail, hr⟩ := List.forall₂_cons_left_iff.mp hrows
  obtain ⟨q, _, hsecond, hnil, rfl⟩ := List.forall₂_cons_left_iff.mp htail
  obtain rfl := List.forall₂_nil_left_iff.mp hnil
  rw [Surroundings.Outcome, if_pos (by decide), Surroundings.Settled, if_neg (by decide)] at hfirst
  rw [Surroundings.Outcome, if_pos (by decide), Surroundings.Settled, if_pos (by decide)] at hsecond
  have honly : t.attempts.map Row.content = blocked.repository.rows.tail.map Row.content :=
    List.perm_singleton.mp hattempts
  have hids := congrArg (List.map Row.id) honly
  rw [List.map_map] at hids
  exact ⟨_, t, r, q, hrun, hrest, hcount, hr, by rw [hfirst]; rfl, by rw [hfirst]; rfl, hsecond.2,
    hids⟩

end Solitary
end Courier
