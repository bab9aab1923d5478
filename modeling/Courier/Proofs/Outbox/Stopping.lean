import Courier.Proofs.Outbox.Accounting

/-!
# Stopping a loop

A stop cancels the token of the loop, and the loop confirms what it has forwarded under that same
token.  So a confirmation that has not been carried out before the stop never is: from then on the
loop forgets nothing and confirms nothing (`Silenced`).

What this means for a single row is `marked_iff_confirmed_before_stop`: a row that the loop has
delivered is marked sent exactly if nothing was left to confirm for it when the stop came, and it
was not delivered afterwards.  A row whose delivery ends after the stop is delivered again by the
next loop, see `delivered_again_after_stop`.
-/

namespace Courier

namespace Fleet

variable {β : Type} {s u v : Fleet β} {e : Event β} {es ds : List (Event β)} {l k : Place}
variable {t : SendingTask β} {f f' : Forwarder β} {i n : Nat} {id : RowId} {token : Token}

/-- A cancelled token stays cancelled. -/
theorem Step.isCancelled (hstep : Step s e u) (h : s.tokens.isCancelled token = true) :
    u.tokens.isCancelled token = true := by
  cases hstep with
  | stop => exact Tokens.isCancelled_cancel_of_isCancelled _ h
  | cancel => exact Tokens.isCancelled_cancel_of_isCancelled _ h
  | _ => exact h

/-! ## Rows that wait for their confirmation -/

/-- A forwarder has forwarded the row of this id and not confirmed it, or may still forward it. -/
def Awaits (f : Forwarder β) (id : RowId) : Prop := id ∈ f.sent ∨ ∃ r ∈ f.batch, r.id = id

/-- Nobody else than the forwarder at `l` has delivered the row of this id. -/
def OnlyBy (s : Fleet β) (l : Place) (id : RowId) : Prop :=
  ∀ d ∈ s.delivered, d.row.id = id → d.place = l

theorem OnlyBy.before (h : u.OnlyBy l id) (hstep : Effect s u) : s.OnlyBy l id :=
  fun d hd => h d (hstep.delivered_prefix.subset hd)

/-- A row is not marked while the only forwarder that delivers it has it in hand. -/
def Unmarked (s : Fleet β) (l : Place) (id : RowId) : Prop :=
  ∀ f, s.forwarder? l = some f → Awaits f id → ¬s.Marked id

/-- What a forwarder has in hand was captured. -/
theorem Accounted.awaits_captured (h : Accounted s) (hf : s.forwarder? l = some f)
    (hawaits : Awaits f id) : ∃ r, s.IsCaptured r ∧ r.id = id := by
  rcases hawaits with hsent | ⟨r, hr, hid⟩
  · obtain ⟨d, hd, -, hid⟩ := h.sent_delivered l f hf id hsent
    exact ⟨d.row, h.delivered_captured d hd, hid⟩
  · exact ⟨r, h.batch_captured l f hf r hr, hid⟩

/-- A row that is there unsent has never been marked. -/
theorem Sourced.not_marked {r : Row} (h : Sourced s) (hr : r ∈ s.repository.rows)
    (hunsent : r.isSent = false) : ¬s.Marked r.id := by
  rintro (⟨q, hq, hid, hsent⟩ | ⟨q, hq, hid, -⟩)
  · obtain rfl := eq_of_id_eq h.rows_distinct hq hr hid
    simp [hunsent] at hsent
  · exact h.removed_gone q hq r hr hid.symm

theorem Awaits.of_subset (h : Awaits f' id) (hsent : f'.sent = f.sent)
    (hbatch : f'.batch ⊆ f.batch) : Awaits f id := by
  rcases h with hmem | ⟨r, hr, hid⟩
  · exact .inl (hsent ▸ hmem)
  · exact .inr ⟨r, hbatch hr, hid⟩

theorem Unmarked.quiet (hunmarked : s.Unmarked l id) (hquiet : Quiet s u) : u.Unmarked l id := by
  intro g hg hawaits hmarked
  rw [Marked, hquiet.rows, hquiet.removed] at hmarked
  rcases hquiet.comes l g hg with ⟨hsent, hbatch⟩ | ⟨f, hf, hsent, hbatch⟩
  · simp [Awaits, hsent, hbatch] at hawaits
  · exact hunmarked f hf (hawaits.of_subset hsent hbatch) hmarked

theorem Unmarked.capture {row : Row} (hunmarked : s.Unmarked l id) (h : Accounted s)
    (hdistinct : ((s.captured ++ [row]).map (·.id)).Nodup)
    (hrows : u.repository.rows = s.repository.rows ++ [row]) (hremoved : u.removed = s.removed)
    (hforwarder : ∀ k, u.forwarder? k = s.forwarder? k) : u.Unmarked l id := by
  intro g hg hawaits hmarked
  rw [hforwarder] at hg
  rcases marked_of_capture hrows hremoved hmarked with hold | ⟨hrow, -⟩
  · exact hunmarked g hg hawaits hold
  · obtain ⟨r, hr, hid⟩ := h.awaits_captured hg hawaits
    exact hr.id_ne hdistinct (hid.trans hrow.symm)

/-- A forwarder that is not the only one to deliver the row confirms only what it has delivered
itself, and the one that has the row in hand is not confirming. -/
theorem Unmarked.call {call : RepositoryCall} (hunmarked : s.Unmarked l id) (h : Accounted s)
    (honly : s.OnlyBy l id) (hmoves : Moves s u k f f')
    (hupdates : Repository.Updates call s.clock s.repository.rows u.repository.rows)
    (hremoved : u.removed = s.removed ++ leftOut s.repository.rows u.repository.rows)
    (hread : f'.batch = [] ∨ ∃ inst, call = .findNextToSend inst ∧ u.repository = s.repository ∧
      f'.batch = Repository.leasedRows inst s.clock s.repository.batchSize s.repository.rows)
    (hsent : f'.sent = f.sent ∧ (∀ ids, call ≠ .updateToSent ids) ∨
      f'.sent = [] ∧ call = .updateToSent f.sent) : u.Unmarked l id := by
  intro g hg hawaits hmarked
  have hcases := marked_of_call hupdates hremoved hmarked
  rcases hmoves.eq_or_stayed hg with ⟨rfl, rfl⟩ | ⟨hk, hg⟩
  · rcases hawaits with hmem | ⟨r, hr, rfl⟩
    · rcases hsent with ⟨hsame, hother⟩ | ⟨hnil, -⟩
      · rcases hcases with hold | ⟨ids, hids, -⟩
        · exact hunmarked f hmoves.before (.inl (hsame ▸ hmem)) hold
        · exact hother ids hids
      · simp [hnil] at hmem
    · rcases hread with hnil | ⟨inst, hfind, -, hfound⟩
      · simp [hnil] at hr
      · rw [hfound] at hr
        have hunsent := (Row.leasedTo_iff.mp (Repository.leasedTo_of_mem_leasedRows hr)).1
        rcases hcases with hold | ⟨ids, hids, -⟩
        · exact h.not_marked ((Repository.leasedRows_sublist _ _ _ _).subset hr) hunsent hold
        · simp [hfind] at hids
  · rcases hcases with hold | ⟨ids, hids, hmem⟩
    · exact hunmarked g hg hawaits hold
    · obtain ⟨rfl, -⟩ := eq_sent_of_confirmation hsent hids
      obtain ⟨d, hd, hplace, hid⟩ := h.sent_delivered k f hmoves.before id hmem
      exact hk ((honly d hd hid).symm.trans hplace)

/-- A row that is delivered has been in hand before. -/
theorem Unmarked.deliver {row : Row} (hunmarked : s.Unmarked l id) (hmoves : Moves s u k f f')
    (hrows : u.repository.rows = s.repository.rows) (hremoved : u.removed = s.removed)
    (hrow : row ∈ f.batch) (hbatch : f'.batch ⊆ f.batch) (hsent : f'.sent = f.sent ++ [row.id]) :
    u.Unmarked l id := by
  intro g hg hawaits hmarked
  rw [Marked, hrows, hremoved] at hmarked
  rcases hmoves.eq_or_stayed hg with ⟨rfl, rfl⟩ | ⟨-, hg⟩
  · refine hunmarked f hmoves.before ?_ hmarked
    rcases hawaits with hmem | ⟨r, hr, hid⟩
    · rw [hsent, List.mem_append, List.mem_singleton] at hmem
      rcases hmem with hmem | rfl
      · exact .inl hmem
      · exact .inr ⟨row, hrow, rfl⟩
    · exact .inr ⟨r, hbatch hr, hid⟩
  · exact hunmarked g hg hawaits hmarked

/-- **No step marks a row that the only forwarder that delivers it has in hand.**  A forwarder
confirms when its batch is over, and what it confirms it does not keep. -/
theorem Unmarked.step (hunmarked : s.Unmarked l id) (h : Accounted s)
    (hdistinct : (u.captured.map (·.id)).Nodup) (honly : s.OnlyBy l id) (hstep : Step s e u) :
    u.Unmarked l id := by
  cases hstep.effect with
  | quiet hquiet => exact hunmarked.quiet hquiet
  | captured row hrows hcaptured hdelivered hremoved hforwarder =>
    exact hunmarked.capture h (hcaptured ▸ hdistinct) hrows hremoved hforwarder
  | called k f f' call hmoves hlive hupdates hcaptured hdelivered hremoved hread hsent =>
    exact hunmarked.call h honly hmoves hupdates hremoved hread hsent
  | delivered k f f' row hmoves hrows hcaptured hdelivered hremoved hclock hstage hrow
      hbatch hsent =>
    exact hunmarked.deliver hmoves hrows hremoved hrow hbatch hsent

/-! ## Runs -/

/-- What a run has delivered it still has at its end. -/
theorem OnlyBy.of_run (h : u.OnlyBy l id) (hrun : Run Step s es u) : s.OnlyBy l id := by
  induction hrun with
  | nil => exact h
  | cons head tail ih => exact (ih h).before head.effect

theorem Unmarked.run (hunmarked : s.Unmarked l id) (h : Accounted s) (hrun : Run Step s es u)
    (hdistinct : (u.captured.map (·.id)).Nodup) (honly : u.OnlyBy l id) : u.Unmarked l id := by
  induction hrun with
  | nil => exact hunmarked
  | @cons s w u e es head tail ih =>
      have hw : (w.captured.map (·.id)).Nodup :=
        hdistinct.sublist ((captured_prefix_of_run tail).sublist.map _)
      have hnext := hunmarked.step h hw ((honly.of_run tail).before head.effect) head
      exact ih hnext (h.step hw head) hdistinct honly

/-- With distinct ids a marked row stays marked along a run. -/
theorem Marked.run (hmarked : s.Marked id) (h : Accounted s) (hrun : Run Step s es u)
    (hdistinct : (u.captured.map (·.id)).Nodup) : u.Marked id := by
  induction hrun with
  | nil => exact hmarked
  | @cons s w u e es head tail ih =>
      have hw : (w.captured.map (·.id)).Nodup :=
        hdistinct.sublist ((captured_prefix_of_run tail).sublist.map _)
      exact ih (head.effect.marked h.rows_distinct hmarked) (h.step hw head) hdistinct

/-! ## After a stop -/

/-- The token of the forwarder at `l` is cancelled; since the deliveries were `early`, it has kept
the ids `ids` and all that it has delivered. -/
def Silenced (l : Place) (early : List Delivery) (ids : List RowId) (s : Fleet β) : Prop :=
  ∃ f late, s.forwarder? l = some f ∧ s.tokens.isCancelled f.token = true ∧
    s.delivered = early ++ late ∧ (∀ id ∈ ids, id ∈ f.sent) ∧
    ∀ d ∈ late, d.place = l → d.row.id ∈ f.sent

/-- **A loop whose token is cancelled confirms nothing any more.** -/
theorem Silenced.step {early : List Delivery} {ids : List RowId} (h : Silenced l early ids s)
    (hstep : Step s e u) : Silenced l early ids u := by
  obtain ⟨f, late, hf, hcancelled, hlate, hids, hown⟩ := h
  have hstill := hstep.isCancelled hcancelled
  cases hstep.effect with
  | quiet hquiet =>
    obtain ⟨f', hf', hsent, htoken⟩ := hquiet.keeps l f hf
    exact ⟨f', late, hf', htoken ▸ hstill, hquiet.delivered.trans hlate, hsent ▸ hids, hsent ▸ hown⟩
  | captured row hrows hcaptured hdelivered hremoved hforwarder =>
    exact ⟨f, late, (hforwarder l).trans hf, hstill, hdelivered.trans hlate, hids, hown⟩
  | called k g g' call hmoves hlive hupdates hcaptured hdelivered hremoved hread hsent =>
    -- A call that is carried out is not one of this loop.
    have hother : l ≠ k := by
      rintro rfl
      obtain rfl := Option.some.inj (hf.symm.trans hmoves.before)
      simp [hcancelled] at hlive
    exact ⟨f, late, hmoves.stayed hother hf, hstill, hdelivered.trans hlate, hids, hown⟩
  | delivered k g g' row hmoves hrows hcaptured hdelivered hremoved hclock hstage hrow
      hbatch hsent =>
    have hgrown : u.delivered = early ++ (late ++ [⟨k, row⟩]) := by
      rw [hdelivered, hlate, List.append_assoc]
    by_cases hk : l = k
    · subst hk
      obtain rfl := Option.some.inj (hf.symm.trans hmoves.before)
      refine ⟨g', _, hmoves.moved, hmoves.token ▸ hstill, hgrown, ?_, ?_⟩
      · intro id hid
        exact hsent ▸ List.mem_append_left _ (hids id hid)
      · intro d hd hplace
        rw [List.mem_append, List.mem_singleton] at hd
        rcases hd with hd | rfl
        · exact hsent ▸ List.mem_append_left _ (hown d hd hplace)
        · simp [hsent]
    · refine ⟨f, _, hmoves.stayed hk hf, hstill, hgrown, hids, ?_⟩
      intro d hd hplace
      rw [List.mem_append, List.mem_singleton] at hd
      rcases hd with hd | rfl
      · exact hown d hd hplace
      · exact absurd hplace.symm hk

variable {clock : Instant} {repository : Repository} {members : List (OutboxSettings × String)}

/-- **What a stop leaves unconfirmed.**  After the stop of a loop, a row that it has delivered, and
nobody else has, is marked sent exactly if the loop did not keep it for a confirmation when the stop
came, and its delivery did not end after the stop. -/
theorem marked_iff_confirmed_before_stop
    (hbefore : Run Step (Fleet.initial clock repository members) es s)
    (htask : s.tasks[i]? = some t) (hcurrent : t.current = some n)
    (hf : s.forwarder? ⟨i, n⟩ = some f) (hstop : Step s (.stop i) u) (hafter : Run Step u ds v)
    (hdistinct : (v.captured.map (·.id)).Nodup) {d : Delivery} (hd : d ∈ v.delivered)
    (hplace : d.place = ⟨i, n⟩) (honly : v.OnlyBy ⟨i, n⟩ d.row.id) :
    ∃ late, v.delivered = s.delivered ++ late ∧
      (v.Marked d.row.id ↔ d.row.id ∉ f.sent ∧ ∀ x ∈ late, x.row.id ≠ d.row.id) := by
  have hs : (s.captured.map (·.id)).Nodup :=
    hdistinct.sublist (((captured_prefix_of_run (.cons hstop hafter)).sublist).map _)
  have haccounted := Accounted.of_run hbefore hs
  have hsilenced : Silenced ⟨i, n⟩ s.delivered f.sent u := by
    cases hstop with
    | stop htask' hcurrent' hforwarder' =>
      obtain rfl := Option.some.inj (htask.symm.trans htask')
      obtain rfl := Option.some.inj (hcurrent.symm.trans hcurrent')
      obtain rfl := Option.some.inj
        ((forwarder?_eq (l := ⟨i, n⟩) htask).symm.trans hf |>.symm.trans hforwarder')
      refine ⟨_, [], (forwarder?_takeCurrent htask rfl).trans hf, ?_, by simp [afterStop],
        fun _ h => h, by simp⟩
      exact Tokens.isCancelled_cancel_self _ _
  obtain ⟨g, late, hg, -, hlate, hids, hown⟩ :=
    hafter.invariant (Silenced ⟨i, n⟩ s.delivered f.sent) hsilenced fun _ _ _ h hstep => h.step hstep
  refine ⟨late, hlate, ?_, ?_⟩
  · intro hmarked
    have hrun := hbefore.append (.cons hstop hafter)
    have hunmarked : v.Unmarked ⟨i, n⟩ d.row.id := by
      refine Unmarked.run ?_ ?_ hrun hdistinct honly
      · intro g hg
        simp [forwarder?_initial] at hg
      · exact Accounted.initial (hdistinct.sublist ((captured_prefix_of_run hrun).sublist.map _))
    have hfree : d.row.id ∉ g.sent := fun hmem => hunmarked g hg (.inl hmem) hmarked
    refine ⟨fun hmem => hfree (hids _ hmem), fun x hx hid => hfree ?_⟩
    have hxplace := honly x (hlate ▸ List.mem_append_right _ hx) hid
    exact hid ▸ hown x hx hxplace
  · rintro ⟨hsettled, hnone⟩
    rw [hlate, List.mem_append] at hd
    have hearly : d ∈ s.delivered := hd.resolve_right fun hd => hnone d hd rfl
    obtain ⟨g, hg, hkept⟩ := haccounted.kept d hearly
    rw [hplace] at hg
    obtain rfl := Option.some.inj (hf.symm.trans hg)
    exact (hkept.resolve_left hsettled).run haccounted (.cons hstop hafter) hdistinct

/-- A row that is delivered while its loop is being stopped stays unmarked. -/
theorem marked_iff_confirmed_before_stop_late : ∃ (s u v : Fleet Unit) (f : Forwarder Unit)
    (d : Delivery),
    single.run? (opening ⟨0, 0⟩) = some s ∧ s.forwarder? ⟨0, 0⟩ = some f ∧
    s.step? (.stop 0) = some u ∧ u.run? (closing ⟨0, 0⟩ none) = some v ∧ v.delivered = [d] ∧
    ∃ late, v.delivered = s.delivered ++ late ∧
      (v.Marked d.row.id ↔ d.row.id ∉ f.sent ∧ ∀ x ∈ late, x.row.id ≠ d.row.id) := by
  have hall : (single.run? (opening ⟨0, 0⟩)).any (fun s =>
      s.tasks[0]?.any fun t => decide (t.current = some 0) &&
        (s.forwarder? ⟨0, 0⟩).any fun _ => (s.step? (.stop 0)).any fun u =>
          (u.run? (closing ⟨0, 0⟩ none)).any fun v =>
            decide ((v.captured.map (·.id)).Nodup ∧ v.delivered.map (·.place) = [⟨0, 0⟩])) =
      true := by decide
  simp only [Option.any_eq_true, Bool.and_eq_true, decide_eq_true_eq] at hall
  obtain ⟨s, hs, t, ht, hcurrent, f, hf, u, hu, v, hv, hdistinct, hplaces⟩ := hall
  obtain ⟨d, hd, hplace⟩ := List.map_eq_singleton_iff.mp hplaces
  refine ⟨s, u, v, f, d, hs, hf, hu, hv, hd, marked_iff_confirmed_before_stop (run_of_run? hs) ht
    hcurrent hf (.of_step? hu) (run_of_run? hv) hdistinct (by simp [hd]) hplace ?_⟩
  intro x hx _
  rw [hd, List.mem_singleton] at hx
  exact hx ▸ hplace

/-- **The row of a stopped loop is delivered twice.**  The stop comes while the row is being
delivered; the delivery succeeds, the loop ends without having confirmed it, and the next loop
delivers the row again. -/
theorem delivered_again_after_stop : ∃ t v : Fleet Unit,
    single.run? (opening ⟨0, 0⟩ ++ .stop 0 :: closing ⟨0, 0⟩ none) = some t ∧
    (t.forwarder? ⟨0, 0⟩).map (·.isEnded) = some true ∧
    t.delivered.map (·.row.id) = [⟨1⟩] ∧ ¬t.Marked ⟨1⟩ ∧
    t.run? (opening ⟨0, 1⟩ ++ closing ⟨0, 1⟩ none) = some v ∧
    v.delivered.map (·.row.id) = [⟨1⟩, ⟨1⟩] := by
  have hall : (single.run? (opening ⟨0, 0⟩ ++ .stop 0 :: closing ⟨0, 0⟩ none)).any (fun t =>
      decide ((t.forwarder? ⟨0, 0⟩).map (·.isEnded) = some true ∧
        t.delivered.map (·.row.id) = [⟨1⟩] ∧ ¬t.Marked ⟨1⟩) &&
      (t.run? (opening ⟨0, 1⟩ ++ closing ⟨0, 1⟩ none)).any fun v =>
        decide (v.delivered.map (·.row.id) = [⟨1⟩, ⟨1⟩])) = true := by decide
  simp only [Option.any_eq_true, Bool.and_eq_true, decide_eq_true_eq] at hall
  obtain ⟨t, ht, ⟨hended, hdelivered, hmarked⟩, v, hv, hagain⟩ := hall
  exact ⟨t, v, ht, hended, hdelivered, hmarked, hv, hagain⟩

end Fleet
end Courier
