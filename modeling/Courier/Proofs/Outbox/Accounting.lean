import Courier.Proofs.Outbox.Fleet
import Mathlib.Data.List.Nodup

/-!
# Accounting for rows

Every row of an outbox is accounted for, whatever fails and whoever stops: it is in the repository
unsent until it has been delivered, and what a forwarder has delivered is marked sent or still kept
for the next confirmation.

The key fact is that a confirmation names only what the same forwarder has delivered
(`Accounted.sent_delivered`), while ids are distinct.  So whatever marks a row has delivered that
very row, and a cleanup, which takes only marked rows, never takes one that is still due.
-/

namespace Courier

namespace Fleet

variable {β : Type} {s u t : Fleet β} {e : Event β} {l : Place} {f f' : Forwarder β}
variable {r c : Row} {id : RowId}

/-- The row with this id is marked sent, or it was when it left the repository. -/
def Marked (s : Fleet β) (id : RowId) : Prop :=
  (∃ r ∈ s.repository.rows, r.id = id ∧ r.isSent = true) ∨
    ∃ r ∈ s.removed, r.id = id ∧ r.isSent = true

instance (s : Fleet β) (id : RowId) : Decidable (s.Marked id) :=
  inferInstanceAs (Decidable (_ ∨ _))

/-- The message of a row was captured. -/
def IsCaptured (s : Fleet β) (r : Row) : Prop := ∃ c ∈ s.captured, r.content = c.content

/-- Some forwarder has delivered the message of a row. -/
def IsDelivered (s : Fleet β) (r : Row) : Prop := ∃ d ∈ s.delivered, d.row.content = r.content

/-- Every row that turns up anywhere is a captured one, and the repository has it at most once. -/
structure Sourced (s : Fleet β) : Prop where
  rows_distinct : (s.repository.rows.map (·.id)).Nodup
  rows_captured : ∀ r ∈ s.repository.rows, s.IsCaptured r
  removed_captured : ∀ r ∈ s.removed, s.IsCaptured r
  removed_gone : ∀ r ∈ s.removed, ∀ q ∈ s.repository.rows, q.id ≠ r.id
  batch_captured : ∀ l f, s.forwarder? l = some f → ∀ r ∈ f.batch, s.IsCaptured r
  delivered_captured : ∀ d ∈ s.delivered, s.IsCaptured d.row

/-- Every row is accounted for. -/
structure Accounted (s : Fleet β) : Prop extends Sourced s where
  /-- A captured message is there until its row is marked. -/
  present : ∀ c ∈ s.captured,
    (∃ r ∈ s.repository.rows, r.content = c.content) ∨ s.Marked c.id
  /-- What a forwarder is about to confirm, it has delivered. -/
  sent_delivered : ∀ l f, s.forwarder? l = some f → ∀ id ∈ f.sent,
    ∃ d ∈ s.delivered, d.place = l ∧ d.row.id = id
  /-- Only delivered rows are marked. -/
  marked_delivered : ∀ c ∈ s.captured, c.isSent = false → s.Marked c.id → s.IsDelivered c
  /-- What a forwarder has delivered it remembers until the row is marked. -/
  kept : ∀ d ∈ s.delivered, ∃ f, s.forwarder? d.place = some f ∧
    (d.row.id ∈ f.sent ∨ s.Marked d.row.id)

/-- With distinct ids the row of an id is determined. -/
theorem eq_of_id_eq {rows : List Row} {q : Row} (hdistinct : (rows.map (·.id)).Nodup)
    (hr : r ∈ rows) (hq : q ∈ rows) (hid : r.id = q.id) : r = q :=
  List.inj_on_of_nodup_map hdistinct hr hq hid

/-- A message that was captured and has the id of a captured row is the message of that row. -/
theorem IsCaptured.content_eq (h : s.IsCaptured r) (hdistinct : (s.captured.map (·.id)).Nodup)
    (hc : c ∈ s.captured) (hid : r.id = c.id) : r.content = c.content := by
  obtain ⟨c', hc', hcontent⟩ := h
  have heq : c' = c :=
    eq_of_id_eq hdistinct hc' hc ((Row.id_eq_of_content_eq hcontent).symm.trans hid)
  exact heq ▸ hcontent

/-- The log of captured messages only grows. -/
theorem Effect.captured_prefix (h : Effect s u) : s.captured <+: u.captured := by
  cases h with
  | quiet h => rw [h.captured]
  | captured row hrows hcaptured => exact hcaptured ▸ List.prefix_append _ _
  | called l f f' call hmoves hlive hupdates hcaptured => rw [hcaptured]
  | delivered l f f' row hmoves hrows hcaptured => rw [hcaptured]

/-- The log of deliveries only grows. -/
theorem Effect.delivered_prefix (h : Effect s u) : s.delivered <+: u.delivered := by
  cases h with
  | quiet h => rw [h.delivered]
  | captured row hrows hcaptured hdelivered => rw [hdelivered]
  | called l f f' call hmoves hlive hupdates hcaptured hdelivered => rw [hdelivered]
  | delivered l f f' row hmoves hrows hcaptured hdelivered =>
    exact hdelivered ▸ List.prefix_append _ _

/-- **A marked row stays marked**, with distinct ids. -/
theorem Effect.marked (h : Effect s u) (hdistinct : (s.repository.rows.map (·.id)).Nodup)
    (hmarked : s.Marked id) : u.Marked id := by
  cases h with
  | quiet h => rwa [Marked, h.rows, h.removed]
  | captured row hrows hcaptured hdelivered hremoved =>
    rw [Marked, hrows, hremoved]
    refine hmarked.imp_left ?_
    rintro ⟨r, hr, hsent⟩
    exact ⟨r, List.mem_append_left _ hr, hsent⟩
  | called l f f' call hmoves hlive hupdates hcaptured hdelivered hremoved =>
    rw [Marked, hremoved]
    rcases hmarked with ⟨r, hr, rfl, hsent⟩ | ⟨r, hr, hrow⟩
    · by_cases hthere : ∃ r' ∈ u.repository.rows, r'.id = r.id
      · obtain ⟨r', hr', hid⟩ := hthere
        obtain ⟨q, hq, hchange⟩ := hupdates.source hr'
        obtain rfl : q = r := eq_of_id_eq hdistinct hq hr (hchange.id_eq.symm.trans hid)
        exact .inl ⟨r', hr', hid, hchange.isSent_of_isSent hsent⟩
      · refine .inr ⟨r, List.mem_append_right _ (List.mem_filter.mpr ⟨hr, ?_⟩), rfl, hsent⟩
        simpa using hthere
    · exact .inr ⟨r, List.mem_append_left _ hr, hrow⟩
  | delivered l f f' row hmoves hrows hcaptured hdelivered hremoved =>
    rwa [Marked, hrows, hremoved]

/-! ## Where rows come from -/

theorem Sourced.quiet (h : Sourced s) (hquiet : Quiet s u) : Sourced u := by
  have hcap : ∀ r, u.IsCaptured r ↔ s.IsCaptured r := fun r => by
    rw [IsCaptured, IsCaptured, hquiet.captured]
  constructor
  · exact hquiet.rows ▸ h.rows_distinct
  · intro r hr
    exact (hcap r).mpr (h.rows_captured r (hquiet.rows ▸ hr))
  · intro r hr
    exact (hcap r).mpr (h.removed_captured r (hquiet.removed ▸ hr))
  · rw [hquiet.removed, hquiet.rows]
    exact h.removed_gone
  · intro l f' hf' r hr
    rcases hquiet.comes l f' hf' with ⟨-, hnil⟩ | ⟨f, hf, -, hbatch⟩
    · simp [hnil] at hr
    · exact (hcap r).mpr (h.batch_captured l f hf r (hbatch hr))
  · intro d hd
    exact (hcap _).mpr (h.delivered_captured d (hquiet.delivered ▸ hd))

/-- A captured message has an id of its own. -/
theorem IsCaptured.id_ne {row : Row} (h : s.IsCaptured r)
    (hdistinct : ((s.captured ++ [row]).map (·.id)).Nodup) : r.id ≠ row.id := by
  obtain ⟨c, hc, hcontent⟩ := h
  rw [List.map_append, List.nodup_append] at hdistinct
  rw [Row.id_eq_of_content_eq hcontent]
  exact hdistinct.2.2 c.id (List.mem_map_of_mem hc) row.id (by simp)

theorem Sourced.capture {row : Row} (h : Sourced s)
    (hdistinct : ((s.captured ++ [row]).map (·.id)).Nodup)
    (hrows : u.repository.rows = s.repository.rows ++ [row])
    (hcaptured : u.captured = s.captured ++ [row]) (hdelivered : u.delivered = s.delivered)
    (hremoved : u.removed = s.removed) (hforwarder : ∀ k, u.forwarder? k = s.forwarder? k) :
    Sourced u := by
  have hcap : ∀ r, s.IsCaptured r → u.IsCaptured r := by
    rintro r ⟨c, hc, hcontent⟩
    exact ⟨c, hcaptured ▸ List.mem_append_left _ hc, hcontent⟩
  constructor
  · have hnew : row.id ∉ s.repository.rows.map (·.id) := fun hmem => by
      obtain ⟨r, hr, hid⟩ := List.mem_map.mp hmem
      exact (h.rows_captured r hr).id_ne hdistinct hid
    rw [hrows, List.map_append, List.map_singleton, ← List.concat_eq_append]
    exact h.rows_distinct.concat hnew
  · intro r hr
    rw [hrows, List.mem_append, List.mem_singleton] at hr
    rcases hr with hr | rfl
    · exact hcap r (h.rows_captured r hr)
    · exact ⟨r, by simp [hcaptured], rfl⟩
  · intro r hr
    exact hcap r (h.removed_captured r (hremoved ▸ hr))
  · intro r hr q hq
    rw [hremoved] at hr
    rw [hrows, List.mem_append, List.mem_singleton] at hq
    rcases hq with hq | rfl
    · exact h.removed_gone r hr q hq
    · exact ((h.removed_captured r hr).id_ne hdistinct).symm
  · intro l f hf r hr
    exact hcap r (h.batch_captured l f (hforwarder l ▸ hf) r hr)
  · intro d hd
    exact hcap _ (h.delivered_captured d (hdelivered ▸ hd))

theorem Sourced.call {call : RepositoryCall} (h : Sourced s) (hmoves : Moves s u l f f')
    (hupdates : Repository.Updates call s.clock s.repository.rows u.repository.rows)
    (hcaptured : u.captured = s.captured) (hdelivered : u.delivered = s.delivered)
    (hremoved : u.removed = s.removed ++ leftOut s.repository.rows u.repository.rows)
    (hbatch : f'.batch ⊆ s.repository.rows) : Sourced u := by
  have hcap : ∀ r, u.IsCaptured r ↔ s.IsCaptured r := fun r => by
    rw [IsCaptured, IsCaptured, hcaptured]
  constructor
  · exact hupdates.ids_sublist.nodup h.rows_distinct
  · intro r' hr'
    obtain ⟨r, hr, hchange⟩ := hupdates.source hr'
    rw [hcap, IsCaptured, hchange.content_eq]
    exact h.rows_captured r hr
  · intro r hr
    rw [hremoved, List.mem_append] at hr
    rcases hr with hr | hr
    · exact (hcap r).mpr (h.removed_captured r hr)
    · exact (hcap r).mpr (h.rows_captured r (List.mem_of_mem_filter hr))
  · intro r hr q' hq'
    rw [hremoved, List.mem_append] at hr
    rcases hr with hr | hr
    · obtain ⟨q, hq, hchange⟩ := hupdates.source hq'
      exact hchange.id_eq ▸ h.removed_gone r hr q hq
    · have hgone := (List.mem_filter.mp hr).2
      simp only [Bool.not_eq_true', List.any_eq_false, beq_iff_eq] at hgone
      exact hgone q' hq'
  · intro k g hg r hr
    rcases hmoves.eq_or_stayed hg with ⟨-, rfl⟩ | ⟨-, hg⟩
    · exact (hcap r).mpr (h.rows_captured r (hbatch hr))
    · exact (hcap r).mpr (h.batch_captured k g hg r hr)
  · intro d hd
    exact (hcap _).mpr (h.delivered_captured d (hdelivered ▸ hd))

theorem Sourced.deliver {row : Row} (h : Sourced s) (hmoves : Moves s u l f f')
    (hrows : u.repository.rows = s.repository.rows) (hcaptured : u.captured = s.captured)
    (hdelivered : u.delivered = s.delivered ++ [⟨l, row⟩]) (hremoved : u.removed = s.removed)
    (hrow : row ∈ f.batch) (hbatch : f'.batch ⊆ f.batch) : Sourced u := by
  have hcap : ∀ r, u.IsCaptured r ↔ s.IsCaptured r := fun r => by
    rw [IsCaptured, IsCaptured, hcaptured]
  have hbatch_captured := h.batch_captured l f hmoves.before
  constructor
  · exact hrows ▸ h.rows_distinct
  · intro r hr
    exact (hcap r).mpr (h.rows_captured r (hrows ▸ hr))
  · intro r hr
    exact (hcap r).mpr (h.removed_captured r (hremoved ▸ hr))
  · rw [hremoved, hrows]
    exact h.removed_gone
  · intro k g hg r hr
    rcases hmoves.eq_or_stayed hg with ⟨-, rfl⟩ | ⟨-, hg⟩
    · exact (hcap r).mpr (hbatch_captured r (hbatch hr))
    · exact (hcap r).mpr (h.batch_captured k g hg r hr)
  · intro d hd
    rw [hdelivered, List.mem_append, List.mem_singleton] at hd
    rcases hd with hd | rfl
    · exact (hcap _).mpr (h.delivered_captured d hd)
    · exact (hcap _).mpr (hbatch_captured row hrow)

theorem Sourced.step (h : Sourced s) (hdistinct : (u.captured.map (·.id)).Nodup)
    (hstep : Step s e u) : Sourced u := by
  cases hstep.effect with
  | quiet hquiet => exact h.quiet hquiet
  | captured row hrows hcaptured hdelivered hremoved hforwarder =>
    exact h.capture (hcaptured ▸ hdistinct) hrows hcaptured hdelivered hremoved hforwarder
  | called l f f' call hmoves hlive hupdates hcaptured hdelivered hremoved hread =>
    refine h.call hmoves hupdates hcaptured hdelivered hremoved ?_
    rcases hread with hnil | ⟨inst, -, -, hfound⟩
    · simp [hnil]
    · exact hfound ▸ (Repository.leasedRows_sublist _ _ _ _).subset
  | delivered l f f' row hmoves hrows hcaptured hdelivered hremoved hclock hstage hrow
      hbatch =>
    exact h.deliver hmoves hrows hcaptured hdelivered hremoved hrow hbatch

/-! ## What marks a row -/

/-- What is marked was captured. -/
theorem Sourced.marked_captured (h : Sourced s) (hmarked : s.Marked id) :
    ∃ r, s.IsCaptured r ∧ r.id = id := by
  rcases hmarked with ⟨r, hr, hid, -⟩ | ⟨r, hr, hid, -⟩
  · exact ⟨r, h.rows_captured r hr, hid⟩
  · exact ⟨r, h.removed_captured r hr, hid⟩

/-- A capture marks nothing, but the row may come marked. -/
theorem marked_of_capture {row : Row} (hrows : u.repository.rows = s.repository.rows ++ [row])
    (hremoved : u.removed = s.removed) (hmarked : u.Marked id) :
    s.Marked id ∨ row.id = id ∧ row.isSent = true := by
  rw [Marked, hrows, hremoved] at hmarked
  rcases hmarked with ⟨r, hr, hrow⟩ | hgone
  · rw [List.mem_append, List.mem_singleton] at hr
    rcases hr with hr | rfl
    · exact .inl (.inl ⟨r, hr, hrow⟩)
    · exact .inr hrow
  · exact .inl (.inr hgone)

/-- **A row that is marked now was marked before, or a confirmation names it.** -/
theorem marked_of_call {call : RepositoryCall}
    (hupdates : Repository.Updates call s.clock s.repository.rows u.repository.rows)
    (hremoved : u.removed = s.removed ++ leftOut s.repository.rows u.repository.rows)
    (hmarked : u.Marked id) : s.Marked id ∨ ∃ ids, call = .updateToSent ids ∧ id ∈ ids := by
  rcases hmarked with ⟨r', hr', rfl, hsent⟩ | ⟨r, hr, hrow⟩
  · obtain ⟨r, hr, hchange⟩ := hupdates.source hr'
    rw [hchange.id_eq]
    exact (hchange.marked hsent).imp_left fun hold => .inl ⟨r, hr, rfl, hold⟩
  · rw [hremoved, List.mem_append] at hr
    rcases hr with hr | hr
    · exact .inl (.inr ⟨r, hr, hrow⟩)
    · exact .inl (.inl ⟨r, List.mem_of_mem_filter hr, hrow⟩)

/-- **A confirmation marks every captured row that it names.** -/
theorem Accounted.marked_of_confirmation {ids : List RowId} (h : Accounted s)
    (hmarked : s.Marked id → u.Marked id)
    (hupdates : Repository.Updates (.updateToSent ids) s.clock s.repository.rows u.repository.rows)
    (hcaptured : s.IsCaptured r) (hid : r.id = id) (hmem : id ∈ ids) : u.Marked id := by
  obtain ⟨c, hc, hcontent⟩ := hcaptured
  have hcid : c.id = id := (Row.id_eq_of_content_eq hcontent).symm.trans hid
  rcases h.present c hc with ⟨q, hq, hrow⟩ | hold
  · have hqid : q.id = id := (Row.id_eq_of_content_eq hrow).trans hcid
    cases hunsent : q.isSent with
    | true => exact hmarked (.inl ⟨q, hq, hqid, hunsent⟩)
    | false =>
      obtain ⟨q', hq', hchange⟩ := hupdates.target hq hunsent
      exact .inl ⟨q', hq', hchange.id_eq.trans hqid, hchange.isSent_of_mem (hqid ▸ hmem)⟩
  · exact hmarked (hcid ▸ hold)

/-! ## Steps -/

theorem Accounted.quiet (h : Accounted s) (hsourced : Sourced u) (hquiet : Quiet s u) :
    Accounted u := by
  have hmarked : ∀ id, u.Marked id ↔ s.Marked id := fun id => by
    rw [Marked, Marked, hquiet.rows, hquiet.removed]
  refine ⟨hsourced, ?_, ?_, ?_, ?_⟩
  · intro c hc
    rw [hquiet.rows, hmarked]
    exact h.present c (hquiet.captured ▸ hc)
  · intro l f' hf' id hid
    rw [hquiet.delivered]
    rcases hquiet.comes l f' hf' with ⟨hnil, -⟩ | ⟨f, hf, hsent, -⟩
    · simp [hnil] at hid
    · exact h.sent_delivered l f hf id (hsent ▸ hid)
  · intro c hc hunsent hmark
    rw [IsDelivered, hquiet.delivered]
    exact h.marked_delivered c (hquiet.captured ▸ hc) hunsent ((hmarked _).mp hmark)
  · intro d hd
    rw [hquiet.delivered] at hd
    obtain ⟨f, hf, hkept⟩ := h.kept d hd
    obtain ⟨f', hf', hsent, -⟩ := hquiet.keeps _ f hf
    exact ⟨f', hf', by rwa [hsent, hmarked]⟩

theorem Accounted.capture {row : Row} (h : Accounted s) (hsourced : Sourced u)
    (hdistinct : (u.captured.map (·.id)).Nodup) (hmarked : ∀ id, s.Marked id → u.Marked id)
    (hrows : u.repository.rows = s.repository.rows ++ [row])
    (hcaptured : u.captured = s.captured ++ [row]) (hdelivered : u.delivered = s.delivered)
    (hremoved : u.removed = s.removed) (hforwarder : ∀ k, u.forwarder? k = s.forwarder? k) :
    Accounted u := by
  rw [hcaptured] at hdistinct
  refine ⟨hsourced, ?_, ?_, ?_, ?_⟩
  · intro c hc
    rw [hcaptured, List.mem_append, List.mem_singleton] at hc
    rw [hrows]
    rcases hc with hc | rfl
    · refine (h.present c hc).imp ?_ (hmarked _)
      rintro ⟨r, hr, hcontent⟩
      exact ⟨r, List.mem_append_left _ hr, hcontent⟩
    · exact .inl ⟨c, by simp, rfl⟩
  · intro l f hf id hid
    rw [hdelivered]
    exact h.sent_delivered l f (hforwarder l ▸ hf) id hid
  · intro c hc hunsent hmark
    rw [hcaptured, List.mem_append, List.mem_singleton] at hc
    rw [IsDelivered, hdelivered]
    rcases marked_of_capture hrows hremoved hmark with hold | ⟨hid, hsent⟩
    · rcases hc with hc | rfl
      · exact h.marked_delivered c hc hunsent hold
      · -- Nothing that was captured before has the id of the new row.
        obtain ⟨r, hr, hid⟩ := h.marked_captured hold
        exact absurd hid (hr.id_ne hdistinct)
    · rcases hc with hc | rfl
      · exact absurd hid.symm (IsCaptured.id_ne ⟨c, hc, rfl⟩ hdistinct)
      · simp [hunsent] at hsent
  · intro d hd
    rw [hdelivered] at hd
    obtain ⟨f, hf, hkept⟩ := h.kept d hd
    exact ⟨f, (hforwarder _).trans hf, hkept.imp_right (hmarked _)⟩

theorem Accounted.call {call : RepositoryCall} (h : Accounted s) (hsourced : Sourced u)
    (hdistinct : (s.captured.map (·.id)).Nodup) (hmarked : ∀ id, s.Marked id → u.Marked id)
    (hmoves : Moves s u l f f')
    (hupdates : Repository.Updates call s.clock s.repository.rows u.repository.rows)
    (hcaptured : u.captured = s.captured) (hdelivered : u.delivered = s.delivered)
    (hremoved : u.removed = s.removed ++ leftOut s.repository.rows u.repository.rows)
    (hsent : f'.sent = f.sent ∧ (∀ ids, call ≠ .updateToSent ids) ∨
      f'.sent = [] ∧ call = .updateToSent f.sent) : Accounted u := by
  refine ⟨hsourced, ?_, ?_, ?_, ?_⟩
  · intro c hc
    rw [hcaptured] at hc
    rcases h.present c hc with ⟨r, hr, hcontent⟩ | hold
    · cases hrow : r.isSent with
      | true => exact .inr (hmarked _ (.inl ⟨r, hr, Row.id_eq_of_content_eq hcontent, hrow⟩))
      | false =>
        obtain ⟨r', hr', hchange⟩ := hupdates.target hr hrow
        exact .inl ⟨r', hr', hchange.content_eq.trans hcontent⟩
    · exact .inr (hmarked _ hold)
  · intro k g hg id hid
    rw [hdelivered]
    rcases hmoves.eq_or_stayed hg with ⟨rfl, rfl⟩ | ⟨-, hg⟩
    · rcases hsent with ⟨hsame, -⟩ | ⟨hnil, -⟩
      · exact h.sent_delivered k f hmoves.before id (hsame ▸ hid)
      · simp [hnil] at hid
    · exact h.sent_delivered k g hg id hid
  · intro c hc hunsent hnow
    rw [hcaptured] at hc
    rw [IsDelivered, hdelivered]
    rcases marked_of_call hupdates hremoved hnow with hold | ⟨ids, hids, hmem⟩
    · exact h.marked_delivered c hc hunsent hold
    · -- Whatever this forwarder confirms, it has delivered.
      obtain ⟨rfl, -⟩ := eq_sent_of_confirmation hsent hids
      obtain ⟨d, hd, -, hid⟩ := h.sent_delivered l f hmoves.before c.id hmem
      exact ⟨d, hd, (h.delivered_captured d hd).content_eq hdistinct hc hid⟩
  · intro d hd
    rw [hdelivered] at hd
    refine hmoves.keeps (fun _ hkept => ?_)
      ((h.kept d hd).imp fun g hkept => hkept.imp_right (Or.imp_right (hmarked _)))
    rcases hkept with hmem | hold
    · rcases hsent with ⟨hsame, -⟩ | ⟨-, rfl⟩
      · exact .inl (hsame ▸ hmem)
      · exact .inr (h.marked_of_confirmation (hmarked _) hupdates (h.delivered_captured d hd) rfl
          hmem)
    · exact .inr hold

theorem Accounted.deliver {row : Row} (h : Accounted s) (hsourced : Sourced u)
    (hmoves : Moves s u l f f')
    (hrows : u.repository.rows = s.repository.rows) (hcaptured : u.captured = s.captured)
    (hdelivered : u.delivered = s.delivered ++ [⟨l, row⟩]) (hremoved : u.removed = s.removed)
    (hsent : f'.sent = f.sent ++ [row.id]) : Accounted u := by
  have hmarked : ∀ id, u.Marked id ↔ s.Marked id := fun id => by
    rw [Marked, Marked, hrows, hremoved]
  have hold : ∀ d ∈ s.delivered, d ∈ u.delivered := fun d hd =>
    hdelivered ▸ List.mem_append_left _ hd
  refine ⟨hsourced, ?_, ?_, ?_, ?_⟩
  · intro c hc
    rw [hrows, hmarked]
    exact h.present c (hcaptured ▸ hc)
  · intro k g hg id hid
    rcases hmoves.eq_or_stayed hg with ⟨rfl, rfl⟩ | ⟨-, hg⟩
    · rw [hsent, List.mem_append, List.mem_singleton] at hid
      rcases hid with hid | rfl
      · obtain ⟨d, hd, hrow⟩ := h.sent_delivered k f hmoves.before id hid
        exact ⟨d, hold d hd, hrow⟩
      · exact ⟨⟨k, row⟩, by simp [hdelivered], rfl, rfl⟩
    · obtain ⟨d, hd, hrow⟩ := h.sent_delivered k g hg id hid
      exact ⟨d, hold d hd, hrow⟩
  · intro c hc hunsent hmark
    obtain ⟨d, hd, hcontent⟩ :=
      h.marked_delivered c (hcaptured ▸ hc) hunsent ((hmarked _).mp hmark)
    exact ⟨d, hold d hd, hcontent⟩
  · intro d hd
    rw [hdelivered, List.mem_append, List.mem_singleton] at hd
    rw [hmarked]
    rcases hd with hd | rfl
    · refine hmoves.keeps (fun _ hkept => hkept.imp_left fun hmem => ?_) (h.kept d hd)
      exact hsent ▸ List.mem_append_left _ hmem
    · exact ⟨f', hmoves.moved, .inl (by simp [hsent])⟩

/-- Every step keeps the accounts in order. -/
theorem Accounted.step (h : Accounted s) (hdistinct : (u.captured.map (·.id)).Nodup)
    (hstep : Step s e u) : Accounted u := by
  have hsourced := h.toSourced.step hdistinct hstep
  have hmarked : ∀ id, s.Marked id → u.Marked id := fun id =>
    hstep.effect.marked h.rows_distinct
  cases hstep.effect with
  | quiet hquiet => exact h.quiet hsourced hquiet
  | captured row hrows hcaptured hdelivered hremoved hforwarder =>
    exact h.capture hsourced hdistinct hmarked hrows hcaptured hdelivered hremoved hforwarder
  | called l f f' call hmoves hlive hupdates hcaptured hdelivered hremoved hread hsent =>
    exact h.call hsourced (hcaptured ▸ hdistinct) hmarked hmoves hupdates hcaptured hdelivered
      hremoved hsent
  | delivered l f f' row hmoves hrows hcaptured hdelivered hremoved hclock hstage hrow
      hbatch hsent =>
    exact h.deliver hsourced hmoves hrows hcaptured hdelivered hremoved hsent

/-! ## Runs -/

variable {es : List (Event β)} {clock : Instant} {repository : Repository}
variable {members : List (OutboxSettings × String)}

/-- Nothing captured is forgotten. -/
theorem captured_prefix_of_run (hrun : Run Step s es t) : s.captured <+: t.captured :=
  hrun.invariant (fun u => s.captured <+: u.captured) (List.prefix_refl _)
    fun _ _ _ h hstep => h.trans hstep.effect.captured_prefix

theorem forwarder?_initial (k : Place) :
    (initial clock repository members : Fleet β).forwarder? k = none := by
  cases h : members[k.task]? <;> simp [forwarder?, initial, SendingTask.forwarder?, h]

/-- At first everything that was captured is in the repository. -/
theorem Accounted.initial (hdistinct : (repository.rows.map (·.id)).Nodup) :
    Accounted (initial clock repository members : Fleet β) where
  rows_distinct := hdistinct
  rows_captured r hr := ⟨r, hr, rfl⟩
  removed_captured r hr := absurd hr List.not_mem_nil
  removed_gone r hr := absurd hr List.not_mem_nil
  batch_captured l f hf := by simp [forwarder?_initial] at hf
  delivered_captured d hd := absurd hd List.not_mem_nil
  present c hc := .inl ⟨c, hc, rfl⟩
  sent_delivered l f hf := by simp [forwarder?_initial] at hf
  marked_delivered c hc hunsent hmark := by
    rcases hmark with ⟨r, hr, hid, hsent⟩ | ⟨r, hr, -⟩
    · obtain rfl : r = c := eq_of_id_eq hdistinct hr hc hid
      simp [hunsent] at hsent
    · exact absurd hr List.not_mem_nil
  kept d hd := absurd hd List.not_mem_nil

/-- A run with distinct ids keeps the accounts in order. -/
theorem Accounted.run (h : Accounted s) (hrun : Run Step s es t)
    (hdistinct : (t.captured.map (·.id)).Nodup) : Accounted t := by
  refine hrun.invariant (fun s => (s.captured.map (·.id)).Nodup → Accounted s)
    (fun _ => h) (fun s e u hs hstep hu => ?_) hdistinct
  exact (hs (hu.sublist (hstep.effect.captured_prefix.sublist.map _))).step hu hstep

/-- In every run with distinct ids the accounts are in order. -/
theorem Accounted.of_run (hrun : Run Step (Fleet.initial clock repository members) es t)
    (hdistinct : (t.captured.map (·.id)).Nodup) : Accounted t := by
  have hfirst := captured_prefix_of_run hrun
  exact (Accounted.initial (hdistinct.sublist (hfirst.sublist.map _))).run hrun hdistinct

/-- **At-least-once accounting.**  Whatever is forwarded with whatever result, and whatever calls
fail, a captured row stays in the repository unsent until some forwarder has delivered its message;
and what a forwarder has delivered is marked sent, or the forwarder still keeps its id for the next
confirmation. -/
theorem at_least_once (hrun : Run Step (Fleet.initial clock repository members) es t)
    (hdistinct : (t.captured.map (·.id)).Nodup) :
    (∀ c ∈ t.captured, c.isSent = false → (∀ d ∈ t.delivered, d.row.content ≠ c.content) →
      ∃ r ∈ t.repository.rows, r.content = c.content ∧ r.isSent = false) ∧
    (∀ d ∈ t.delivered, ∃ f, t.forwarder? d.place = some f ∧
      (d.row.id ∈ f.sent ∨
        (∃ r ∈ t.repository.rows, r.id = d.row.id ∧ r.isSent = true) ∨
        (∃ r ∈ t.removed, r.id = d.row.id ∧ r.isSent = true))) := by
  have h := Accounted.of_run hrun hdistinct
  constructor
  · intro c hc hunsent hdue
    have hfree : ¬t.Marked c.id := fun hmark => by
      obtain ⟨d, hd, hcontent⟩ := h.marked_delivered c hc hunsent hmark
      exact hdue d hd hcontent
    obtain ⟨r, hr, hcontent⟩ := (h.present c hc).resolve_right hfree
    refine ⟨r, hr, hcontent, ?_⟩
    by_contra hsent
    exact hfree (.inl ⟨r, hr, Row.id_eq_of_content_eq hcontent, by simpa using hsent⟩)
  · exact h.kept

/-- A row whose confirmation failed is kept, and it is still in the repository. -/
theorem at_least_once_unconfirmed : ∃ t,
    single.run? (opening ⟨0, 0⟩ ++ closing ⟨0, 0⟩ (some (.repository "down"))) = some t ∧
    t.delivered.map (·.row.id) = [⟨1⟩] ∧
    (∀ c ∈ t.captured, c.isSent = false → (∀ d ∈ t.delivered, d.row.content ≠ c.content) →
      ∃ r ∈ t.repository.rows, r.content = c.content ∧ r.isSent = false) ∧
    (∀ d ∈ t.delivered, ∃ f, t.forwarder? d.place = some f ∧
      (d.row.id ∈ f.sent ∨
        (∃ r ∈ t.repository.rows, r.id = d.row.id ∧ r.isSent = true) ∨
        (∃ r ∈ t.removed, r.id = d.row.id ∧ r.isSent = true))) := by
  generalize hrun : single.run? _ = end?
  have hids : end?.map (fun t => (t.captured.map (·.id), t.delivered.map (·.row.id))) =
      some ([⟨1⟩], [⟨1⟩]) := by
    subst hrun
    decide
  obtain ⟨t, rfl, hpair⟩ := Option.map_eq_some_iff.mp hids
  obtain ⟨hcaptured, hdelivered⟩ := Prod.mk.inj hpair
  exact ⟨t, rfl, hdelivered, at_least_once (run_of_run? hrun) (by simp [hcaptured])⟩

end Fleet
end Courier
