import Courier.Proofs.Outbox.Forwarding
import Courier.Proofs.Outbox.Leases

/-!
# One forwarder and its leases

While nothing fails, a forwarder deals with one batch at a time: it confirms what it has forwarded
before it reads or leases anything else.  `Holding` says what holds of its leases meanwhile.  The
rows of the batch come in the order of their leases, and a row that is in flight or waits for its
confirmation is held at least for the buffer, counted from the last check.

The check of one row is enough for all rows before it, for their leases are no shorter.  That is how
`Holding.decide` carries the buffer along the batch.
-/

namespace Courier

variable {β : Type} {rows : List Row} {clock now checked : Instant} {settings : OutboxSettings}
variable {a : String} {f f' : Forwarder β} {r row : Row} {call : RepositoryCall}

/-- What holds of a forwarder of the instance `a` and its leases in a repository with these rows;
`checked` is the time of its last lease check. -/
structure Holding (rows : List Row) (clock : Instant) (settings : OutboxSettings) (a : String)
    (checked : Instant) (f : Forwarder β) : Prop where
  /-- A lease that it asks for is the longest one. -/
  asking : ∀ expires, f.stage = .locking expires →
    (∀ r ∈ rows, ∀ e, r.Held a e → e ≤ expires) ∧ expires ≤ clock.add settings.lockExpiration
  busy : f.sent ≠ [] → f.isBusy = true
  batch_order : Repository.LeaseOrder a f.batch
  batch_distinct : (f.batch.map (·.id)).Nodup
  /-- The rows of the batch are in the repository as they were read until their leases run out. -/
  batch_held : ∀ r ∈ f.batch, ∃ e, r.Held a e ∧ (clock ≤ e → r ∈ rows)
  batch_due : ∀ r ∈ f.batch, r.id ∉ f.sent
  /-- A row in flight has passed the check. -/
  flight : ∀ idle bus row rest, f.stage = .forwarding idle bus row rest →
    ∀ e, row.Held a e → checked.add settings.lockExpirationBuffer ≤ e
  /-- What is to be confirmed is held at least for the buffer, and at least as long as what is left
  of the batch. -/
  sent_held : ∀ id ∈ f.sent, ∃ r ∈ rows, r.id = id ∧ ∃ e, r.Held a e ∧
    checked.add settings.lockExpirationBuffer ≤ e ∧ ∀ q ∈ f.batch, ∀ d, q.Held a d → d ≤ e

/-- A lease that passes the check lasts for the buffer from now on. -/
theorem le_of_leaseSuffices {e : Instant} (h : Forwarder.leaseSuffices settings now r = true)
    (hheld : r.Held a e) : now.add settings.lockExpirationBuffer ≤ e := by
  simpa [Forwarder.leaseSuffices, hheld.2.2] using h

namespace Holding

/-- A forwarder that has nothing in hand. -/
theorem of_idle (hstage : f.isWaiting = false) (hsent : f.sent = []) (hbatch : f.batch = []) :
    Holding rows clock settings a checked f where
  asking expires h := by simp [Forwarder.isWaiting_of_locking h] at hstage
  busy h := absurd hsent h
  batch_order := by simp [hbatch, Repository.LeaseOrder]
  batch_distinct := by simp [hbatch]
  batch_held := by simp [hbatch]
  batch_due := by simp [hbatch]
  flight idle bus row rest h := by simp [Forwarder.isWaiting_of_forwarding h] at hstage
  sent_held := by simp [hsent]

/-- A forwarder that drops rows from the front of its batch and is still busy with the others. -/
theorem of_suffix (h : Holding rows clock settings a checked f) (hsent : f'.sent = f.sent)
    (hbatch : f'.batch <:+ f.batch) (hbusy : f.sent ≠ [] → f'.isBusy = true)
    (hstage : f'.isWaiting = false) : Holding rows clock settings a checked f' where
  asking expires h := by simp [Forwarder.isWaiting_of_locking h] at hstage
  busy hne := hbusy (hsent ▸ hne)
  batch_order := h.batch_order.sublist hbatch.sublist
  batch_distinct := h.batch_distinct.sublist (hbatch.sublist.map _)
  batch_held r hr := h.batch_held r (hbatch.subset hr)
  batch_due r hr := hsent ▸ h.batch_due r (hbatch.subset hr)
  flight idle bus row rest h := by simp [Forwarder.isWaiting_of_forwarding h] at hstage
  sent_held id hid := by
    obtain ⟨r, hr, hrid, e, hheld, hchecked, hrest⟩ := h.sent_held id (hsent ▸ hid)
    exact ⟨r, hr, hrid, e, hheld, hchecked, fun q hq => hrest q (hbatch.subset hq)⟩

/-! ## What happens around the forwarder -/

/-- Time passes. -/
theorem later (h : Holding rows clock settings a checked f) (hclock : clock ≤ now)
    (hleases : clock.add settings.lockExpiration ≤ now.add settings.lockExpiration) :
    Holding rows now settings a checked f where
  asking expires hstage := (h.asking expires hstage).imp_right fun hle => hle.trans hleases
  busy := h.busy
  batch_order := h.batch_order
  batch_distinct := h.batch_distinct
  batch_held r hr := by
    obtain ⟨e, hheld, hthere⟩ := h.batch_held r hr
    exact ⟨e, hheld, fun hnow => hthere (hclock.trans hnow)⟩
  batch_due := h.batch_due
  flight := h.flight
  sent_held := h.sent_held

/-- A message is captured. -/
theorem capture (h : Holding rows clock settings a checked f) (hfree : row.lockInstance = none) :
    Holding (rows ++ [row]) clock settings a checked f where
  asking expires hstage := by
    obtain ⟨hlongest, hle⟩ := h.asking expires hstage
    refine ⟨fun r hr e hheld => ?_, hle⟩
    rw [List.mem_append, List.mem_singleton] at hr
    rcases hr with hr | rfl
    · exact hlongest r hr e hheld
    · exact absurd (hfree.symm.trans hheld.2.1) nofun
  busy := h.busy
  batch_order := h.batch_order
  batch_distinct := h.batch_distinct
  batch_held r hr := by
    obtain ⟨e, hheld, hthere⟩ := h.batch_held r hr
    exact ⟨e, hheld, fun hnow => List.mem_append_left _ (hthere hnow)⟩
  batch_due := h.batch_due
  flight := h.flight
  sent_held id hid := by
    obtain ⟨r, hr, hrow⟩ := h.sent_held id hid
    exact ⟨r, List.mem_append_left _ hr, hrow⟩

/-- The call of another instance is carried out, while the last check is not older than the
buffer. -/
theorem call_of_other {old new : List Row} (h : Holding old clock settings a checked f)
    (hupdates : Repository.Updates call clock old new) (hother : ∀ b ∈ call.instance?, a ≠ b)
    (hids : ∀ ids, call = .updateToSent ids → ∀ r ∈ old, ∀ e, r.Held a e → r.id ∉ ids)
    (hpunctual : f.sent ≠ [] → clock ≤ checked.add settings.lockExpirationBuffer) :
    Holding new clock settings a checked f where
  asking expires hstage := by
    obtain ⟨hlongest, hle⟩ := h.asking expires hstage
    refine ⟨fun r' hr' e hheld => ?_, hle⟩
    obtain ⟨r, hr, hchange⟩ := hupdates.source hr'
    rcases hchange.held_before hheld with hold | rfl
    · exact hlongest r hr e hold
    · exact absurd rfl (hother a rfl)
  busy := h.busy
  batch_order := h.batch_order
  batch_distinct := h.batch_distinct
  batch_held r hr := by
    obtain ⟨e, hheld, hthere⟩ := h.batch_held r hr
    refine ⟨e, hheld, fun hnow => ?_⟩
    exact hupdates.mem_of_held (hthere hnow) hheld hnow hother
      fun ids hcall => hids ids hcall r (hthere hnow) e hheld
  batch_due := h.batch_due
  flight := h.flight
  sent_held id hid := by
    obtain ⟨r, hr, hrid, e, hheld, hchecked, hrest⟩ := h.sent_held id hid
    have hnow : clock ≤ e := (hpunctual (List.ne_nil_of_mem hid)).trans hchecked
    refine ⟨r, ?_, hrid, e, hheld, hchecked, hrest⟩
    exact hupdates.mem_of_held hr hheld hnow hother fun ids hcall => hids ids hcall r hr e hheld

/-! ## Moves of the forwarder -/

variable {v : Forwarder.View β} {next : Option Instant}

/-- **A decision.**  If the next row passes the check, its lease and all leases before it last for
the buffer from now on. -/
theorem decide (h : Holding rows v.now v.settings a checked f)
    (hhorizon : ∀ r ∈ rows, ∀ e, r.Held a e → e ≤ v.now.add v.settings.lockExpiration) :
    Holding rows v.now v.settings a (if f.passesCheck v then v.now else checked)
      (f.decide v next).1 where
  asking expires hstage := by
    rcases Forwarder.locking_of_decide hstage with hold | rfl
    · exact h.asking expires hold
    · exact ⟨hhorizon, le_refl _⟩
  busy hne := by
    rw [Forwarder.sent_decide] at hne
    exact Forwarder.isBusy_decide (h.busy hne) hne
  batch_order := h.batch_order.sublist Forwarder.batch_decide_suffix.sublist
  batch_distinct := h.batch_distinct.sublist (Forwarder.batch_decide_suffix.sublist.map _)
  batch_held r hr := h.batch_held r (Forwarder.batch_decide_suffix.subset hr)
  batch_due r hr := by
    rw [Forwarder.sent_decide]
    exact h.batch_due r (Forwarder.batch_decide_suffix.subset hr)
  flight idle bus row rest hstage e hheld := by
    rcases Forwarder.forwarding_of_decide hstage with hold | ⟨hsending, hlive, hsuffices⟩
    · simpa [Forwarder.passesCheck, hold] using h.flight idle bus row rest hold e hheld
    · simpa [Forwarder.passesCheck, hsending, hlive, hsuffices] using
        le_of_leaseSuffices hsuffices hheld
  sent_held id hid := by
    rw [Forwarder.sent_decide] at hid
    obtain ⟨r, hr, hrid, e, hheld, hchecked, hrest⟩ := h.sent_held id hid
    refine ⟨r, hr, hrid, e, hheld, ?_, fun q hq =>
      hrest q (Forwarder.batch_decide_suffix.subset hq)⟩
    split
    · next hpasses =>
      obtain ⟨row, rest, hbatch, hsuffices⟩ := Forwarder.batch_of_passesCheck hpasses
      have hrow : row ∈ f.batch := by simp [hbatch]
      obtain ⟨d, hd, -⟩ := h.batch_held row hrow
      exact (le_of_leaseSuffices hsuffices hd).trans (hrest row hrow d hd)
    · exact hchecked

/-- **A call of the forwarder itself** leaves nothing to confirm, and a batch that it reads comes in
the order of leases. -/
theorem call_of_self {old new : List Row} {answer : RepositoryAnswer} {n : Nat}
    (h : Holding old clock settings a checked f) (hcall : f.call? a = some call)
    (horder : Repository.LeaseOrder a old) (hdistinct : (old.map (·.id)).Nodup)
    (hsent : (f.answered answer).sent = f.sent ∧ (∀ ids, call ≠ .updateToSent ids) ∨
      (f.answered answer).sent = [] ∧ call = .updateToSent f.sent)
    (hread : (f.answered answer).batch = [] ∨
      new = old ∧ (f.answered answer).batch = Repository.leasedRows a clock n old) :
    (f.answered answer).sent = [] ∧
      Holding new clock settings a checked (f.answered answer) := by
  have hwaiting := Forwarder.isWaiting_answered hcall answer
  have hnone : (f.answered answer).sent = [] := by
    rcases hsent with ⟨hsame, hother⟩ | ⟨hnil, -⟩
    · by_contra hne
      exact hother f.sent (Forwarder.call?_of_isBusy hcall (h.busy (hsame ▸ hne)))
    · exact hnil
  refine ⟨hnone, ?_⟩
  rcases hread with hnil | ⟨rfl, hfound⟩
  · exact of_idle hwaiting hnone hnil
  · have hsub := Repository.leasedRows_sublist a clock n new
    constructor
    · intro expires hstage
      simp [Forwarder.isWaiting_of_locking hstage] at hwaiting
    · exact fun hne => absurd hnone hne
    · rw [hfound]
      exact horder.sublist hsub
    · rw [hfound]
      exact hdistinct.sublist (hsub.map _)
    · intro r hr
      rw [hfound] at hr
      obtain ⟨e, hheld⟩ := Row.held_of_leasedTo (Repository.leasedTo_of_mem_leasedRows hr)
      exact ⟨e, hheld, fun _ => hsub.subset hr⟩
    · simp [hnone]
    · intro idle bus row rest hstage
      simp [Forwarder.isWaiting_of_forwarding hstage] at hwaiting
    · simp [hnone]

variable {idle : Bool} {bus : β} {rest : List Row}

/-- Forwarding a row has failed. -/
theorem forward_failed (h : Holding rows clock settings a checked f)
    (hstage : f.stage = .forwarding idle bus row rest) (cause : Failure) :
    Holding rows clock settings a checked (f.forwarded idle row rest (.error cause)) := by
  refine h.of_suffix (Forwarder.sent_forwarded_error cause) ?_
    (fun _ => Forwarder.isBusy_forwarded _) (Forwarder.isWaiting_forwarded _)
  rw [Forwarder.batch_of_forwarding hstage]
  exact (Forwarder.batch_forwarded_suffix _).trans (List.suffix_cons _ _)

/-- **A row has been forwarded** while the last check was not older than the buffer: the row is
still in the repository and held, and so it is until the next check. -/
theorem forward_succeeded (h : Holding rows clock settings a checked f)
    (hstage : f.stage = .forwarding idle bus row rest)
    (hpunctual : clock ≤ checked.add settings.lockExpirationBuffer) :
    row ∈ rows ∧ (∃ e, row.Held a e) ∧ row.id ∉ f.sent ∧
      Holding rows clock settings a checked (f.forwarded idle row rest (.ok ())) := by
  have hbatch := Forwarder.batch_of_forwarding hstage
  have hrest : rest ⊆ f.batch := hbatch ▸ List.subset_cons_self row rest
  have hfirst : row ∈ f.batch := by simp [hbatch]
  obtain ⟨e, hheld, hthere⟩ := h.batch_held row hfirst
  have hchecked := h.flight idle bus row rest hstage e hheld
  have hrow : row ∈ rows := hthere (hpunctual.trans hchecked)
  have hdistinct := h.batch_distinct
  have horder := h.batch_order
  rw [hbatch, List.map_cons, List.nodup_cons] at hdistinct
  rw [hbatch, Repository.LeaseOrder, List.pairwise_cons] at horder
  refine ⟨hrow, ⟨e, hheld⟩, h.batch_due row hfirst, ?_⟩
  constructor
  · exact fun expires hlocking => absurd hlocking nofun
  · exact fun _ => rfl
  · exact horder.2
  · exact hdistinct.2
  · exact fun r hr => h.batch_held r (hrest hr)
  · intro r hr hmem
    rcases List.mem_append.mp hmem with hmem | hmem
    · exact h.batch_due r (hrest hr) hmem
    · exact hdistinct.1 (List.mem_singleton.mp hmem ▸ List.mem_map_of_mem hr)
  · exact fun idle bus row rest hforwarding => absurd hforwarding nofun
  · intro id hid
    rcases List.mem_append.mp hid with hid | hid
    · obtain ⟨r, hr, hrid, d, hd, hbuffer, hall⟩ := h.sent_held id hid
      exact ⟨r, hr, hrid, d, hd, hbuffer, fun q hq => hall q (hrest hq)⟩
    · exact ⟨row, hrow, (List.mem_singleton.mp hid).symm, e, hheld, hchecked,
        fun q hq d hd => horder.1 q hq e d hheld hd⟩

end Holding
end Courier
