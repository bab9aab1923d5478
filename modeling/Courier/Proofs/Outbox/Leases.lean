import Courier.Proofs.Outbox.Rows
import Courier.Proofs.Time.Order

/-!
# Leases on rows

A row is held by an instance until some time if the instance has leased it, no matter whether the
lease has run out.  A lease that has not run out is exclusive: a call of another instance leaves the
row as it is (`Change.eq_of_held`).

An instance may hold rows that it leased in different rounds.  It takes rows from the front, and
leases that it asks for later run out later, so rows further back never have the longer lease
(`LeaseOrder`).  This is what makes a check of the next row good for all rows before it.
-/

namespace Courier

namespace Row

variable {r : Row} {a b : String} {d e now expires : Instant}

/-- An instance has leased a row, which is not sent, until `e`. -/
def Held (r : Row) (a : String) (e : Instant) : Prop :=
  r.isSent = false ∧ r.lockInstance = some a ∧ r.lockExpires = some e

/-- A row has at most one holder, and one lease. -/
theorem Held.unique (h : r.Held a d) (h' : r.Held b e) : a = b ∧ d = e :=
  ⟨Option.some.inj (h.2.1.symm.trans h'.2.1), Option.some.inj (h.2.2.symm.trans h'.2.2)⟩

theorem held_of_leasedTo (h : r.leasedTo a now = true) : ∃ e, r.Held a e := by
  obtain ⟨hunsent, hlock, e, hexpires, -⟩ := leasedTo_iff.mp h
  exact ⟨e, hunsent, hlock, hexpires⟩

/-- The holder of a row may lease it again at any time. -/
theorem Held.claimableBy_holder (h : r.Held a e) (now : Instant) :
    r.claimableBy a now = true := by
  simp [claimableBy, h.1, h.2.1]

/-- **Leases are exclusive.**  Another instance may lease a row only after the lease has run out. -/
theorem Held.lt_of_claimableBy (h : r.Held a e) (hne : a ≠ b)
    (hclaim : r.claimableBy b now = true) : e < now := by
  simpa [claimableBy, h.1, h.2.1, h.2.2, hne] using hclaim

theorem held_leased (h : (r.leased b expires).Held a e) : a = b ∧ e = expires :=
  ⟨(Option.some.inj h.2.1).symm, (Option.some.inj h.2.2).symm⟩

end Row

namespace Repository

variable {r r' : Row} {a b : String} {e now expires : Instant} {call : RepositoryCall}
variable {old new rows : List Row}

/-- **A lease comes only from a call for it.** -/
theorem Change.held_before (h : Change call now r r') (hheld : r'.Held a e) :
    r.Held a e ∨ call = .tryToLock a e := by
  cases call with
  | tryToLock inst expires =>
    rcases h with rfl | ⟨-, rfl⟩
    · exact .inl hheld
    · obtain ⟨rfl, rfl⟩ := Row.held_leased hheld
      exact .inr rfl
  | updateToSent ids =>
    by_cases hid : r.id ∈ ids
    · have hrow : r' = r.delivered now := by simpa [Change, hid] using h
      have hunsent := hheld.1
      simp [hrow] at hunsent
    · have hrow : r' = r := by simpa [Change, hid] using h
      exact .inl (hrow ▸ hheld)
  | release inst ids retryAfter =>
    subst h
    split at hheld
    · cases hheld.2.1
    · exact .inl hheld
  | _ => exact .inl ((show r' = r from h) ▸ hheld)

/-- **A call does not touch what another instance holds** under a lease that has not run out, unless
it confirms the row. -/
theorem Change.eq_of_held (h : Change call now r r') (hheld : r.Held a e) (hnow : now ≤ e)
    (hother : ∀ b ∈ call.instance?, a ≠ b) (hids : ∀ ids, call = .updateToSent ids → r.id ∉ ids) :
    r' = r := by
  cases call with
  | tryToLock inst expires =>
    rcases h with rfl | ⟨hclaim, -⟩
    · rfl
    · exact absurd (hheld.lt_of_claimableBy (hother inst rfl) hclaim) (not_lt_of_ge hnow)
  | updateToSent ids => simpa [Change, hids ids rfl] using h
  | release inst ids retryAfter =>
    have hfree : r.leasedTo inst now = false := by
      by_contra hleased
      obtain ⟨e', hheld'⟩ := Row.held_of_leasedTo (by simpa using hleased)
      exact hother inst rfl (hheld.unique hheld').1
    simpa [Change, hfree] using h
  | _ => exact h

/-- Rows further back have no longer lease. -/
def LeaseOrder (a : String) (rows : List Row) : Prop :=
  rows.Pairwise fun r q => ∀ d e, r.Held a d → q.Held a e → e ≤ d

/-- Calls that do not ask for a lease keep the order of leases. -/
theorem LeaseOrder.of_updates (h : LeaseOrder a old) (hupdates : Updates call now old new)
    (hother : ∀ e, call ≠ .tryToLock a e) : LeaseOrder a new := by
  obtain ⟨kept, hsub, -, hchange⟩ := hupdates
  have hkept : LeaseOrder a kept := h.sublist hsub
  have hback : ∀ r r', Change call now r r' → ∀ e, r'.Held a e → r.Held a e :=
    fun r r' hrow e hheld => (hrow.held_before hheld).resolve_right (hother e)
  clear hsub
  induction hchange with
  | nil => exact .nil
  | @cons r r' kept new head tail ih =>
      obtain ⟨hfirst, hrest⟩ := List.pairwise_cons.mp hkept
      refine List.pairwise_cons.mpr ⟨fun q' hq' d e hd he => ?_, ih hrest⟩
      obtain ⟨i, hi, rfl⟩ := List.mem_iff_getElem.mp hq'
      have hk : i < kept.length := by rw [tail.length_eq]; exact hi
      exact hfirst kept[i] (List.getElem_mem hk) d e (hback _ _ head d hd)
        (hback _ _ (tail.get hk hi) e he)

/-- After a call for leases until `expires` no lease of the instance is longer, if none was. -/
theorem lockRows_held_le (hle : ∀ r ∈ rows, ∀ e, r.Held a e → e ≤ expires) (now : Instant)
    (n : Nat) :
    ∀ r ∈ (lockRows a expires now n rows).1, ∀ e, r.Held a e → e ≤ expires := by
  intro r' hr' e hheld
  have hupdates : Updates (.tryToLock a expires) now rows (lockRows a expires now n rows).1 :=
    ⟨rows, .refl _, fun _ hr _ => hr, lockRows_change a expires now n rows⟩
  obtain ⟨r, hr, hchange⟩ := hupdates.source hr'
  rcases hchange.held_before hheld with hold | hcall
  · exact hle r hr e hold
  · exact le_of_eq (RepositoryCall.tryToLock.inj hcall).2.symm

/-- **New leases keep the order of leases**, if they are the longest.  They go to the first rows
that qualify, and whatever the instance holds qualifies. -/
theorem LeaseOrder.lockRows (h : LeaseOrder a rows)
    (hle : ∀ r ∈ rows, ∀ e, r.Held a e → e ≤ expires) (n : Nat) :
    LeaseOrder a (lockRows a expires now n rows).1 := by
  fun_induction Repository.lockRows a expires now n rows with
  | case1 rows => exact h
  | case2 => exact .nil
  | case3 n r rest hclaim locked count hlocked ih =>
    obtain ⟨-, hrest⟩ := List.pairwise_cons.mp h
    have hle' : ∀ q ∈ rest, ∀ e, q.Held a e → e ≤ expires :=
      fun q hq => hle q (List.mem_cons_of_mem r hq)
    rw [hlocked] at ih
    refine List.pairwise_cons.mpr ⟨fun q hq d e hd he => ?_, ih hrest hle'⟩
    rw [(Row.held_leased hd).2]
    refine lockRows_held_le hle' now n q ?_ e he
    rwa [hlocked]
  | case4 n r rest hclaim locked count hlocked ih =>
    obtain ⟨-, hrest⟩ := List.pairwise_cons.mp h
    have hle' : ∀ q ∈ rest, ∀ e, q.Held a e → e ≤ expires :=
      fun q hq => hle q (List.mem_cons_of_mem r hq)
    rw [hlocked] at ih
    refine List.pairwise_cons.mpr ⟨fun q hq d e hd he => ?_, ih hrest hle'⟩
    exact absurd (hd.claimableBy_holder now) hclaim

theorem perform_tryToLock_rows (s : Repository) (now : Instant) (a : String) (expires : Instant) :
    (s.perform false now (.tryToLock a expires)).1.rows =
      (lockRows a expires now s.batchSize s.rows).1 := rfl

/-- **A row that is held under a lease that has not run out stays** in a call of another instance
that does not confirm it. -/
theorem Updates.mem_of_held (h : Updates call now old new) (hr : r ∈ old) (hheld : r.Held a e)
    (hnow : now ≤ e) (hother : ∀ b ∈ call.instance?, a ≠ b)
    (hids : ∀ ids, call = .updateToSent ids → r.id ∉ ids) : r ∈ new := by
  obtain ⟨r', hr', hchange⟩ := h.target hr hheld.1
  exact hchange.eq_of_held hheld hnow hother hids ▸ hr'

end Repository
end Courier
