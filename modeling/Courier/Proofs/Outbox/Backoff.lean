import Courier.Proofs.Outbox.Tenure

/-!
# Rows that were given back

An instance that gives a row back may lease it again only after its retry time, and all others at
once.  A row remembers this in the fields that also hold its lease, so the next lease overwrites it.
`Estranged` lists what a row can look like that an instance has given back and not leased since.

The main statement is `claimable_after_release_iff`: before its retry time the instance may claim the
row again exactly if another one has leased it meanwhile and holds it no more.  That makes it
possible for two instances to lease a row and give it back in turn while the clock stands still, see
`leased_again_before_retry`.
-/

namespace Courier

namespace Row

variable {q : Row} {a : String} {last later : Instant} {taken : Bool}

/-- A row that `a` has given back until `last`; `taken` says whether others have leased it since. -/
inductive Estranged (a : String) (last : Instant) : Bool → Row → Prop
  | waiting {q : Row} (howner : q.lockInstance = none) (hexpires : q.lockExpires = some last)
      (hback : q.releasedBy = some a) : Estranged a last false q
  | held {q : Row} {b : String} {e : Instant} (howner : q.lockInstance = some b) (hother : b ≠ a)
      (hexpires : q.lockExpires = some e) : Estranged a last true q
  | returned {q : Row} {b : String} (howner : q.lockInstance = none) (hother : b ≠ a)
      (hback : q.releasedBy = some b) : Estranged a last true q

/-- Until its retry time an instance may claim a row only if others have leased it and hold it no
more. -/
theorem Estranged.claimableBy_iff (h : Estranged a last taken q) (hlater : later ≤ last) :
    q.claimableBy a later = true ↔ q.isSent = false ∧ taken = true ∧
      (q.lockInstance = none ∨ ∃ e, q.lockExpires = some e ∧ e < later) := by
  cases hsent : q.isSent with
  | true => simp [claimableBy, hsent]
  | false =>
    cases h with
    | waiting howner hexpires hback =>
      simpa [claimableBy, hsent, howner, hexpires, hback] using hlater
    | held howner hother hexpires => simp [claimableBy, hsent, howner, hother, hexpires]
    | returned howner hother hback =>
      cases hexpires : q.lockExpires with
      | none => simp [claimableBy, hsent, howner, hexpires]
      | some e => simp [claimableBy, hsent, howner, hexpires, hback, hother]

theorem Estranged.delivered (h : Estranged a last taken q) (now : Instant) :
    Estranged a last taken (q.delivered now) := by
  cases hdelivered : q.deliveredOn with
  | some _ => simpa [Row.delivered, hdelivered] using h
  | none =>
    simp only [Row.delivered, hdelivered]
    cases h with
    | waiting howner hexpires hback => exact .waiting howner hexpires hback
    | held howner hother hexpires => exact .held howner hother hexpires
    | returned howner hother hback => exact .returned howner hother hback

/-- Only somebody else can give the row back now. -/
theorem Estranged.released {inst : String} {now retryAfter : Instant}
    (h : Estranged a last taken q) (hleased : q.leasedTo inst now = true) :
    Estranged a last taken (q.released inst retryAfter) := by
  obtain ⟨-, hinst, -⟩ := leasedTo_iff.mp hleased
  cases h with
  | waiting howner => exact absurd (howner.symm.trans hinst) nofun
  | held howner hother =>
    obtain rfl := Option.some.inj (howner.symm.trans hinst)
    exact .returned rfl hother rfl
  | returned howner => exact absurd (howner.symm.trans hinst) nofun

end Row

namespace Watch

variable {w u : Watch} {v : Visit} {vs : List Visit} {i j : Nat} {r q : Row} {a : String}
variable {s : Repository} {ids : List RowId} {now last : Instant}

/-- A call not later than `last` that does not lease the row to `a`. -/
def Abstaining (a : String) (last : Instant) (w : Watch) (v : Visit) (u : Watch) : Prop :=
  v.now ≤ last ∧ (∀ lease ∈ w.lease? v, lease.1 ≠ a) ∧ u = w.after v

/-- The row is there, and `a` has not leased it since it gave the row back. -/
def Backoff (a : String) (last : Instant) (w : Watch) : Prop :=
  ∀ j, w.place = some j →
    ∃ q, w.repository.rows[j]? = some q ∧ q.Estranged a last (!w.leases.isEmpty)

/-- Whatever others do with the row, it stays one that `a` has given back. -/
theorem Backoff.step (h : Backoff a last w) (hstep : Abstaining a last w v u) :
    Backoff a last u := by
  obtain ⟨-, habstains, rfl⟩ := hstep
  intro j hj
  obtain ⟨i, r, r', hi, hr, hr', hfate⟩ := exists_fate hj fun i hi => (h i hi).imp fun _ => And.left
  obtain ⟨q, hq, hestranged⟩ := h i hi
  obtain rfl : r = q := Option.some.inj (hr.symm.trans hq)
  have hwatched : w.lease? v = w.repository.lease? v i := by simp [lease?, hi]
  refine ⟨r', hr', ?_⟩
  cases hfate with
  | kept hlease => simpa [after, hwatched, hlease] using hestranged
  | delivered hlease => simpa [after, hwatched, hlease] using hestranged.delivered v.now
  | @leased inst expires hlease hclaim =>
    have hother : inst ≠ a := habstains (inst, expires) (hwatched.trans hlease)
    have htaken : (!(w.after v).leases.isEmpty) = true := by simp [after, hwatched, hlease]
    rw [htaken]
    exact .held rfl hother rfl
  | released hlease hback =>
    simpa [after, hwatched, hlease] using hestranged.released (Visit.leasedTo_of_givesBack hback)

/-- **How long a retry time counts.**  An instance gives a row back.  Afterwards calls of any
instances may follow in any order, none later than the retry time.  As long as the instance has not
leased the row again, it may claim it exactly if another instance has leased it in between, and that
lease was given back or has run out.  So while nobody else leases the row, no call of the instance
does. -/
theorem claimable_after_release_iff (hr : s.rows[i]? = some r) (hleased : r.leasedTo a now = true)
    (hid : r.id ∈ ids)
    (hrun : Run (Abstaining a last)
      ⟨s.visited ⟨.release a ids last, now, false⟩, some i, []⟩ vs w)
    (hj : w.place = some j) (hq : w.repository.rows[j]? = some q) {later : Instant}
    (hlater : later ≤ last) :
    (q.claimableBy a later = true ↔ q.isSent = false ∧ w.leases ≠ [] ∧
      (q.lockInstance = none ∨ ∃ e, q.lockExpires = some e ∧ e < later)) ∧
    (w.leases = [] → ∀ e, w.lease? ⟨.tryToLock a e, later, false⟩ = none) := by
  have hfirst : Backoff a last ⟨s.visited ⟨.release a ids last, now, false⟩, some i, []⟩ := by
    intro j hj
    obtain rfl := Option.some.inj hj
    refine ⟨r.released a last, ?_, .waiting rfl rfl rfl⟩
    refine (List.getElem?_map ..).trans ((congrArg (Option.map _) hr).trans ?_)
    simp [hleased, hid]
  obtain ⟨q', hq', hestranged⟩ :=
    hrun.invariant (Backoff a last) hfirst (fun _ _ _ h hstep => h.step hstep) j hj
  obtain rfl : q = q' := Option.some.inj (hq.symm.trans hq')
  have hiff := hestranged.claimableBy_iff hlater
  constructor
  · simpa using hiff
  · intro hnone e
    have hfree : q.claimableBy a later = false := by
      by_contra hclaim
      simp [hiff, hnone] at hclaim
    simp [lease?, Repository.lease?, Repository.grants, hj, hq, hfree]

/-- Instance `a` has leased the only row of a repository and given it back for a minute. -/
def givenBack : Watch :=
  ⟨(lone.visited ⟨.tryToLock "a" (clock 10), clock 0, false⟩).visited
    ⟨.release "a" [⟨1⟩] (clock 60), clock 0, false⟩, some 0, []⟩

/-- In the same moment instance `b` leases the row and gives it back as well. -/
def borrowing : List Visit :=
  [⟨.tryToLock "b" (clock 10), clock 0, false⟩, ⟨.release "b" [⟨1⟩] (clock 60), clock 0, false⟩]

theorem exists_run_borrowing : ∃ w q, Run (Abstaining "a" (clock 60)) givenBack borrowing w ∧
    w.place = some 0 ∧ w.repository.rows[0]? = some q ∧ w.leases ≠ [] ∧ q.isSent = false ∧
    q.lockInstance = none ∧ w.lease? ⟨.tryToLock "a" (clock 10), clock 0, false⟩ =
      some ("a", clock 10) := by
  have hfirst : Abstaining "a" (clock 60) givenBack
      ⟨.tryToLock "b" (clock 10), clock 0, false⟩ _ := ⟨by decide, by decide, rfl⟩
  refine ⟨_, _, .cons hfirst (.cons ⟨by decide, by decide, rfl⟩ (.nil _)), by decide, rfl,
    by decide, by decide, by decide, by decide⟩

/-- Another instance has leased the row and given it back: the first one may claim it at once. -/
theorem claimable_after_release_iff_returned : ∃ w q,
    Run (Abstaining "a" (clock 60)) givenBack borrowing w ∧ w.repository.rows[0]? = some q ∧
    q.claimableBy "a" (clock 0) = true := by
  obtain ⟨w, q, hrun, hplace, hq, htaken, hunsent, hfree, -⟩ := exists_run_borrowing
  have hlater : clock 0 ≤ clock 60 := by decide
  obtain ⟨hiff, -⟩ := claimable_after_release_iff (r := lone.rows[0].leased "a" (clock 10)) rfl
    (by decide) (by decide) hrun hplace hq hlater
  exact ⟨w, q, hrun, hq, hiff.mpr ⟨hunsent, htaken, .inl hfree⟩⟩

/-- **A retry time is forgotten once another instance has leased the row.**  Two instances lease a
row and give it back in turn while the clock stands still: the first one leases the row again long
before its retry time. -/
theorem leased_again_before_retry : ∃ w, clock 0 < clock 60 ∧
    Run (Abstaining "a" (clock 60)) givenBack borrowing w ∧
    w.lease? ⟨.tryToLock "a" (clock 10), clock 0, false⟩ = some ("a", clock 10) := by
  obtain ⟨w, -, hrun, -, -, -, -, -, hagain⟩ := exists_run_borrowing
  exact ⟨w, by decide, hrun, hagain⟩

end Watch
end Courier
