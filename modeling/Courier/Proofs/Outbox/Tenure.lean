import Courier.Proofs.Outbox.Locking
import Courier.Proofs.Run

/-!
# One row over many calls

Calls of any instances come to a repository in any order and at any times, for a clock may also move
back.  A watch keeps an eye on one row meanwhile: it knows where the row stands and remembers who
has leased it.  The row is followed by its place and not by its id, so nothing is assumed about ids.

The key fact is `exists_fate`: a call leases the row, gives it back, marks it sent or leaves it as
it is.  It follows that the holder of a row keeps it until the lease runs out, and that until then
all other instances overlook the row (`exclusive_until_expiry`).
-/

namespace Courier

/-- A call that reaches a repository at some time, under a token that may be cancelled. -/
structure Visit where
  call : RepositoryCall
  now : Instant
  isCancelled : Bool := false

/-- Whether an instance gives a row back with a call. -/
def Visit.givesBack (v : Visit) (a : String) (r : Row) : Bool :=
  match v.call with
  | .release inst ids _ =>
    !v.isCancelled && decide (inst = a) && ids.contains r.id && r.leasedTo inst v.now
  | _ => false

/-- Only what an instance may forward it gives back. -/
theorem Visit.leasedTo_of_givesBack {v : Visit} {a : String} {r : Row}
    (h : v.givesBack a r = true) : r.leasedTo a v.now = true := by
  unfold givesBack at h
  split at h
  · simp only [Bool.and_eq_true, decide_eq_true_eq] at h
    exact h.1.1.2 ▸ h.2
  · exact absurd h nofun

namespace Repository

variable {s : Repository} {v : Visit} {i j : Nat} {r q : Row} {a b inst : String}
variable {now expires : Instant}

/-- The repository after a call. -/
def visited (s : Repository) (v : Visit) : Repository := (s.perform v.isCancelled v.now v.call).1

/-- The lease that a call takes on the row at place `i`: for whom, and until when. -/
def lease? (s : Repository) (v : Visit) (i : Nat) : Option (String × Instant) :=
  match v.call with
  | .tryToLock inst expires =>
    if v.isCancelled = false ∧ s.grants inst v.now i = true then some (inst, expires) else none
  | _ => none

/-- An instance takes leases for itself. -/
theorem instance_of_lease? (h : s.lease? v i = some (inst, expires)) :
    v.call.instance? = some inst := by
  unfold lease? at h
  split at h
  · next hcall =>
    split at h
    · obtain ⟨rfl, rfl⟩ := Prod.mk.inj (Option.some.inj h)
      simp [hcall, RepositoryCall.instance?]
    · exact absurd h nofun
  · exact absurd h nofun

/-- Where the row at place `i` stands after a call; nowhere, if the call removes it. -/
def placeAfter (s : Repository) (v : Visit) (i : Nat) : Option Nat :=
  match v.call with
  | .deleteSent olderThan =>
    if v.isCancelled then some i
    else if (s.rows[i]?).any (isExpendable olderThan) then none
    else some (retainedRows olderThan (s.rows.take i)).length
  | _ => some i

/-- A call removes only rows that are sent. -/
theorem isSent_of_placeAfter_eq_none (hr : s.rows[i]? = some r) (hgone : s.placeAfter v i = none) :
    r.isSent = true := by
  unfold placeAfter at hgone
  split at hgone
  · split at hgone
    · cases hgone
    · split at hgone
      · next hexpendable =>
        rw [hr, Option.any_some, isExpendable, Bool.and_eq_true] at hexpendable
        exact hexpendable.1
      · cases hgone
  · cases hgone

/-- A row that is retained stands behind those that are retained of the rows in front of it. -/
theorem retainedRows_getElem? {olderThan : Instant} (rows : List Row) (hr : rows[i]? = some r)
    (hkept : isExpendable olderThan r = false) :
    (retainedRows olderThan rows)[(retainedRows olderThan (rows.take i)).length]? = some r := by
  obtain ⟨hi, rfl⟩ := List.getElem?_eq_some_iff.mp hr
  have hsplit : retainedRows olderThan rows = retainedRows olderThan (rows.take i) ++
      rows[i] :: retainedRows olderThan (rows.drop (i + 1)) := by
    calc retainedRows olderThan rows
        = retainedRows olderThan (rows.take i ++ rows[i] :: rows.drop (i + 1)) := by
          rw [← List.drop_eq_getElem_cons hi, List.take_append_drop]
      _ = _ := by
          simp only [retainedRows, List.filter_append, List.filter_cons, hkept, Bool.not_false,
            if_true]
  rw [hsplit, List.getElem?_append_right (Nat.le_refl _), Nat.sub_self, List.getElem?_cons_zero]

/-- What a call makes of the row at place `i`. -/
inductive Fate (s : Repository) (v : Visit) (i : Nat) (r : Row) : Row → Prop
  | kept (hlease : s.lease? v i = none) : Fate s v i r r
  | leased {inst : String} {expires : Instant} (hlease : s.lease? v i = some (inst, expires))
      (hclaim : r.claimableBy inst v.now = true) : Fate s v i r (r.leased inst expires)
  | delivered (hlease : s.lease? v i = none) : Fate s v i r (r.delivered v.now)
  | released {inst : String} {retryAfter : Instant} (hlease : s.lease? v i = none)
      (hback : v.givesBack inst r = true) : Fate s v i r (r.released inst retryAfter)

/-- What a call for leases makes of a row. -/
theorem exists_fate_tryToLock (hr : s.rows[i]? = some r) : ∃ r',
    (s.visited ⟨.tryToLock inst expires, now, false⟩).rows[i]? = some r' ∧
      s.Fate ⟨.tryToLock inst expires, now, false⟩ i r r' := by
  have hrow := lockRows_getElem? inst expires now s.batchSize s.rows i r hr
  have hgrants : s.grants inst now i = true ↔
      r.claimableBy inst now = true ∧ claimable inst now (s.rows.take i) < s.batchSize := by
    simp [grants, hr]
  by_cases htaken : s.grants inst now i = true
  · rw [if_pos (hgrants.mp htaken)] at hrow
    exact ⟨_, hrow, .leased (by simp [lease?, htaken]) (hgrants.mp htaken).1⟩
  · rw [if_neg (mt hgrants.mpr htaken)] at hrow
    exact ⟨_, hrow, .kept (by simp [lease?, htaken])⟩

/-- **A call leases a row, gives it back, marks it sent or leaves it as it is**, as long as it does
not remove the row. -/
theorem exists_fate (hr : s.rows[i]? = some r) (hj : s.placeAfter v i = some j) :
    ∃ r', (s.visited v).rows[j]? = some r' ∧ s.Fate v i r r' := by
  obtain ⟨call, now, isCancelled⟩ := v
  cases isCancelled with
  | true =>
    have hsame : s.visited ⟨call, now, true⟩ = s := by simp [visited, perform_cancelled]
    have hi : i = j := by cases call <;> simpa [placeAfter] using hj
    refine ⟨r, by rw [hsame, ← hi, hr], .kept ?_⟩
    cases call <;> simp [lease?]
  | false =>
    cases call with
    | tryToLock inst expires =>
      obtain rfl : i = j := by simpa [placeAfter] using hj
      exact exists_fate_tryToLock hr
    | updateToSent ids =>
      obtain rfl : i = j := by simpa [placeAfter] using hj
      refine ⟨_, (List.getElem?_map ..).trans (congrArg (Option.map _) hr), ?_⟩
      dsimp only
      split
      · exact .delivered rfl
      · exact .kept rfl
    | release inst ids retryAfter =>
      obtain rfl : i = j := by simpa [placeAfter] using hj
      refine ⟨_, (List.getElem?_map ..).trans (congrArg (Option.map _) hr), ?_⟩
      dsimp only
      split
      · next hback => exact .released rfl (by simpa [Visit.givesBack] using hback)
      · exact .kept rfl
    | deleteSent olderThan =>
      refine ⟨r, ?_, .kept rfl⟩
      simp only [placeAfter, hr, Option.any_some, Bool.false_eq_true, if_false] at hj
      split at hj
      · exact absurd hj nofun
      · next hkept =>
        obtain rfl := Option.some.inj hj
        exact retainedRows_getElem? s.rows hr (by simpa using hkept)
    | save row =>
      obtain rfl : i = j := by simpa [placeAfter] using hj
      obtain ⟨hi, -⟩ := List.getElem?_eq_some_iff.mp hr
      exact ⟨r, (List.getElem?_append_left hi).trans hr, .kept rfl⟩
    | migrate =>
      obtain rfl : i = j := by simpa [placeAfter] using hj
      exact ⟨r, hr, .kept rfl⟩
    | findNextToSend inst =>
      obtain rfl : i = j := by simpa [placeAfter] using hj
      exact ⟨r, hr, .kept rfl⟩

/-! ## Rows that a call overlooks -/

/-- The repository without the row at place `i`. -/
def without (s : Repository) (i : Nat) : Repository := { s with rows := s.rows.eraseIdx i }

/-- A call overlooks the row at place `i`: it leaves the row as it is, and it does to the others and
answers what it would if the row were not there. -/
def Overlooks (s : Repository) (v : Visit) (i : Nat) : Prop :=
  (s.visited v).rows[i]? = s.rows[i]? ∧
    (s.without i).perform v.isCancelled v.now v.call =
      ((s.visited v).without i, (s.perform v.isCancelled v.now v.call).2)

theorem filter_eraseIdx {p : Row → Bool} (rows : List Row) :
    ∀ i, (∀ r, rows[i]? = some r → p r = false) →
      (rows.eraseIdx i).filter p = rows.filter p := by
  induction rows with
  | nil => simp
  | cons r rest ih =>
    intro i hi
    cases i with
    | zero => simp [hi r rfl]
    | succ i => simp [List.filter_cons, ih i (by simpa using hi)]

theorem map_eraseIdx (f : Row → Row) (rows : List Row) :
    ∀ i, (rows.eraseIdx i).map f = (rows.map f).eraseIdx i := by
  induction rows with
  | nil => simp
  | cons r rest ih =>
    intro i
    cases i with
    | zero => rfl
    | succ i => simp [ih i]

/-- **An instance overlooks a row that it may not claim.** -/
theorem overlooks (hr : s.rows[i]? = some r) (hinst : v.call.instance? = some b)
    (hfree : r.claimableBy b v.now = false) : s.Overlooks v i := by
  obtain ⟨call, now, isCancelled⟩ := v
  have hclaim : ∀ q, s.rows[i]? = some q → q.claimableBy b now = false := fun q hq =>
    Option.some.inj (hr.symm.trans hq) ▸ hfree
  have hlease : ∀ q, s.rows[i]? = some q → q.leasedTo b now = false := fun q hq => by
    by_contra hleased
    have := Row.claimableBy_of_leasedTo (by simpa using hleased)
    simp [hclaim q hq] at this
  cases isCancelled with
  | true => exact ⟨by simp [visited, perform_cancelled], by simp [visited, perform_cancelled]⟩
  | false =>
    cases call with
    | tryToLock inst expires =>
      obtain rfl : inst = b := Option.some.inj hinst
      constructor
      · refine (lockRows_getElem? inst expires now s.batchSize s.rows i r hr).trans ?_
        rw [if_neg (by simp [hclaim r hr]), hr]
      · simp only [perform, visited, tryToLock, without, unlessCancelled, settle,
          lockRows_eraseIdx inst expires now s.batchSize s.rows i hclaim]
        rfl
    | findNextToSend inst =>
      obtain rfl : inst = b := Option.some.inj hinst
      refine ⟨rfl, ?_⟩
      simp only [perform, visited, findNextToSend, without, unlessCancelled, settle, leasedRows,
        filter_eraseIdx s.rows i hlease]
      rfl
    | release inst ids retryAfter =>
      obtain rfl : inst = b := Option.some.inj hinst
      constructor
      · refine (List.getElem?_map ..).trans ?_
        simp [hr, hlease r hr]
      · simp only [perform, visited, release, without, unlessCancelled, settle, releaseRows,
          map_eraseIdx]
        rfl
    | _ => cases hinst

end Repository

/-! ## Watching a row -/

/-- A row of a repository that is watched. -/
structure Watch where
  repository : Repository
  /-- Where the row stands; nowhere once it has been removed. -/
  place : Option Nat
  /-- The leases that were taken on the row, oldest first. -/
  leases : List (String × Instant)

namespace Watch

variable {w u : Watch} {v : Visit} {vs : List Visit} {i j : Nat} {r q : Row} {a b : String}
variable {s : Repository} {now expires : Instant}

/-- The row as it is. -/
def row? (w : Watch) : Option Row := w.place.bind fun i => w.repository.rows[i]?

/-- The lease that a call takes on the row. -/
def lease? (w : Watch) (v : Visit) : Option (String × Instant) :=
  w.place.bind fun i => w.repository.lease? v i

/-- After a call. -/
def after (w : Watch) (v : Visit) : Watch where
  repository := w.repository.visited v
  place := w.place.bind fun i => w.repository.placeAfter v i
  leases := w.leases ++ (w.lease? v).toList

/-- The latest expiry that was granted to an instance. -/
def latest? (w : Watch) (a : String) : Option Instant :=
  ((w.leases.filter fun lease => lease.1 = a).getLast?).map (·.2)

/-- **What a call makes of the row that is watched.** -/
theorem exists_fate (hj : (w.after v).place = some j) (hrow : ∀ i, w.place = some i →
    ∃ r, w.repository.rows[i]? = some r) :
    ∃ i r r', w.place = some i ∧ w.repository.rows[i]? = some r ∧
      (w.after v).repository.rows[j]? = some r' ∧ w.repository.Fate v i r r' := by
  obtain ⟨i, hi, hafter⟩ := Option.bind_eq_some_iff.mp hj
  obtain ⟨r, hr⟩ := hrow i hi
  obtain ⟨r', hr', hfate⟩ := Repository.exists_fate hr hafter
  exact ⟨i, r, r', hi, hr, hr', hfate⟩

/-! ## Exclusion -/

/-- A call while `a` holds the row: another instance calls before the latest expiry granted to `a`
has passed, and `a` does not give the row back. -/
def IsUndisputed (a : String) (w : Watch) (v : Visit) : Prop :=
  (∀ b ∈ v.call.instance?, b ≠ a → ∀ e ∈ w.latest? a, v.now ≤ e) ∧
    ∀ r ∈ w.row?, v.givesBack a r = false

instance (a : String) (w : Watch) (v : Visit) : Decidable (IsUndisputed a w v) :=
  inferInstanceAs (Decidable (_ ∧ _))

/-- A step of a watch while `a` holds the row. -/
def Undisputed (a : String) (w : Watch) (v : Visit) (u : Watch) : Prop :=
  IsUndisputed a w v ∧ u = w.after v

/-- The row is there with its message, and `a` holds it until the latest expiry granted to it. -/
def KeptBy (a : String) (message : Row) (w : Watch) : Prop :=
  ∀ j, w.place = some j → ∃ q e, w.repository.rows[j]? = some q ∧ w.latest? a = some e ∧
    q.content = message ∧ q.lockInstance = some a ∧ q.lockExpires = some e

theorem latest?_of_lease?_eq_none (h : w.lease? v = none) : (w.after v).latest? a = w.latest? a := by
  simp [latest?, after, h]

theorem latest?_of_lease? (h : w.lease? v = some (a, expires)) :
    (w.after v).latest? a = some expires := by
  simp [latest?, after, h]

/-- An instance may not claim what another one holds, neither while the lease lasts nor once the row
is sent. -/
theorem claimableBy_eq_false (howner : q.lockInstance = some a) (hexpires : q.lockExpires = some e)
    (hother : b ≠ a) (hnow : now ≤ e) : q.claimableBy b now = false := by
  by_contra hclaim
  have hclaim : q.claimableBy b now = true := by simpa using hclaim
  have hheld : q.Held a e := ⟨Row.isSent_of_claimableBy hclaim, howner, hexpires⟩
  exact absurd (hheld.lt_of_claimableBy (Ne.symm hother) hclaim) (not_lt_of_ge hnow)

/-- **No call takes a row away from its holder** while its lease lasts. -/
theorem KeptBy.step {message : Row} (h : KeptBy a message w) (hstep : Undisputed a w v u) :
    KeptBy a message u := by
  obtain ⟨⟨hothers, hkeeps⟩, rfl⟩ := hstep
  intro j hj
  obtain ⟨i, r, r', hi, hr, hr', hfate⟩ := exists_fate hj fun i hi => by
    obtain ⟨q, -, hq, -⟩ := h i hi
    exact ⟨q, hq⟩
  obtain ⟨q, e, hq, hlatest, hcontent, howner, hexpires⟩ := h i hi
  obtain rfl : r = q := Option.some.inj (hr.symm.trans hq)
  have hwatched : w.lease? v = w.repository.lease? v i := by simp [lease?, hi]
  cases hfate with
  | kept hlease =>
    exact ⟨r, e, hr', (latest?_of_lease?_eq_none (hwatched.trans hlease)).trans hlatest, hcontent,
      howner, hexpires⟩
  | delivered hlease =>
    refine ⟨_, e, hr', (latest?_of_lease?_eq_none (hwatched.trans hlease)).trans hlatest,
      by simpa using hcontent, ?_⟩
    cases hdelivered : r.deliveredOn <;> simp [Row.delivered, hdelivered, howner, hexpires]
  | @leased inst e' hlease hclaim =>
    by_cases hown : inst = a
    · subst hown
      exact ⟨_, e', hr', latest?_of_lease? (hwatched.trans hlease), by simpa using hcontent, rfl,
        rfl⟩
    -- Another instance could claim the row only after the lease that `a` was granted last.
    · have hnow := hothers inst (Repository.instance_of_lease? hlease) hown e hlatest
      simp [claimableBy_eq_false howner hexpires hown hnow] at hclaim
  | @released inst retryAfter hlease hback =>
    obtain ⟨-, hinst, -⟩ := Row.leasedTo_iff.mp (Visit.leasedTo_of_givesBack hback)
    obtain rfl : a = inst := Option.some.inj (howner.symm.trans hinst)
    have hrow : r ∈ w.row? := by simp [row?, hi, hr]
    simp [hkeeps r hrow] at hback

/-- **Leases are exclusive and rows recoverable.**  An instance leases a row.  From then on calls of
any instances may follow in any order; as long as the other instances call before the latest expiry
granted to the holder has passed, and the holder does not give the row back, the row stays with the
holder and that expiry until it is removed, and every call of another instance overlooks it.  No
call removes a row that is not sent, and once its lease or its retry time has passed every instance
may claim such a row, and leases it if there is room in the batch. -/
theorem exclusive_until_expiry (hr : s.rows[i]? = some r) (hgrant : s.grants a now i = true)
    (hrun : Run (Undisputed a)
      ⟨s.visited ⟨.tryToLock a expires, now, false⟩, some i, [(a, expires)]⟩ vs w) :
    (∀ j, w.place = some j → ∃ q e, w.repository.rows[j]? = some q ∧ w.latest? a = some e ∧
      q.content = r.content ∧ q.lockInstance = some a ∧ q.lockExpires = some e ∧
      ∀ v b, v.call.instance? = some b → b ≠ a → v.now ≤ e → w.repository.Overlooks v j) ∧
    ∀ (t : Repository) (j : Nat) (q : Row), t.rows[j]? = some q → q.isSent = false →
      (∀ v, t.placeAfter v j ≠ none) ∧
      ∀ later, (∀ e, q.lockExpires = some e → e < later) → ∀ b, q.claimableBy b later = true ∧
        (Repository.claimable b later (t.rows.take j) < t.batchSize → ∀ e,
          (t.visited ⟨.tryToLock b e, later, false⟩).rows[j]? = some (q.leased b e)) := by
  constructor
  · have hfirst : KeptBy a r.content
        ⟨s.visited ⟨.tryToLock a expires, now, false⟩, some i, [(a, expires)]⟩ := by
      intro j hj
      obtain rfl := Option.some.inj hj
      have hrow := Repository.lockRows_getElem? a expires now s.batchSize s.rows i r hr
      simp only [Repository.grants, hr, Option.any_some, Bool.and_eq_true,
        decide_eq_true_eq] at hgrant
      rw [if_pos hgrant] at hrow
      exact ⟨_, expires, hrow, by simp [latest?], rfl, rfl, rfl⟩
    have hkept := hrun.invariant (KeptBy a r.content) hfirst fun _ _ _ h hstep => h.step hstep
    intro j hj
    obtain ⟨q, e, hq, hlatest, hcontent, howner, hexpires⟩ := hkept j hj
    refine ⟨q, e, hq, hlatest, hcontent, howner, hexpires, fun v b hinst hother hnow => ?_⟩
    exact Repository.overlooks hq hinst (claimableBy_eq_false howner hexpires hother hnow)
  · intro t j q hq hunsent
    constructor
    · intro v hgone
      simp [Repository.isSent_of_placeAfter_eq_none hq hgone] at hunsent
    · intro later hpassed b
      have hclaim := Row.claimableBy_of_expired hunsent hpassed b
      refine ⟨hclaim, fun hroom e => ?_⟩
      have hrow := Repository.lockRows_getElem? b e later t.batchSize t.rows j q hq
      rwa [if_pos ⟨hclaim, hroom⟩] at hrow

/-- A repository with one row that nobody has leased. -/
def lone : Repository where
  rows := [{ id := ⟨1⟩, busName := none, path := "orders", messageType := ⟨"OrderPlaced"⟩
             payload := [], headers := [], timestamp := .epoch }]
  batchSize := 1
  batchSize_pos := Nat.one_pos

/-- The clock after some seconds. -/
def clock (seconds : Nat) : Instant := Instant.epoch.add (Span.ofSeconds seconds 0)

/-- Another instance asks for a row in the last moment of its lease, the holder renews the lease,
and the other instance tries to give the row back. -/
theorem exclusive_until_expiry_renewed : ∃ w q,
    Run (Undisputed "a")
      ⟨lone.visited ⟨.tryToLock "a" (clock 10), clock 0, false⟩, some 0, [("a", clock 10)]⟩
      [⟨.tryToLock "b" (clock 20), clock 10, false⟩, ⟨.tryToLock "a" (clock 30), clock 10, false⟩,
        ⟨.release "b" [⟨1⟩] (clock 40), clock 25, false⟩] w ∧
    w.repository.rows[0]? = some q ∧ q.lockInstance = some "a" ∧
      q.lockExpires = some (clock 30) := by
  have hrun : ∃ w, Run (Undisputed "a")
      ⟨lone.visited ⟨.tryToLock "a" (clock 10), clock 0, false⟩, some 0, [("a", clock 10)]⟩
      [⟨.tryToLock "b" (clock 20), clock 10, false⟩, ⟨.tryToLock "a" (clock 30), clock 10, false⟩,
        ⟨.release "b" [⟨1⟩] (clock 40), clock 25, false⟩] w ∧
      w.place = some 0 ∧ w.latest? "a" = some (clock 30) :=
    ⟨_, .cons ⟨by decide, rfl⟩ (.cons ⟨by decide, rfl⟩ (.cons ⟨by decide, rfl⟩ (.nil _))),
      by decide, by decide⟩
  obtain ⟨w, hrun, hplace, hlatest⟩ := hrun
  obtain ⟨q, e, hq, he, -, howner, hexpires, -⟩ :=
    (exclusive_until_expiry (s := lone) rfl (by decide) hrun).1 0 hplace
  obtain rfl : e = clock 30 := Option.some.inj (he.symm.trans hlatest)
  exact ⟨w, q, hrun, hq, howner, hexpires⟩

end Watch
end Courier
