import Courier.Proofs.Outbox.Leases

/-!
# What a call for leases takes

A call for leases walks along the rows and takes those that its instance may claim, until it has a
batch of them.  So a row is taken exactly if it may be claimed and fewer than a batch in front of it
may be (`lockRows_getElem?`), and a row that may not be claimed is as good as absent
(`lockRows_eraseIdx`).

What an instance holds it may claim.  Therefore the rows that it reads right after a call for leases
are the ones that the call has taken, no matter what else it held before (`leasedRows_lockRows`).
The two calls take prefixes of different lists; `taken` names the places that both come to.

Main statement: `Repository.reads_what_it_leases`.
-/

namespace Courier

namespace Row

variable {r : Row} {a : String} {now expires : Instant}

/-- A row that is sent may be claimed by nobody. -/
theorem isSent_of_claimableBy (h : r.claimableBy a now = true) : r.isSent = false := by
  by_contra hsent
  simp [claimableBy, hsent] at h

/-- What an instance may forward it may also claim. -/
theorem claimableBy_of_leasedTo (h : r.leasedTo a now = true) : r.claimableBy a now = true := by
  obtain ⟨e, hheld⟩ := held_of_leasedTo h
  exact hheld.claimableBy_holder now

/-- A new lease that ends after the clock lets its holder forward the row. -/
theorem leasedTo_leased (hunsent : r.isSent = false) (hlater : now < expires) :
    (r.leased a expires).leasedTo a now = true :=
  leasedTo_iff.mpr ⟨hunsent, rfl, expires, rfl, hlater⟩

/-- A row that it holds anyhow an instance may claim at any time. -/
theorem claimableBy_leased (hunsent : r.isSent = false) :
    (r.leased a expires).claimableBy a now = true :=
  have hheld : (r.leased a expires).Held a expires := ⟨hunsent, rfl, rfl⟩
  hheld.claimableBy_holder now

/-- **Every row can be recovered.**  Once its lease or its retry time has passed, or if it never had
one, every instance may claim a row that is not sent. -/
theorem claimableBy_of_expired (hunsent : r.isSent = false)
    (hpassed : ∀ e, r.lockExpires = some e → e < now) (b : String) :
    r.claimableBy b now = true := by
  cases howner : r.lockInstance with
  | none =>
    cases hexpires : r.lockExpires with
    | none => simp [claimableBy, hunsent, howner, hexpires]
    | some e => simp [claimableBy, hunsent, howner, hexpires, hpassed e hexpires]
  | some owner =>
    by_cases hown : owner = b
    · simp [claimableBy, hunsent, howner, hown]
    · cases hexpires : r.lockExpires with
      | none => simp [claimableBy, hunsent, howner, hown, hexpires]
      | some e => simp [claimableBy, hunsent, howner, hown, hexpires, hpassed e hexpires]

end Row

namespace Repository

variable {r : Row} {a inst : String} {now expires : Instant} {rows : List Row}

/-- How many of these rows an instance may claim. -/
def claimable (inst : String) (now : Instant) (rows : List Row) : Nat :=
  rows.countP (·.claimableBy inst now)

/-- Whether a call for leases takes the row at place `i`. -/
def grants (s : Repository) (inst : String) (now : Instant) (i : Nat) : Bool :=
  (s.rows[i]?).any (·.claimableBy inst now) &&
    decide (claimable inst now (s.rows.take i) < s.batchSize)

/-- **The rows that a call for leases takes.** -/
theorem lockRows_getElem? (inst : String) (expires now : Instant) (n : Nat) (rows : List Row) :
    ∀ i r, rows[i]? = some r → (lockRows inst expires now n rows).1[i]? =
      some (if r.claimableBy inst now = true ∧ claimable inst now (rows.take i) < n then
        r.leased inst expires else r) := by
  fun_induction lockRows inst expires now n rows with
  | case1 rows => simp
  | case2 => simp
  | case3 n r rest hclaim locked count hlocked ih =>
    rw [hlocked] at ih
    intro i q hq
    cases i with
    | zero =>
      obtain rfl := Option.some.inj hq
      simp [hclaim, claimable]
    | succ i =>
      refine (ih i q hq).trans (congrArg some (if_congr ?_ rfl rfl))
      simp [claimable, hclaim]
  | case4 n r rest hclaim locked count hlocked ih =>
    rw [hlocked] at ih
    intro i q hq
    cases i with
    | zero =>
      obtain rfl := Option.some.inj hq
      simp [hclaim]
    | succ i =>
      refine (ih i q hq).trans (congrArg some (if_congr ?_ rfl rfl))
      simp [claimable, hclaim]

/-- A call for leases takes all rows that may be claimed, at most a batch. -/
theorem lockRows_count (inst : String) (expires now : Instant) (n : Nat) (rows : List Row) :
    (lockRows inst expires now n rows).2 = min n (claimable inst now rows) := by
  fun_induction lockRows inst expires now n rows with
  | case1 rows => simp
  | case2 => simp [claimable]
  | case3 n r rest hclaim locked count hlocked ih =>
    rw [hlocked] at ih
    simp only [claimable, List.countP_cons, hclaim, if_true] at ih ⊢
    omega
  | case4 n r rest hclaim locked count hlocked ih =>
    rw [hlocked] at ih
    simpa [claimable, List.countP_cons, hclaim] using ih

/-- Where nothing may be claimed nothing is taken. -/
theorem lockRows_of_none (expires : Instant) (n : Nat)
    (h : ∀ r ∈ rows, r.claimableBy a now = false) :
    lockRows a expires now n rows = (rows, 0) := by
  fun_induction lockRows a expires now n rows with
  | case1 rows => rfl
  | case2 => rfl
  | case3 n r rest hclaim locked count hlocked ih => simp [h r (by simp)] at hclaim
  | case4 n r rest hclaim locked count hlocked ih =>
    rw [ih fun q hq => h q (List.mem_cons_of_mem r hq)] at hlocked
    obtain ⟨rfl, rfl⟩ := Prod.mk.inj hlocked
    rfl

/-- **A row that may not be claimed is as good as absent** for a call for leases. -/
theorem lockRows_eraseIdx (inst : String) (expires now : Instant) (n : Nat) (rows : List Row) :
    ∀ i, (∀ r, rows[i]? = some r → r.claimableBy inst now = false) →
      lockRows inst expires now n (rows.eraseIdx i) =
        ((lockRows inst expires now n rows).1.eraseIdx i,
          (lockRows inst expires now n rows).2) := by
  fun_induction lockRows inst expires now n rows with
  | case1 rows => simp [lockRows]
  | case2 => simp [lockRows]
  | case3 n r rest hclaim locked count hlocked ih =>
    rw [hlocked] at ih
    intro i hi
    cases i with
    | zero => simp [hi r rfl] at hclaim
    | succ i => simp [lockRows, hclaim, ih i (by simpa using hi)]
  | case4 n r rest hclaim locked count hlocked ih =>
    rw [hlocked] at ih
    intro i hi
    cases i with
    | zero => simp [hlocked]
    | succ i => simp [lockRows, hclaim, ih i (by simpa using hi)]

/-- **What was leased is what is read.**  Right after a call for leases an instance reads the rows
that the call has taken, in their order. -/
theorem leasedRows_lockRows (hlater : now < expires) (n : Nat) (rows : List Row) :
    leasedRows a now n (lockRows a expires now n rows).1 =
      ((rows.filter (·.claimableBy a now)).take n).map (·.leased a expires) := by
  fun_induction lockRows a expires now n rows with
  | case1 rows => simp [leasedRows]
  | case2 => simp [leasedRows]
  | case3 n r rest hclaim locked count hlocked ih =>
    rw [hlocked] at ih
    have hleased := Row.leasedTo_leased (a := a) (Row.isSent_of_claimableBy hclaim) hlater
    simpa [leasedRows, List.filter_cons, hleased, hclaim] using ih
  | case4 n r rest hclaim locked count hlocked ih =>
    rw [hlocked] at ih
    have hfree : r.leasedTo a now = false := by
      by_contra hleased
      exact hclaim (Row.claimableBy_of_leasedTo (by simpa using hleased))
    simpa [leasedRows, List.filter_cons, hfree, hclaim] using ih

/-! ## What is read back -/

/-- Whether a call for at most `n` leases takes the row at place `i` of a list. -/
def isGranted (inst : String) (now : Instant) (n : Nat) (rows : List Row) (i : Nat) : Bool :=
  (rows[i]?).any (·.claimableBy inst now) && decide (claimable inst now (rows.take i) < n)

theorem isGranted_cons_of_claimable (hclaim : r.claimableBy inst now = true) (n i : Nat) :
    isGranted inst now (n + 1) (r :: rows) (i + 1) = isGranted inst now n rows i := by
  rw [isGranted, isGranted, List.getElem?_cons_succ, List.take_succ_cons]
  refine congrArg _ (decide_eq_decide.mpr ?_)
  simp [claimable, hclaim]

theorem isGranted_cons_of_not_claimable (hclaim : r.claimableBy inst now = false) (n i : Nat) :
    isGranted inst now n (r :: rows) (i + 1) = isGranted inst now n rows i := by
  rw [isGranted, isGranted, List.getElem?_cons_succ, List.take_succ_cons]
  refine congrArg _ (decide_eq_decide.mpr ?_)
  simp [claimable, hclaim]

/-- The rows at the places that are taken are the first ones that may be claimed. -/
theorem filterMap_granted (inst : String) (now : Instant) (n : Nat) (rows : List Row) :
    ((List.range rows.length).filter (isGranted inst now n rows)).filterMap (rows[·]?) =
      (rows.filter (·.claimableBy inst now)).take n := by
  induction rows generalizing n with
  | nil => simp
  | cons r rest ih =>
    rw [List.length_cons, List.range_succ_eq_map, List.filter_cons, List.filter_map]
    cases hclaim : r.claimableBy inst now with
    | false =>
      have hfirst : isGranted inst now n (r :: rest) 0 = false := by simp [isGranted, hclaim]
      simp only [hfirst, Function.comp_def, Nat.succ_eq_add_one,
        isGranted_cons_of_not_claimable hclaim]
      simpa [List.filterMap_map, Function.comp_def, hclaim] using ih n
    | true =>
      cases n with
      | zero => simp [isGranted]
      | succ n =>
        have hfirst : isGranted inst now (n + 1) (r :: rest) 0 = true := by
          simp [isGranted, claimable, hclaim]
        simp only [hfirst, Function.comp_def, Nat.succ_eq_add_one,
          isGranted_cons_of_claimable hclaim]
        simpa [List.filterMap_map, Function.comp_def, hclaim] using ih n

/-- The places of the rows that a call for leases takes, from the front to the back. -/
def taken (s : Repository) (inst : String) (now : Instant) : List Nat :=
  (List.range s.rows.length).filter fun i => s.grants inst now i

theorem mem_taken {s : Repository} {i : Nat} :
    i ∈ s.taken inst now ↔ s.grants inst now i = true := by
  refine List.mem_filter.trans ⟨And.right, fun hgrants => ⟨?_, hgrants⟩⟩
  rw [List.mem_range]
  by_contra hout
  simp [grants, List.getElem?_eq_none (Nat.le_of_not_lt hout)] at hgrants

theorem filterMap_taken (s : Repository) (inst : String) (now : Instant) :
    (s.taken inst now).filterMap (s.rows[·]?) =
      (s.rows.filter (·.claimableBy inst now)).take s.batchSize :=
  filterMap_granted inst now s.batchSize s.rows

/-- **A call for leases changes the rows that it takes and no other one.** -/
theorem lockRows_taken (s : Repository) (inst : String) (expires now : Instant) (i : Nat) :
    (lockRows inst expires now s.batchSize s.rows).1[i]? =
      if i ∈ s.taken inst now then (s.rows[i]?).map (·.leased inst expires) else s.rows[i]? := by
  cases hr : s.rows[i]? with
  | none =>
    have hlength := (lockRows_change inst expires now s.batchSize s.rows).length_eq
    have hnone := List.getElem?_eq_none_iff.mp hr
    simpa using List.getElem?_eq_none_iff.mpr (hlength ▸ hnone)
  | some r =>
    have hgrants : i ∈ s.taken inst now ↔ r.claimableBy inst now = true ∧
        claimable inst now (s.rows.take i) < s.batchSize := by
      rw [mem_taken]
      simp [grants, hr]
    rw [lockRows_getElem? inst expires now s.batchSize s.rows i r hr]
    simp only [hgrants]
    split <;> rfl

/-- It takes as many rows as it counts. -/
theorem length_taken (s : Repository) (inst : String) (now : Instant) :
    (s.taken inst now).length = min s.batchSize (claimable inst now s.rows) := by
  have hsome : ∀ i ∈ s.taken inst now, (s.rows[i]?).isSome := by
    intro i hi
    have hlt := List.mem_range.mp (List.mem_filter.mp hi).1
    simp [hlt]
  rw [← List.filterMap_length_eq_length.mpr hsome, filterMap_taken, List.length_take,
    claimable, List.countP_eq_length_filter]

/-- The rows at the places that are taken, under their new leases. -/
theorem filterMap_taken_lockRows (s : Repository) (inst : String) (expires now : Instant) :
    (s.taken inst now).filterMap ((lockRows inst expires now s.batchSize s.rows).1[·]?) =
      ((s.rows.filter (·.claimableBy inst now)).take s.batchSize).map (·.leased inst expires) := by
  rw [← filterMap_taken, List.map_filterMap]
  refine List.filterMap_congr fun i hi => ?_
  rw [lockRows_taken, if_pos hi]

/-- It reads as many rows as the call has counted. -/
theorem length_leasedRows_lockRows (hlater : now < expires) (n : Nat) (rows : List Row) :
    (leasedRows a now n (lockRows a expires now n rows).1).length =
      (lockRows a expires now n rows).2 := by
  rw [leasedRows_lockRows hlater, lockRows_count, List.length_map, List.length_take, claimable,
    List.countP_eq_length_filter]

/-- **An instance reads what it has just leased.**  In every state of a repository, a call for
leases that end after the clock takes all rows that the instance may claim, but no more than a
batch; it leases these and leaves every other row as it is.  A call that reads at the same time gets
exactly the rows that were taken, in the order of capture and under their new leases, whatever the
instance has leased before. -/
theorem reads_what_it_leases (s : Repository) (a : String) (hlater : now < expires) :
    ∃ u found,
      (∀ isCancelled, s.tryToLock isCancelled now a expires =
        unlessCancelled isCancelled (u, found.length)) ∧
      found.length = min s.batchSize (s.rows.countP (·.claimableBy a now)) ∧
      (∀ isCancelled, u.findNextToSend isCancelled now a = unlessCancelled isCancelled found) ∧
      found = (s.taken a now).filterMap (u.rows[·]?) ∧ (∀ r ∈ found, r.Held a expires) ∧
      (s.taken a now).length = found.length ∧ (s.taken a now).Pairwise (· < ·) ∧
      u.rows.length = s.rows.length ∧
      ∀ i r, s.rows[i]? = some r →
        (i ∈ s.taken a now ∧ r.claimableBy a now = true ∧
          u.rows[i]? = some (r.leased a expires)) ∨
        (i ∉ s.taken a now ∧ u.rows[i]? = some r) := by
  have hread := leasedRows_lockRows (a := a) hlater s.batchSize s.rows
  have hlength := length_leasedRows_lockRows (a := a) hlater s.batchSize s.rows
  have hcount := lockRows_count a expires now s.batchSize s.rows
  refine ⟨{ s with rows := (lockRows a expires now s.batchSize s.rows).1 },
    leasedRows a now s.batchSize (lockRows a expires now s.batchSize s.rows).1, fun _ => ?_,
    hlength.trans hcount, fun _ => rfl,
    hread.trans (filterMap_taken_lockRows s a expires now).symm, ?_,
    (length_taken s a now).trans (hlength.trans hcount).symm, List.pairwise_lt_range.filter _,
    (lockRows_change a expires now s.batchSize s.rows).length_eq.symm, ?_⟩
  · rw [hlength]
    rfl
  · intro r hr
    obtain ⟨q, hq, rfl⟩ := List.mem_map.mp (hread ▸ hr)
    have hclaim := (List.mem_filter.mp (List.mem_of_mem_take hq)).2
    exact ⟨Row.isSent_leased.trans (Row.isSent_of_claimableBy hclaim), rfl, rfl⟩
  · intro i r hr
    have hrow := lockRows_taken s a expires now i
    by_cases hi : i ∈ s.taken a now
    · have hgrants := mem_taken.mp hi
      simp only [grants, hr, Option.any_some, Bool.and_eq_true] at hgrants
      rw [if_pos hi, hr] at hrow
      exact .inl ⟨hi, hgrants.1, hrow⟩
    · rw [if_neg hi, hr] at hrow
      exact .inr ⟨hi, hrow⟩

/-- An order in some state of its delivery. -/
def strewnOrder (id : RowId) (owner : Option String) (expires : Option Instant)
    (releasedBy : Option String) : Row :=
  { id, busName := none, path := "orders", messageType := ⟨"OrderPlaced"⟩, payload := []
    headers := [], timestamp := .epoch, lockInstance := owner, lockExpires := expires, releasedBy }

/-- Some time after the first instant of 1970. -/
def afterwards (seconds : Nat) : Instant := Instant.epoch.add (.ofSeconds seconds 0)

/-- Five orders: the first is leased to another instance, the second and the last are leased to `a`
from before, the third was given back by `a`, and nobody has leased the fourth. -/
def strewn : Repository where
  rows := [strewnOrder ⟨1⟩ (some "b") (some (afterwards 5)) none,
    strewnOrder ⟨2⟩ (some "a") (some (afterwards 5)) none,
    strewnOrder ⟨3⟩ none (some (afterwards 5)) (some "a"), strewnOrder ⟨4⟩ none none none,
    strewnOrder ⟨5⟩ (some "a") (some (afterwards 5)) none]
  batchSize := 2
  batchSize_pos := by decide

/-- The instance `a` takes the second order and the fourth, and these are what it reads, although it
still holds the last one. -/
theorem reads_what_it_leases_strewn : Instant.epoch < afterwards 10 ∧ ∃ u found,
    strewn.tryToLock false .epoch "a" (afterwards 10) = .ok (u, 2) ∧
    u.findNextToSend false .epoch "a" = .ok found ∧ found.map (·.id) = [⟨2⟩, ⟨4⟩] ∧
    (∀ r ∈ found, r.Held "a" (afterwards 10)) ∧
    ∃ r, u.rows[4]? = some r ∧ r.leasedTo "a" .epoch = true := by
  have hlater : Instant.epoch < afterwards 10 := by decide
  obtain ⟨u, found, hlock, hcount, hread, hfound, hheld, -, -, -, hrows⟩ :=
    reads_what_it_leases strewn "a" hlater
  have htwo : found.length = 2 := hcount.trans (by decide)
  have htaken : strewn.taken "a" .epoch = [1, 3] := by decide
  have hsecond := (hrows 1 _ rfl).elim (fun h => h.2.2) fun h => absurd (by decide) h.1
  have hfourth := (hrows 3 _ rfl).elim (fun h => h.2.2) fun h => absurd (by decide) h.1
  have hlast := (hrows 4 _ rfl).elim (fun h => absurd h.1 (by decide)) And.right
  refine ⟨hlater, u, found, htwo ▸ hlock false, hread false, ?_, hheld, _, hlast, by decide⟩
  rw [hfound, htaken]
  simp [hsecond, hfourth, strewnOrder]

end Repository
end Courier
