import Courier.Outbox.Call
import Mathlib.Data.List.Forall2

/-!
# Rows under the calls of a repository

A call touches every row of a repository at most once, and never its message: `Change` says what a
call makes of one row, and `Updates` that a list of rows comes from another one row by row, with at
most sent rows left out.  `perform_changes` and `perform_updates` are the only places where the
calls themselves are opened.  Everything that is said later about many calls, of many instances,
rests on them.
-/

namespace Courier

namespace Row

variable {r q : Row} {inst : String} {now expires : Instant}

/-- The captured message of a row, without the state of its delivery. -/
def content (r : Row) : Row :=
  { r with lockInstance := none, lockExpires := none, releasedBy := none, deliveredOn := none }

@[simp] theorem id_leased : (r.leased inst expires).id = r.id := rfl
@[simp] theorem id_released : (r.released inst expires).id = r.id := rfl
@[simp] theorem content_id : r.content.id = r.id := rfl
@[simp] theorem content_leased : (r.leased inst expires).content = r.content := rfl
@[simp] theorem content_released : (r.released inst expires).content = r.content := rfl
@[simp] theorem isSent_leased : (r.leased inst expires).isSent = r.isSent := rfl
@[simp] theorem isSent_released : (r.released inst expires).isSent = r.isSent := rfl

@[simp] theorem content_delivered : (r.delivered now).content = r.content := by
  cases h : r.deliveredOn <;> simp [delivered, content, h]

@[simp] theorem isSent_delivered : (r.delivered now).isSent = true := by
  cases h : r.deliveredOn <;> simp [delivered, isSent, h]

theorem id_eq_of_content_eq (h : r.content = q.content) : r.id = q.id := by
  simpa using congrArg Row.id h

/-- What an instance has leased is not sent, and the lease has not run out. -/
theorem leasedTo_iff : r.leasedTo inst now = true ↔
    r.isSent = false ∧ r.lockInstance = some inst ∧ ∃ e, r.lockExpires = some e ∧ now < e := by
  cases h : r.lockExpires <;> simp [leasedTo, h, and_assoc]

end Row

/-- The instance for which a call is made. -/
def RepositoryCall.instance? : RepositoryCall → Option String
  | .tryToLock inst _ => some inst
  | .findNextToSend inst => some inst
  | .release inst _ _ => some inst
  | _ => none

namespace Repository

variable {inst : String} {now expires : Instant} {call : RepositoryCall}
variable {r r' : Row} {old new rows : List Row}

/-- What a call makes of a row that stays. -/
def Change (call : RepositoryCall) (now : Instant) (r r' : Row) : Prop :=
  match call with
  | .tryToLock inst expires =>
    r' = r ∨ (r.claimableBy inst now = true ∧ r' = r.leased inst expires)
  | .updateToSent ids => r' = if ids.contains r.id then r.delivered now else r
  | .release inst ids retryAfter =>
    r' = if ids.contains r.id && r.leasedTo inst now then r.released inst retryAfter else r
  | _ => r' = r

/-- **No call touches a message.** -/
theorem Change.content_eq (h : Change call now r r') : r'.content = r.content := by
  cases call with
  | tryToLock =>
    rcases h with rfl | ⟨-, rfl⟩
    · rfl
    · simp
  | updateToSent =>
    subst h
    split <;> simp
  | release =>
    subst h
    split <;> simp
  | _ => rw [show r' = r from h]

theorem Change.id_eq (h : Change call now r r') : r'.id = r.id :=
  Row.id_eq_of_content_eq h.content_eq

/-- A sent row stays sent. -/
theorem Change.isSent_of_isSent (h : Change call now r r') (hsent : r.isSent = true) :
    r'.isSent = true := by
  cases call with
  | tryToLock =>
    rcases h with rfl | ⟨-, rfl⟩
    · exact hsent
    · simpa using hsent
  | updateToSent =>
    subst h
    split <;> simp [hsent]
  | release =>
    subst h
    split <;> simp [hsent]
  | _ => rwa [show r' = r from h]

/-- **Only a confirmation marks a row sent**, and only one that names the row. -/
theorem Change.marked (h : Change call now r r') (hsent : r'.isSent = true) :
    r.isSent = true ∨ ∃ ids, call = .updateToSent ids ∧ r.id ∈ ids := by
  cases call with
  | tryToLock =>
    rcases h with rfl | ⟨-, rfl⟩
    · exact .inl hsent
    · exact .inl (by simpa using hsent)
  | updateToSent ids =>
    by_cases hid : r.id ∈ ids
    · exact .inr ⟨ids, rfl, hid⟩
    · have hsame : r' = r := by simpa [Change, hid] using h
      exact .inl (hsame ▸ hsent)
  | release =>
    subst h
    split at hsent <;> exact .inl (by simpa using hsent)
  | _ => exact .inl (by rwa [show r' = r from h] at hsent)

/-- A confirmation marks every row that it names. -/
theorem Change.isSent_of_mem {ids : List RowId} (h : Change (.updateToSent ids) now r r')
    (hid : r.id ∈ ids) : r'.isSent = true := by
  have hrow : r' = r.delivered now := by simpa [Change, hid] using h
  simp [hrow]

/-- The rows `new` come from the rows `old` through a call: it changes them one by one, in their
order, and leaves out no row that is not sent. -/
def Updates (call : RepositoryCall) (now : Instant) (old new : List Row) : Prop :=
  ∃ kept, kept.Sublist old ∧ (∀ r ∈ old, r.isSent = false → r ∈ kept) ∧
    List.Forall₂ (Change call now) kept new

/-- An update that touches no row. -/
theorem Updates.refl (now : Instant) (rows : List Row) : Updates .migrate now rows rows :=
  ⟨rows, .refl _, fun _ hr _ => hr, List.forall₂_same.mpr fun _ _ => rfl⟩

/-- Every row after an update comes from one before it. -/
theorem Updates.source (h : Updates call now old new) (hr : r' ∈ new) :
    ∃ r ∈ old, Change call now r r' := by
  obtain ⟨kept, hsub, -, hchange⟩ := h
  obtain ⟨i, hi, rfl⟩ := List.mem_iff_getElem.mp hr
  have hk : i < kept.length := by rw [hchange.length_eq]; exact hi
  exact ⟨kept[i], hsub.subset (List.getElem_mem hk), hchange.get hk hi⟩

/-- Every row that is not sent outlives an update. -/
theorem Updates.target (h : Updates call now old new) (hr : r ∈ old) (hunsent : r.isSent = false) :
    ∃ r' ∈ new, Change call now r r' := by
  obtain ⟨kept, -, hkeep, hchange⟩ := h
  obtain ⟨i, hi, rfl⟩ := List.mem_iff_getElem.mp (hkeep r hr hunsent)
  have hn : i < new.length := by rw [← hchange.length_eq]; exact hi
  exact ⟨new[i], List.getElem_mem hn, hchange.get hi hn⟩

/-- An update adds no ids and keeps their order. -/
theorem Updates.ids_sublist (h : Updates call now old new) :
    (new.map (·.id)).Sublist (old.map (·.id)) := by
  obtain ⟨kept, hsub, -, hchange⟩ := h
  have hids : new.map (·.id) = kept.map (·.id) := by
    clear hsub
    induction hchange with
    | nil => rfl
    | cons head tail ih => rw [List.map_cons, List.map_cons, head.id_eq, ih]
  exact hids ▸ hsub.map _

/-! ## The calls -/

/-- A lease changes rows only by leasing them. -/
theorem lockRows_change (inst : String) (expires now : Instant) (n : Nat) (rows : List Row) :
    List.Forall₂ (Change (.tryToLock inst expires) now) rows
      (lockRows inst expires now n rows).1 := by
  fun_induction lockRows inst expires now n rows with
  | case1 rows => exact List.forall₂_same.mpr fun r _ => Or.inl rfl
  | case2 => exact .nil
  | case3 n r rest hclaim locked count hlocked ih =>
    rw [hlocked] at ih
    exact .cons (Or.inr ⟨hclaim, rfl⟩) ih
  | case4 n r rest hclaim locked count hlocked ih =>
    rw [hlocked] at ih
    exact .cons (Or.inl rfl) ih

/-- Under a cancelled token no call does anything. -/
theorem perform_cancelled (s : Repository) (now : Instant) (call : RepositoryCall) :
    s.perform true now call = (s, .failed .cancelled) := by
  cases call <;> rfl

/-- A captured message is stored behind all others. -/
theorem perform_save_rows (s : Repository) (now : Instant) (row : Row) :
    (s.perform false now (.save row)).1.rows = s.rows ++ [row] := rfl

/-- Every call but a capture and a cleanup changes the rows one by one, and leaves none out. -/
theorem perform_changes (s : Repository) (now : Instant) (call : RepositoryCall)
    (hsave : ∀ row, call ≠ .save row) (hdelete : ∀ olderThan, call ≠ .deleteSent olderThan) :
    List.Forall₂ (Change call now) s.rows (s.perform false now call).1.rows := by
  cases call with
  | save row => exact absurd rfl (hsave row)
  | tryToLock inst expires => exact lockRows_change inst expires now s.batchSize s.rows
  | updateToSent ids =>
    exact List.forall₂_map_right_iff.mpr (List.forall₂_same.mpr fun _ _ => rfl)
  | release inst ids retryAfter =>
    exact List.forall₂_map_right_iff.mpr (List.forall₂_same.mpr fun _ _ => rfl)
  | deleteSent olderThan => exact absurd rfl (hdelete olderThan)
  | _ => exact List.forall₂_same.mpr fun _ _ => rfl

/-- **Every call but a capture updates the rows that are there.** -/
theorem perform_updates (s : Repository) (now : Instant) (call : RepositoryCall)
    (hcall : ∀ row, call ≠ .save row) :
    Updates call now s.rows (s.perform false now call).1.rows := by
  by_cases hdelete : ∃ olderThan, call = .deleteSent olderThan
  · obtain ⟨olderThan, rfl⟩ := hdelete
    refine ⟨retainedRows olderThan s.rows, List.filter_sublist, fun r hr hunsent => ?_,
      List.forall₂_same.mpr fun _ _ => rfl⟩
    exact List.mem_filter.mpr ⟨hr, by simp [isExpendable, hunsent]⟩
  · exact ⟨s.rows, .refl _, fun _ hr _ => hr,
      perform_changes s now call hcall fun olderThan h => hdelete ⟨olderThan, h⟩⟩

/-- Without a cancelled token no call fails. -/
theorem perform_ne_failed (s : Repository) (now : Instant) (call : RepositoryCall)
    (cause : Failure) : (s.perform false now call).2 ≠ .failed cause := by
  cases call <;> exact nofun

/-- Rows are read by no call but `findNextToSend`, which changes none; they are the first ones
leased to the instance. -/
theorem perform_answer_rows {s : Repository} {isCancelled : Bool} {found : List Row}
    (h : (s.perform isCancelled now call).2 = .rows found) :
    ∃ inst, call = .findNextToSend inst ∧ (s.perform isCancelled now call).1 = s ∧
      found = leasedRows inst now s.batchSize s.rows := by
  cases isCancelled with
  | true => simp [perform_cancelled] at h
  | false =>
    cases call with
    | findNextToSend inst => exact ⟨inst, rfl, rfl, (RepositoryAnswer.rows.inj h).symm⟩
    | _ => simp [perform, settle, migrate, save, tryToLock, updateToSent, release, deleteSent,
        unlessCancelled] at h

theorem leasedRows_sublist (inst : String) (now : Instant) (n : Nat) (rows : List Row) :
    (leasedRows inst now n rows).Sublist rows :=
  (List.take_sublist _ _).trans List.filter_sublist

theorem leasedTo_of_mem_leasedRows {n : Nat} (h : r ∈ leasedRows inst now n rows) :
    r.leasedTo inst now = true :=
  (List.mem_filter.mp (List.mem_of_mem_take h)).2

end Repository
end Courier
