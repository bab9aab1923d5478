import Courier.Outbox.Forwarder
import Courier.Proofs.Outbox.Rows
import Mathlib.Data.List.Nodup
import Mathlib.Data.List.TakeWhile

/-!
# Rows that a forwarder deals with alone

If nothing moves beside a forwarder, that is if the clock stands, the same buses are reachable, and
forwarding a row gives the same result whenever it is tried, then it is determined what becomes of
each row that is leased to the forwarder: it is delivered, or given back, or it ends the batch.

Two facts make batches invisible.  What the confirmation and the return after a batch do to the
repository is to settle the rows of the batch, row by row (`releaseRows_deliverRows`).  And after
that the rows leased to the instance are exactly the ones that were behind the batch
(`leases_settleAll`).
-/

namespace Courier

@[simp] theorem Row.id_delivered (r : Row) (now : Instant) : (r.delivered now).id = r.id :=
  Row.id_eq_of_content_eq Row.content_delivered

/-- What stands still around a forwarder that works alone. -/
structure Surroundings (β : Type) where
  settings : OutboxSettings
  inst : String
  now : Instant
  /-- The bus that a row has to be delivered through. -/
  route : Option String → Option β
  /-- What comes of forwarding a row. -/
  result : RowId → Except Failure Unit

namespace Surroundings

variable {β : Type} (c : Surroundings β)

/-- What the forwarder sees when it decides. -/
def view : Forwarder.View β :=
  { settings := c.settings, now := c.now, isCancelled := false, route := c.route }

/-- The end of a lease that is taken now, and the time until which a row given back now is left
alone. -/
def deadline : Instant := c.now.add c.settings.lockExpiration

/-- The lease of a row lasts long enough to forward the row. -/
def lasts (r : Row) : Bool := Forwarder.leaseSuffices c.settings c.now r

/-- There is a bus for a row. -/
def reaches (r : Row) : Bool := (c.route r.busName).isSome

/-- A row can be delivered. -/
def delivers (r : Row) : Bool := c.reaches r && (c.result r.id).isOk

/-- Forwarding a row fails in a way that ends a batch. -/
def fails (r : Row) : Bool :=
  c.reaches r && match c.result r.id with
    | .ok () => false
    | .error cause => cause.isTransient || cause.isCancellation

/-- A row does not stop a drain. -/
def handles (r : Row) : Bool := c.lasts r && !c.fails r

/-- What becomes of a row that is dealt with. -/
def settle (r : Row) : Row :=
  if c.delivers r then r.delivered c.now else r.released c.inst c.deadline

/-- The rows that are leased to the instance. -/
def leases (rows : List Row) : List Row := rows.filter (·.leasedTo c.inst c.now)

/-- The rows in front of the first one that stops a drain. -/
def handled (rows : List Row) : List Row := rows.takeWhile c.handles

/-- The rows from the first one on that stops a drain. -/
def left (rows : List Row) : List Row := rows.dropWhile c.handles

/-- How a row stops a drain. -/
def stop (r : Row) : BatchResult :=
  match c.lasts r, c.result r.id with
  | true, .error cause => .failed cause
  | _, _ => .stopped

/-- How the rows end. -/
def ending (rows : List Row) : BatchResult :=
  match c.left rows with
  | [] => .drained
  | r :: _ => c.stop r

/-- The rows that are handed to a bus. -/
def attempted (rows : List Row) : List Row :=
  (c.handled rows).filter c.reaches ++ ((c.left rows).take 1).filter c.lasts

/-- The rows after those of the ids have been dealt with. -/
def settleAll (ids : List RowId) (rows : List Row) : List Row :=
  rows.map fun r => if r.id ∈ ids then c.settle r else r

variable {c} {r : Row} {rows batch : List Row} {idle : Bool}

theorem handled_cons_of_handles (h : c.handles r = true) :
    c.handled (r :: rows) = r :: c.handled rows := by
  simp [handled, h]

theorem left_cons_of_handles (h : c.handles r = true) : c.left (r :: rows) = c.left rows := by
  simp [left, h]

theorem ending_cons_of_handles (h : c.handles r = true) :
    c.ending (r :: rows) = c.ending rows := by
  simp [ending, left_cons_of_handles h]

theorem attempted_cons_of_handles (h : c.handles r = true) :
    c.attempted (r :: rows) = (if c.reaches r then [r] else []) ++ c.attempted rows := by
  cases hreaches : c.reaches r <;>
    simp [attempted, handled_cons_of_handles h, left_cons_of_handles h, hreaches]

theorem fails_iff : c.fails r = true ↔ ∃ bus, c.route r.busName = some bus ∧
    ∃ cause, c.result r.id = .error cause ∧ (cause.isTransient || cause.isCancellation) = true := by
  cases hbus : c.route r.busName <;> cases hresult : c.result r.id <;>
    simp [fails, reaches, hbus, hresult]

/-! ## Splitting rows -/

theorem left_eq_nil_iff : c.left rows = [] ↔ ∀ r ∈ rows, c.handles r = true :=
  List.dropWhile_eq_nil_iff

/-- If nothing in a batch stops the drain, it goes on behind the batch. -/
theorem split_of_drained (h : c.left batch = []) (rest : List Row) :
    c.handled (batch ++ rest) = batch ++ c.handled rest ∧
      c.left (batch ++ rest) = c.left rest := by
  have hall := left_eq_nil_iff.mp h
  exact ⟨List.takeWhile_append_of_pos hall, List.dropWhile_append_of_pos hall⟩

/-- If something in a batch stops the drain, what lies behind the batch does not matter. -/
theorem split_of_stopped (h : c.left batch ≠ []) (rest : List Row) :
    c.handled (batch ++ rest) = c.handled batch ∧
      c.left (batch ++ rest) = c.left batch ++ rest := by
  have hsplit := congrArg List.length
    (List.takeWhile_append_dropWhile (p := c.handles) (l := batch))
  have hleft : 0 < (batch.dropWhile c.handles).length := List.length_pos_iff.mpr h
  have hshort : (batch.takeWhile c.handles).length ≠ batch.length := by
    rw [List.length_append] at hsplit
    omega
  have hstop : (batch.dropWhile c.handles).isEmpty = false := by simpa [left] using h
  simp [handled, left, List.takeWhile_append, List.dropWhile_append, hshort, hstop]

/-- Where a drain is stopped, the rows behind do not matter. -/
theorem ending_of_stopped (h : c.left batch ≠ []) (rest : List Row) :
    c.ending (batch ++ rest) = c.ending batch := by
  obtain ⟨r, tail, hleft⟩ := List.exists_cons_of_ne_nil h
  simp [ending, (split_of_stopped h rest).2, hleft]

theorem attempted_of_stopped (h : c.left batch ≠ []) (rest : List Row) :
    c.attempted (batch ++ rest) = c.attempted batch := by
  obtain ⟨r, tail, hleft⟩ := List.exists_cons_of_ne_nil h
  simp [attempted, split_of_stopped h rest, hleft]

/-- Something that stops a drain does not end it as if there were nothing left. -/
theorem ending_ne_drained (h : c.left rows ≠ []) : c.ending rows ≠ .drained := by
  obtain ⟨r, tail, hleft⟩ := List.exists_cons_of_ne_nil h
  simp only [ending, hleft, stop]
  split <;> exact nofun

theorem handled_of_drained (h : c.left batch = []) : c.handled batch = batch := by
  simpa [handled, left] using (split_of_drained h []).1

theorem ending_of_drained (h : c.left batch = []) : c.ending batch = .drained := by
  simp [ending, h]

theorem attempted_of_drained (h : c.left batch = []) (rest : List Row) :
    c.attempted (batch ++ rest) = c.attempted batch ++ c.attempted rest := by
  simp [attempted, split_of_drained h rest, handled_of_drained h, h]

/-! ## Settling rows -/

@[simp] theorem id_settle (r : Row) : (c.settle r).id = r.id := by
  unfold settle
  split
  · exact Row.id_eq_of_content_eq Row.content_delivered
  · rfl

/-- A row that was settled is leased to nobody. -/
theorem leasedTo_settle (r : Row) (a : String) (now : Instant) :
    (c.settle r).leasedTo a now = false := by
  unfold settle
  split
  · simp [Row.leasedTo]
  · simp [Row.leasedTo, Row.released]

@[simp] theorem settleAll_nil (rows : List Row) : c.settleAll [] rows = rows := by
  simp [settleAll]

@[simp] theorem ids_settleAll (ids : List RowId) (rows : List Row) :
    (c.settleAll ids rows).map (·.id) = rows.map (·.id) := by
  simp only [settleAll, List.map_map]
  refine List.map_congr_left fun r _ => ?_
  by_cases hid : r.id ∈ ids <;> simp [hid]

/-- Rows may be settled in two parts. -/
theorem settleAll_settleAll {ids ids' : List RowId} (hdisjoint : ∀ i ∈ ids, i ∉ ids')
    (rows : List Row) :
    c.settleAll ids' (c.settleAll ids rows) = c.settleAll (ids ++ ids') rows := by
  simp only [settleAll, List.map_map]
  refine List.map_congr_left fun r _ => ?_
  by_cases hid : r.id ∈ ids
  · simp [hid, hdisjoint r.id hid]
  · simp [hid]

/-- Among rows with distinct ids, those of a part are known by their ids. -/
theorem mem_ids_iff (hids : (rows.map (·.id)).Nodup) (hbatch : batch ⊆ rows) (hr : r ∈ rows) :
    r.id ∈ batch.map (·.id) ↔ r ∈ batch := by
  constructor
  · intro hid
    obtain ⟨q, hq, hsame⟩ := List.mem_map.mp hid
    exact List.inj_on_of_nodup_map hids (hbatch hq) hr hsame ▸ hq
  · intro hmem
    exact List.mem_map_of_mem hmem

/-- **Confirming and giving back** is settling, row by row. -/
theorem releaseRows_deliverRows (hids : (rows.map (·.id)).Nodup) (hbatch : batch ⊆ rows)
    (hleased : ∀ r ∈ batch, r.leasedTo c.inst c.now = true) :
    Repository.releaseRows c.inst ((batch.filter fun r => !c.delivers r).map (·.id)) c.deadline
        c.now (Repository.deliverRows ((batch.filter c.delivers).map (·.id)) c.now rows) =
      c.settleAll (batch.map (·.id)) rows := by
  simp only [Repository.releaseRows, Repository.deliverRows, settleAll, List.map_map]
  refine List.map_congr_left fun r hr => ?_
  have hpart : ∀ p : Row → Bool,
      r.id ∈ (batch.filter p).map (·.id) ↔ r ∈ batch ∧ p r = true := by
    intro p
    rw [mem_ids_iff hids (fun q hq => hbatch (List.mem_of_mem_filter hq)) hr, List.mem_filter]
  simp only [Function.comp_apply, Bool.and_eq_true, List.contains_iff_mem, hpart,
    mem_ids_iff hids hbatch hr, settle]
  by_cases hmem : r ∈ batch
  · cases hdelivers : c.delivers r with
    | true => simp [hmem, hpart, hdelivers]
    | false => simp [hmem, hpart, hdelivers, hleased r hmem]
  · simp [hmem, hpart]

/-- What is not true of a settled row holds afterwards of the rows that were not settled. -/
theorem filter_settleAll {p : Row → Bool} (hp : ∀ r, p (c.settle r) = false)
    (ids : List RowId) (rows : List Row) :
    (c.settleAll ids rows).filter p = (rows.filter p).filter fun r => r.id ∉ ids := by
  induction rows with
  | nil => rfl
  | cons r rows ih =>
    simp only [settleAll, List.map_cons, List.filter_cons] at ih ⊢
    by_cases hid : r.id ∈ ids
    · cases p r <;> simp [hid, hp, ih]
    · cases hrow : p r <;> simp [hid, hrow, ih]

/-- **Rows that were settled are not leased any more**, and what was behind them still is. -/
theorem leases_settleAll {rest : List Row} (hids : (rows.map (·.id)).Nodup)
    (hleases : c.leases rows = batch ++ rest) :
    c.leases (c.settleAll (batch.map (·.id)) rows) = rest := by
  have hnodup : ((c.leases rows).map (·.id)).Nodup := hids.sublist (List.filter_sublist.map _)
  rw [hleases, List.map_append, List.nodup_append] at hnodup
  have hfilter := filter_settleAll (c := c) (p := fun r => r.leasedTo c.inst c.now)
    (fun r => leasedTo_settle r c.inst c.now) (batch.map (·.id)) rows
  rw [leases, hfilter, ← leases, hleases, List.filter_append]
  have hbatch : (batch.filter fun r => r.id ∉ batch.map (·.id)) = [] := by
    refine List.filter_eq_nil_iff.mpr fun r hr => ?_
    simpa using ⟨r, hr, rfl⟩
  have hrest : (rest.filter fun r => r.id ∉ batch.map (·.id)) = rest := by
    refine List.filter_eq_self.mpr fun r hr => decide_eq_true fun hid => ?_
    exact hnodup.2.2 r.id hid r.id (List.mem_map_of_mem hr) rfl
  rw [hbatch, hrest, List.nil_append]

end Surroundings
end Courier
