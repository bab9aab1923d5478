import Courier.Proofs.Requests.Store
import Mathlib.Data.List.Nodup

/-!
# Entries and their slots

A request is added under an id that is not pending, and with a new slot.  So every store tells its
entries apart, by their ids and by their slots: `WellFormed`.  This does not depend on the order of
the entries, and it stays when entries leave.

An entry that leaves the store releases its slot, and nothing that leaves changes an outcome:
`entries_removeAll`, `slot_removeAll` and `outcome_removeAll`.
-/

namespace Courier

namespace PendingStore

variable {s u : PendingStore} {i : SlotIndex} {id : RequestId} {r : PendingRequest}

/-! ## Stores -/

/-- What holds of every store: an id is pending once, and each entry has a slot of its own. -/
structure WellFormed (s : PendingStore) : Prop where
  ids : (s.entries.map (·.id)).Nodup
  slots : (s.entries.map (·.slot)).Nodup
  inRange : ∀ r ∈ s.entries, r.slot < s.slots.length

theorem wellFormed_empty : WellFormed { entries := [], slots := [] } := by
  refine ⟨List.nodup_nil, List.nodup_nil, ?_⟩
  intro r hr
  cases hr

theorem notMem_ids_of_find? (h : s.find? id = none) : id ∉ s.entries.map (·.id) := by
  intro hmem
  obtain ⟨r, hr, rfl⟩ := List.mem_map.mp hmem
  simpa using List.find?_eq_none.mp h r hr

/-- A request that is added with a new slot leaves the store as it should be. -/
theorem WellFormed.add (h : s.WellFormed) (hslot : r.slot = s.newSlot.2)
    (hadd : s.newSlot.1.add r = .ok u) : u.WellFormed := by
  obtain ⟨hfree, rfl⟩ := add_ok hadd
  have hnew : r.slot ∉ s.entries.map (·.slot) := by
    intro hmem
    obtain ⟨e, he, hsame⟩ := List.mem_map.mp hmem
    have hlt := h.inRange e he
    rw [hsame, hslot] at hlt
    exact Nat.lt_irrefl _ hlt
  refine ⟨?_, ?_, ?_⟩
  · rw [List.map_append, List.map_singleton, ← List.concat_eq_append]
    exact List.Nodup.concat (notMem_ids_of_find? hfree) h.ids
  · rw [List.map_append, List.map_singleton, ← List.concat_eq_append]
    exact List.Nodup.concat hnew h.slots
  · intro e he
    simp only [newSlot, List.length_append, List.length_singleton]
    rcases List.mem_append.mp he with he | he
    · exact Nat.lt_succ_of_lt (h.inRange e he)
    · obtain rfl := List.mem_singleton.mp he
      exact hslot ▸ Nat.lt_succ_self _

/-- Entries may leave. -/
theorem WellFormed.of_sublist (h : s.WellFormed) (hentries : u.entries.Sublist s.entries)
    (hslots : u.slots.length = s.slots.length) : u.WellFormed := by
  refine ⟨h.ids.sublist (hentries.map _), h.slots.sublist (hentries.map _), ?_⟩
  intro r hr
  exact hslots ▸ h.inRange r (hentries.subset hr)

/-- Slots may change. -/
theorem WellFormed.setSlot (h : s.WellFormed) (i : SlotIndex) (x : Slot) :
    (s.setSlot i x).WellFormed :=
  h.of_sublist (List.Sublist.refl _) List.length_set

/-- The order of the entries does not matter. -/
theorem WellFormed.of_perm (h : s.WellFormed) (hentries : u.entries.Perm s.entries)
    (hslots : u.slots = s.slots) : u.WellFormed := by
  refine ⟨(hentries.map _).nodup_iff.mpr h.ids, (hentries.map _).nodup_iff.mpr h.slots, ?_⟩
  intro r hr
  exact hslots ▸ h.inRange r (hentries.subset hr)

/-- Where the elements of a list are told apart by `f`, so are the ones that are picked. -/
theorem mem_map_filter_iff {α β : Type} {f : α → β} {p : α → Bool} {xs : List α} {x : α}
    (hdistinct : (xs.map f).Nodup) (hx : x ∈ xs) : f x ∈ (xs.filter p).map f ↔ p x = true := by
  constructor
  · intro hmem
    obtain ⟨y, hy, hsame⟩ := List.mem_map.mp hmem
    obtain ⟨hy, hp⟩ := List.mem_filter.mp hy
    exact List.inj_on_of_nodup_map hdistinct hy hx hsame ▸ hp
  · intro hp
    exact List.mem_map.mpr ⟨x, List.mem_filter.mpr ⟨hx, hp⟩, rfl⟩

theorem WellFormed.eq_of_id (h : s.WellFormed) {e : PendingRequest} (he : e ∈ s.entries)
    (hr : r ∈ s.entries) (hid : e.id = r.id) : e = r :=
  List.inj_on_of_nodup_map h.ids he hr hid

theorem WellFormed.eq_of_slot (h : s.WellFormed) {e : PendingRequest} (he : e ∈ s.entries)
    (hr : r ∈ s.entries) (hslot : e.slot = r.slot) : e = r :=
  List.inj_on_of_nodup_map h.slots he hr hslot

theorem slot_of_slots_eq (hslots : u.slots = s.slots) (i : SlotIndex) : u.slot i = s.slot i := by
  rw [slot, hslots]
  rfl

/-- What is due has slots of its own. -/
theorem WellFormed.nodup_due (h : s.WellFormed) (isCancelled : Token → Bool) (now : Instant) :
    ((s.due isCancelled now).map (·.slot)).Nodup :=
  h.slots.sublist (List.filter_sublist.map _)

/-- Stores have the same slots if they have the same slot in every place. -/
theorem slots_ext (hlength : s.slots.length = u.slots.length) (h : ∀ i, s.slot i = u.slot i) :
    s.slots = u.slots := by
  refine List.ext_getElem hlength ?_
  intro i hs hu
  have hi := h i
  simpa [slot, hs, hu] using hi

/-! ## Removals -/

@[simp] theorem entries_release : (s.release r).entries = s.entries := by
  unfold release
  split <;> rfl

@[simp] theorem length_slots_setSlot (x : Slot) : (s.setSlot i x).slots.length = s.slots.length :=
  List.length_set

theorem entries_remove : (s.remove id).entries = s.entries.filter fun e => e.id != id := by
  unfold remove
  split
  · next hnone =>
    refine (List.filter_eq_self.mpr ?_).symm
    simpa [find?] using hnone
  · rfl

theorem length_slots_remove : (s.remove id).slots.length = s.slots.length := by
  unfold remove release
  split
  · rfl
  · split
    · rfl
    · exact length_slots_setSlot _

theorem WellFormed.remove (h : s.WellFormed) (id : RequestId) : (s.remove id).WellFormed := by
  refine h.of_sublist ?_ length_slots_remove
  rw [entries_remove]
  exact List.filter_sublist

/-- A slot that no longer has an entry is not touched. -/
theorem slot_remove_of_foreign (h : ∀ e ∈ s.entries, e.slot ≠ i) :
    (s.remove id).slot i = s.slot i := by
  unfold PendingStore.remove release
  split
  · rfl
  · next e he =>
    split
    · rfl
    · exact slot_setSlot_of_ne (Ne.symm (h e (mem_of_find? he)))

theorem outcome_release : ((s.release r).slot i).outcome = (s.slot i).outcome := by
  unfold release
  split
  · rfl
  · have hsame : (s.slot r.slot).close.outcome = (s.slot r.slot).outcome := rfl
    exact slot_setSlot_congr Slot.outcome hsame i

/-- No outcome changes when an entry leaves. -/
theorem outcome_remove : ((s.remove id).slot i).outcome = (s.slot i).outcome := by
  unfold PendingStore.remove
  split
  · rfl
  · exact outcome_release

/-- What the slot of an entry becomes when the entry leaves. -/
def released (r : PendingRequest) (x : Slot) : Slot := if r.keptBySender then x else x.close

theorem outcome_released (r : PendingRequest) (x : Slot) :
    (released r x).outcome = x.outcome := by
  unfold released
  split <;> rfl

theorem slot_remove (h : s.WellFormed) (hr : r ∈ s.entries) (id : RequestId) :
    (s.remove id).slot r.slot =
      if r.id = id then released r (s.slot r.slot) else s.slot r.slot := by
  cases hfind : s.find? id with
  | none =>
    have hne : r.id ≠ id := by
      intro hid
      exact notMem_ids_of_find? hfind (List.mem_map.mpr ⟨r, hr, hid⟩)
    rw [if_neg hne, PendingStore.remove, hfind]
  | some e =>
    have he := mem_of_find? hfind
    have heid := id_of_find? hfind
    have hremove : (s.remove id).slot r.slot = (s.release e).slot r.slot := by
      simp only [PendingStore.remove, hfind]
      rfl
    rw [hremove]
    by_cases hid : r.id = id
    · obtain rfl := h.eq_of_id he hr (heid.trans hid.symm)
      rw [if_pos hid, release, released]
      split
      · rfl
      · rw [slot_setSlot (h.inRange e he), if_pos rfl]
    · have hne : r.slot ≠ e.slot := by
        intro hslot
        exact hid (h.eq_of_slot hr he hslot ▸ heid)
      rw [if_neg hid, release]
      split
      · rfl
      · exact slot_setSlot_of_ne hne

theorem entries_removeAll (ids : List RequestId) :
    (s.removeAll ids).entries = s.entries.filter fun e => !ids.contains e.id := by
  induction ids generalizing s with
  | nil => exact (List.filter_true s.entries).symm
  | cons id ids ih =>
    have hcons : s.removeAll (id :: ids) = (s.remove id).removeAll ids := rfl
    rw [hcons, ih, entries_remove, List.filter_filter]
    refine List.filter_congr ?_
    intro e _
    by_cases hid : e.id = id <;> simp [hid]

theorem length_slots_removeAll (ids : List RequestId) :
    (s.removeAll ids).slots.length = s.slots.length := by
  induction ids generalizing s with
  | nil => rfl
  | cons id ids ih => exact (ih (s := s.remove id)).trans length_slots_remove

theorem WellFormed.removeAll (h : s.WellFormed) (ids : List RequestId) :
    (s.removeAll ids).WellFormed := by
  refine h.of_sublist ?_ (length_slots_removeAll ids)
  rw [entries_removeAll]
  exact List.filter_sublist

/-- No outcome changes when entries leave. -/
theorem outcome_removeAll (ids : List RequestId) :
    ((s.removeAll ids).slot i).outcome = (s.slot i).outcome := by
  induction ids generalizing s with
  | nil => rfl
  | cons id ids ih => exact (ih (s := s.remove id)).trans outcome_remove

theorem slot_removeAll_of_foreign (ids : List RequestId) (h : ∀ e ∈ s.entries, e.slot ≠ i) :
    (s.removeAll ids).slot i = s.slot i := by
  induction ids generalizing s with
  | nil => rfl
  | cons id ids ih =>
    have hrest : ∀ e ∈ (s.remove id).entries, e.slot ≠ i := by
      intro e he
      rw [entries_remove] at he
      exact h e (List.mem_of_mem_filter he)
    exact (ih hrest).trans (slot_remove_of_foreign h)

/-- Each entry that leaves releases its slot once. -/
theorem slot_removeAll (h : s.WellFormed) (hr : r ∈ s.entries) (ids : List RequestId) :
    (s.removeAll ids).slot r.slot =
      if r.id ∈ ids then released r (s.slot r.slot) else s.slot r.slot := by
  induction ids generalizing s with
  | nil => rfl
  | cons id ids ih =>
    have hcons : s.removeAll (id :: ids) = (s.remove id).removeAll ids := rfl
    have hone := slot_remove h hr id
    rw [hcons]
    by_cases hid : r.id = id
    · -- the entry has left, so nothing later comes back to its slot
      have hgone : ∀ e ∈ (s.remove id).entries, e.slot ≠ r.slot := by
        intro e he hslot
        rw [entries_remove] at he
        obtain ⟨he, hne⟩ := List.mem_filter.mp he
        obtain rfl := h.eq_of_slot he hr hslot
        simp [hid] at hne
      rw [slot_removeAll_of_foreign ids hgone, hone, if_pos hid, hid,
        if_pos (List.mem_cons_self ..)]
    · have hstays : r ∈ (s.remove id).entries := by
        rw [entries_remove]
        exact List.mem_filter.mpr ⟨hr, by simpa using hid⟩
      rw [ih (h.remove id) hstays, hone, if_neg hid]
      simp only [List.mem_cons, hid, false_or]

end PendingStore

end Courier
