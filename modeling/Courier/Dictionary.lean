/-!
# Dictionaries with text keys

A dictionary is a list of entries in the order of its keys.  Keys are compared code point by code
point, which is also the order of their UTF-8 bytes.  Inserting replaces an older entry with the
same key, so building a dictionary from a list keeps the last entry of each key.
-/

namespace Courier

/-- Entries in increasing order of their keys. -/
abbrev Dictionary (α : Type) := List (String × α)

namespace Dictionary

variable {α : Type}

/-- Put an entry into its place; an older entry with this key is replaced. -/
def insert (key : String) (x : α) : Dictionary α → Dictionary α
  | [] => [(key, x)]
  | (k, y) :: rest =>
    if k = key then (key, x) :: rest
    else if key < k then (key, x) :: (k, y) :: rest
    else (k, y) :: insert key x rest

/-- The value of a key. -/
def find? (key : String) : Dictionary α → Option α
  | [] => none
  | (k, y) :: rest => if k = key then some y else find? key rest

/-- Whether the key has an entry. -/
def contains (key : String) (d : Dictionary α) : Bool := (d.find? key).isSome

/-- The dictionary without the entry of this key. -/
def erase (key : String) : Dictionary α → Dictionary α
  | [] => []
  | (k, y) :: rest => if k = key then erase key rest else (k, y) :: erase key rest

/-- The dictionary of these entries; of several with one key the last one stays. -/
def ofList (entries : List (String × α)) : Dictionary α :=
  entries.foldl (fun d e => insert e.1 e.2 d) []

/-- The keys, in order. -/
def keys (d : Dictionary α) : List String := d.map (·.1)

@[simp] theorem find?_insert_self (d : Dictionary α) (key : String) (x : α) :
    (d.insert key x).find? key = some x := by
  induction d with
  | nil => simp [insert, find?]
  | cons e rest ih =>
    obtain ⟨k, y⟩ := e
    simp only [insert]
    split
    · simp [find?]
    · split <;> simp_all [find?]

theorem find?_insert_of_ne (d : Dictionary α) {key other : String} (x : α) (h : other ≠ key) :
    (d.insert key x).find? other = d.find? other := by
  induction d with
  | nil => simp [insert, find?, Ne.symm h]
  | cons e rest ih =>
    obtain ⟨k, y⟩ := e
    simp only [insert]
    split
    · next hk => subst hk; simp [find?, Ne.symm h]
    · split
      · simp [find?, Ne.symm h]
      · simp [find?, ih]

@[simp] theorem find?_erase_self (d : Dictionary α) (key : String) :
    (d.erase key).find? key = none := by
  induction d with
  | nil => rfl
  | cons e rest ih =>
    obtain ⟨k, y⟩ := e
    simp only [erase]
    split
    · exact ih
    · next hk => simp [find?, hk, ih]

theorem find?_erase_of_ne (d : Dictionary α) {key other : String} (h : other ≠ key) :
    (d.erase key).find? other = d.find? other := by
  induction d with
  | nil => rfl
  | cons e rest ih =>
    obtain ⟨k, y⟩ := e
    simp only [erase]
    split
    · next hk => subst hk; simp [find?, Ne.symm h, ih]
    · simp [find?, ih]

theorem erase_of_find?_eq_none {d : Dictionary α} {key : String} (h : d.find? key = none) :
    d.erase key = d := by
  induction d with
  | nil => rfl
  | cons e rest ih =>
    obtain ⟨k, y⟩ := e
    by_cases hk : k = key
    · simp [find?, hk] at h
    · rw [find?, if_neg hk] at h
      rw [erase, if_neg hk, ih h]

/-- An entry that is put in and taken out again leaves no trace, if it replaced no other one. -/
theorem erase_insert {d : Dictionary α} {key : String} (x : α) (h : d.find? key = none) :
    (d.insert key x).erase key = d := by
  induction d with
  | nil => simp [insert, erase]
  | cons e rest ih =>
    obtain ⟨k, y⟩ := e
    by_cases hk : k = key
    · simp [find?, hk] at h
    · have hrest : Dictionary.find? key rest = none := by rwa [find?, if_neg hk] at h
      rw [insert, if_neg hk]
      split
      · rw [erase, if_pos rfl]
        exact erase_of_find?_eq_none h
      · rw [erase, if_neg hk, ih hrest]

end Dictionary
end Courier
