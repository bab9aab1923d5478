import Courier.Proofs.Messages.Nesting

/-!
# Records and back

A record is written as an object, and its members are read into the record one after the other, each
by its field.  A field that puts its value where the record has it is all that has to be known of a
member (`Reads`); then members with different names are read in whatever order they are written, and
the ones that are left out stay at their defaults (`record_render`).

The record in progress is a function of the names that were read so far, `seen`.  So there is
nothing to commute where members change their places: a record depends on which names were read, not
on their order.

The lemmas before that read back the values that members have: `natural_render`, `truth_render`,
`textOf_render`, `optional_render` and `byteList_render`.

What is read from a document that nobody wrote is not known, but what all fields keep holds of it,
be the record written as an object or as a list (`exists_of_record`).
-/

namespace Courier.Json

variable {σ α β : Type} {fields : List (Field σ)} {seen : List String → σ}
variable {m : String × Json} {ms : List (String × Json)} {names : List String} {rest : Bytes}
variable {fuel : Nat} {x : α}

/-! ## Values of a member -/

/-- **A natural number is read back**, if it is below the bound. -/
theorem natural_render {n bound : Nat} (hn : n < bound) (hbound : bound ≤ 2 ^ 64)
    (hrest : Ends rest) :
    natural bound (Bytes.ofChars (render (.nat n)) ++ rest) = .ok (n, rest) := by
  have hmax : maxWhole = 2 ^ 64 - 1 := rfl
  have hdigits : render (.nat n) = Nat.toDigits 10 n := by
    simp [nat, whole, render, numberText, Nat.toList_repr]
  have hread := unsignedNumber_whole false (show n ≤ maxWhole by omega) hrest
  obtain ⟨b, tail, hb, hdigit⟩ := first_of_unsignedNumber hread
  rw [hb] at hread
  rw [hdigits, hb, natural, skipBlanks_cons (not_isBlank_of_isDigit hdigit)]
  simp [ne_of_isDigit hdigit (c := byte '-') rfl, hdigit, hread, wholeNumber, hn]

/-- A truth value is read back. -/
theorem truth_render (b : Bool) (rest : Bytes) :
    truth (Bytes.ofChars (render (.bool b)) ++ rest) = .ok (b, rest) := by
  cases b <;> rfl

/-- What is the written form of something is read as that. -/
theorem textOf_render {read : String → Option α} {text : String} (h : read text = some x)
    (rest : Bytes) : textOf read (Bytes.ofChars (render (.text text)) ++ rest) = .ok (x, rest) := by
  rw [render, textOf, textValue_quoted]
  simp only [h]

/-- A value or nothing, as a member has it. -/
def ofOption (v : β → Json) : Option β → Json
  | none => .null
  | some y => v y

/-- **A value or nothing is read back**, if the value is and cannot be taken for nothing. -/
theorem optional_render {read : Reader α} {v : β → Json} {result : β → α}
    (hread : ∀ y, read (Bytes.ofChars (render (v y)) ++ rest) = .ok (result y, rest))
    (hfirst : ∀ y, ∃ b tail, Bytes.ofChars (render (v y)) = b :: tail ∧ isBlank b = false ∧
      b ≠ byte 'n') (o : Option β) :
    optional read (Bytes.ofChars (render (ofOption v o)) ++ rest) = .ok (o.map result, rest) := by
  cases o with
  | none => rfl
  | some y =>
    obtain ⟨b, tail, hb, hblank, hword⟩ := hfirst y
    have hvalue := hread y
    rw [hb, List.cons_append] at hvalue
    rw [ofOption, hb, optional, List.cons_append, skipBlanks_cons hblank]
    simp [hword, hvalue]

/-- A text cannot be taken for nothing. -/
theorem first_text (text : String) : ∃ b tail, Bytes.ofChars (render (.text text)) = b :: tail ∧
    isBlank b = false ∧ b ≠ byte 'n' :=
  ⟨byte '"', _, ofChars_quoted text, rfl, by decide⟩

theorem itemsInRange_nat {ns : List Nat} (h : ∀ n ∈ ns, n < 2 ^ 64) :
    ItemsInRange (ns.map .nat) := by
  induction ns with
  | nil => trivial
  | cons n ns ih =>
    obtain ⟨hn, hothers⟩ := List.forall_mem_cons.mp h
    refine ⟨?_, ih hothers⟩
    rw [nat, whole, InRange]
    simp only [JsonNumber.InRange, Int.ofNat_eq_natCast]
    omega

/-- Natural numbers below the bound are read back one after the other. -/
theorem items_natural {ns : List Nat} {bound : Nat} (hns : ∀ n ∈ ns, n < bound)
    (hbound : bound ≤ 2 ^ 64) (first : Bool) (rest : Bytes) (hfuel : ns.length < fuel) :
    items (natural bound) first
      (Bytes.ofChars (renderItemsFrom first (ns.map .nat)) ++ rest) fuel = .ok (ns, rest) := by
  induction ns generalizing first fuel with
  | nil =>
    obtain ⟨fuel, rfl⟩ := Nat.exists_eq_add_one.mpr hfuel
    exact items_nil _ first rest fuel
  | cons n ns ih =>
    obtain ⟨fuel, rfl⟩ := Nat.exists_eq_add_one.mpr (Nat.zero_lt_of_lt hfuel)
    obtain ⟨hn, hothers⟩ := List.forall_mem_cons.mp hns
    obtain ⟨hrange, -⟩ : ItemsInRange ((n :: ns).map .nat) :=
      itemsInRange_nat fun k hk => Nat.lt_of_lt_of_le (hns k hk) hbound
    have hread := natural_render hn hbound (ends_renderItemsFrom (ns.map .nat) rest)
    rw [List.map_cons, items_cons (natural bound) first hrange, hread]
    simp only [ih hothers false (Nat.lt_of_succ_lt_succ hfuel)]
    rfl

/-- **Bytes that are written as numbers are read back.** -/
theorem byteList_render (bs rest : Bytes) :
    byteList (Bytes.ofChars (render (.list (bs.map fun b => .nat b.toNat))) ++ rest) =
      .ok (bs, rest) := by
  have hbracket (s : Bytes) : skipBlanks (byte '[' :: s) = byte '[' :: s := rfl
  have hquote : byte '[' ≠ byte '"' := by decide
  have hnumbers : (bs.map fun b => nat b.toNat) = (bs.map UInt8.toNat).map .nat := by
    rw [List.map_map]
    rfl
  have hlt : ∀ n ∈ bs.map UInt8.toNat, n < 256 := by
    intro n hn
    obtain ⟨b, -, rfl⟩ := List.mem_map.mp hn
    exact b.toNat_lt
  have hback : (bs.map UInt8.toNat).map UInt8.ofNat = bs := by
    rw [List.map_map]
    exact (List.map_congr_left fun b _ => UInt8.ofNat_toNat).trans (List.map_id bs)
  rw [hnumbers]
  generalize bs.map UInt8.toNat = ns at hlt hback
  have hrange : ItemsInRange (ns.map .nat) :=
    itemsInRange_nat fun n hn => Nat.lt_trans (hlt n hn) (by decide)
  have hfuel : ns.length <
      (Bytes.ofChars (renderItemsFrom true (ns.map .nat)) ++ rest).length + 1 := by
    have hlength := length_lt_renderItemsFrom true hrange
    rw [List.length_map] at hlength
    rw [List.length_append]
    omega
  have hread := items_natural hlt (by decide) true rest hfuel
  rw [ofChars_render_list, List.cons_append, byteList, hbracket]
  simp only [if_neg hquote, if_true, hread, hback]

/-! ## Members of a record -/

/-- A value is put where the record has it. -/
def putting (read : Reader α) (put : σ → α → σ) : σ → Reader σ := fun state s =>
  match read s with
  | .error f => .error f
  | .ok (x, rest) => .ok (put state x, rest)

/-- A member is read by a field of its name, which leaves the record as it is when the name has been
read as well. -/
def Reads (fields : List (Field σ)) (seen : List String → σ) (m : String × Json) : Prop :=
  ∃ field, fields.find? (·.name == m.1) = some field ∧ ∀ names rest, Ends rest →
    field.read (seen names) (Bytes.ofChars (render m.2) ++ rest) = .ok (seen (m.1 :: names), rest)

/-- A member whose field puts its value into the record. -/
theorem reads_of_putting {field : Field σ} {read : Reader α} {put : σ → α → σ}
    (hfield : fields.find? (·.name == m.1) = some field) (hput : field.read = putting read put)
    (hread : ∀ rest, Ends rest → read (Bytes.ofChars (render m.2) ++ rest) = .ok (x, rest))
    (hseen : ∀ names, put (seen names) x = seen (m.1 :: names)) : Reads fields seen m := by
  refine ⟨field, hfield, fun names rest hrest => ?_⟩
  simp only [hput, putting, hread rest hrest, hseen]

/-- The reader of the members of a record, which remembers their names. -/
def readField (fields : List (Field σ)) (k : String) (state : σ × List String) :
    Reader (σ × List String) := fun s =>
  match fields.find? (fun f => f.name == k) with
  | none =>
    match colon s with
    | .error f => .error f
    | .ok s =>
      match skip s (s.length + 1) with
      | .error f => .error f
      | .ok s => .ok (state, s)
  | some field =>
    if state.2.contains k then .error .mismatched
    else match colon s with
      | .error f => .error f
      | .ok s =>
        match field.read state.1 s with
        | .error f => .error f
        | .ok (x, s) => .ok ((x, k :: state.2), s)

theorem namedFields_eq (fields : List (Field σ)) (start : σ) (s : Bytes) :
    namedFields fields start s =
      match foldMembers (readField fields) true (start, []) s (s.length + 1) with
      | .error f => .error f
      | .ok (state, s) => .ok (state.1, s) := rfl

/-- A member that comes for the first time is read by its field. -/
theorem readField_of_reads (h : Reads fields seen m) (hnew : m.1 ∉ names) (hrest : Ends rest) :
    readField fields m.1 (seen names, names) (byte ':' :: (Bytes.ofChars (render m.2) ++ rest)) =
      .ok ((seen (m.1 :: names), m.1 :: names), rest) := by
  obtain ⟨field, hfield, hread⟩ := h
  simp only [readField, hfield, List.contains_iff_mem, hnew, if_false, colon_cons,
    hread names rest hrest]

/-- A record depends on which names were read, and not on their order. -/
def Unordered (seen : List String → σ) : Prop :=
  ∀ l l' : List String, (∀ k, k ∈ l ↔ k ∈ l') → seen l = seen l'

/-- Members with different names are read one after the other. -/
theorem foldMembers_readField (hreads : ∀ m ∈ ms, Reads fields seen m)
    (hdistinct : (names ++ ms.map (·.1)).Nodup) (first : Bool) (rest : Bytes)
    (hfuel : ms.length < fuel) :
    ∃ all, (∀ k, k ∈ all ↔ k ∈ names ∨ k ∈ ms.map (·.1)) ∧
      foldMembers (readField fields) first (seen names, names)
        (Bytes.ofChars (renderFrom first ms) ++ rest) fuel = .ok ((seen all, all), rest) := by
  induction ms generalizing first names fuel with
  | nil =>
    obtain ⟨fuel, rfl⟩ := Nat.exists_eq_add_one.mpr hfuel
    exact ⟨names, by simp, foldMembers_nil _ first _ rest fuel⟩
  | cons m ms ih =>
    obtain ⟨fuel, rfl⟩ := Nat.exists_eq_add_one.mpr (Nat.zero_lt_of_lt hfuel)
    obtain ⟨hm, hothers⟩ := List.forall_mem_cons.mp hreads
    have hmiddle : (m.1 :: names ++ ms.map (·.1)).Nodup := List.perm_middle.nodup_iff.mp hdistinct
    have hnew : m.1 ∉ names := fun hmem =>
      (List.nodup_cons.mp hmiddle).1 (List.mem_append_left _ hmem)
    have hread := readField_of_reads hm hnew (ends_renderFrom ms rest)
    obtain ⟨all, hall, hfold⟩ := ih hothers hmiddle false (Nat.lt_of_succ_lt_succ hfuel)
    refine ⟨all, fun k => ?_, (foldMembers_cons first fuel _ hread).trans hfold⟩
    rw [hall k, List.mem_cons, List.map_cons, List.mem_cons]
    tauto

/-- **A record is read back from its members**, in whatever order they are written. -/
theorem record_render {result : σ → Option α} (hreads : ∀ m ∈ ms, Reads fields seen m)
    (hdistinct : (ms.map (·.1)).Nodup) (hseen : Unordered seen)
    (hresult : result (seen (ms.map (·.1))) = some x) (rest : Bytes) :
    record fields (seen []) result (Bytes.ofChars (render (.object ms)) ++ rest) =
      .ok (x, rest) := by
  have hbrace (s : Bytes) : skipBlanks (byte '{' :: s) = byte '{' :: s := rfl
  have hfuel : ms.length < (Bytes.ofChars (renderFrom true ms) ++ rest).length + 1 := by
    have hlength := length_lt_renderFrom true ms
    rw [List.length_append]
    omega
  have hnone : (([] : List String) ++ ms.map (·.1)).Nodup := hdistinct
  obtain ⟨all, hall, hfold⟩ := foldMembers_readField hreads hnone true rest hfuel
  have hsame : seen all = seen (ms.map (·.1)) := hseen _ _ (by simpa using hall)
  rw [ofChars_render_object, List.cons_append, record, hbrace]
  simp only [if_true, namedFields_eq, hfold, hsame, hresult]

/-! ## What is kept while a record is read -/

/-- Nothing is read from a value of another kind. -/
theorem mismatch_ne_ok (s : Bytes) {r : α × Bytes} : mismatch s ≠ .ok r := by
  intro h
  unfold mismatch at h
  split at h
  · cases h
  split at h
  · cases h
  split at h <;> cases h

/-- The record in progress keeps a property, whatever a reader reads into it. -/
def Keeps (P : σ → Prop) (read : σ → Reader σ) : Prop :=
  ∀ state s state' s', P state → read state s = .ok (state', s') → P state'

/-- What is put into the record does no harm to the property. -/
theorem keeps_putting {P : σ → Prop} {Q : α → Prop} {read : Reader α} {put : σ → α → σ}
    (hread : ∀ s x s', read s = .ok (x, s') → Q x)
    (hput : ∀ state x, P state → Q x → P (put state x)) : Keeps P (putting read put) := by
  intro state s state' s' hstate h
  unfold putting at h
  split at h
  · cases h
  · next x _ hx =>
    cases h
    exact hput state x hstate (hread s x _ hx)

/-- What is read as the written form of something is that. -/
theorem of_textOf {read : String → Option α} {s : Bytes} (h : textOf read s = .ok (x, rest)) :
    ∃ text, read text = some x := by
  unfold textOf at h
  split at h
  · cases h
  split at h
  · next hread =>
    cases h
    exact ⟨_, hread⟩
  · cases h

/-- What is read as a value or nothing has the property of what is read as a value. -/
theorem of_optional {Q : α → Prop} {read : Reader α} {s : Bytes} {o : Option α}
    (hread : ∀ s x s', read s = .ok (x, s') → Q x) (h : optional read s = .ok (o, rest)) :
    ∀ y ∈ o, Q y := by
  unfold optional at h
  split at h
  · cases h
  split at h
  · cases hword : word [117, 108, 108] _ with
    | error f =>
      rw [hword] at h
      cases h
    | ok s =>
      rw [hword] at h
      cases h
      intro y hy
      cases hy
  split at h
  · cases h
  · next hvalue =>
    cases h
    intro y hy
    obtain rfl := Option.some.inj hy
    exact hread _ _ _ hvalue

/-- A document of a shape is something that is read and blanks. -/
theorem of_parseAs {read : Reader α} {s : Bytes} (h : parseAs read s = .ok x) :
    ∃ rest, read s = .ok (x, rest) := by
  simp only [parseAs, finish] at h
  split at h
  · cases h
  split at h
  · next hread _ =>
    cases h
    exact ⟨_, hread⟩
  · cases h

/-- Members that keep a property keep it together. -/
theorem keeps_foldMembers {P : σ → Prop} {member : String → σ → Reader σ}
    (hmember : ∀ k, Keeps P (member k)) (first : Bool) (fuel : Nat) :
    Keeps P fun state s => foldMembers member first state s fuel := by
  induction fuel generalizing first with
  | zero => exact fun _ _ _ _ _ h => nomatch h
  | succ fuel ih =>
    intro state s state' s' hstate h
    simp only [foldMembers] at h
    split at h
    · cases h
    · cases h
      exact hstate
    · next k _ _ =>
      split at h
      · cases h
      · next hnext => exact ih false _ _ _ _ (hmember k _ _ _ _ hstate hnext) h

/-- The members of a record keep what its fields keep. -/
theorem keeps_readField {P : σ → Prop} (hfields : ∀ f ∈ fields, Keeps P f.read) (k : String) :
    Keeps (fun state => P state.1) (readField fields k) := by
  intro state s state' s' hstate h
  simp only [readField] at h
  split at h
  · split at h
    · cases h
    split at h
    · cases h
    · cases h
      exact hstate
  · next field hfield =>
    split at h
    · cases h
    split at h
    · cases h
    split at h
    · cases h
    · next hread =>
      cases h
      exact hfields field (List.mem_of_find?_eq_some hfield) _ _ _ _ hstate hread

/-- The items of a record keep what its fields keep. -/
theorem keeps_listedFields {P : σ → Prop} (hfields : ∀ f ∈ fields, Keeps P f.read) (first : Bool) :
    Keeps P fun state s => listedFields first state s fields := by
  induction fields generalizing first with
  | nil =>
    intro state s state' s' hstate h
    simp only [listedFields] at h
    split at h
    · cases h
    split at h
    · cases h
      exact hstate
    · cases h
  | cons field fields ih =>
    obtain ⟨hfield, hothers⟩ := List.forall_mem_cons.mp hfields
    intro state s state' s' hstate h
    -- whatever the separator, the item is read by its field and the others follow
    have hcontinue (t : Bytes) (h : (match field.read state t with
        | Except.error f => Except.error f
        | .ok (state, t) => listedFields false state t fields) = .ok (state', s')) : P state' := by
      split at h
      · cases h
      · next hread => exact ih hothers false _ _ _ _ (hfield _ _ _ _ hstate hread) h
    simp only [listedFields] at h
    split at h
    · cases h
    split at h
    · split at h
      · cases h
        exact hstate
      · cases h
    split at h
    · exact hcontinue _ h
    split at h
    · split at h
      · cases h
      split at h
      · cases h
      · exact hcontinue _ h
    · cases h

/-- **What all fields keep holds of every record that is read**, named or listed. -/
theorem exists_of_record {P : σ → Prop} {start : σ} {result : σ → Option α} {s rest : Bytes}
    (hstart : P start) (hfields : ∀ f ∈ fields, Keeps P f.read)
    (h : record fields start result s = .ok (x, rest)) :
    ∃ state, P state ∧ result state = some x := by
  have hnamed (t : Bytes) {state : σ} {t' : Bytes}
      (h : namedFields fields start t = .ok (state, t')) : P state := by
    rw [namedFields_eq] at h
    split at h
    · cases h
    · next hfold =>
      cases h
      exact keeps_foldMembers (keeps_readField hfields) true _ _ _ _ _ hstart hfold
  simp only [record] at h
  split at h
  · cases h
  · next state _ hread =>
    have hstate : P state := by
      split at hread
      · cases hread
      split at hread
      · exact hnamed _ hread
      split at hread
      · exact keeps_listedFields hfields true _ _ _ _ hstart hread
      · exact absurd hread (mismatch_ne_ok _)
    split at h
    · cases h
      exact ⟨state, hstate, ‹_›⟩
    · cases h

/-- A document that holds what is read and nothing else. -/
theorem parseAs_of_render {read : Reader α} {v : Json}
    (h : read (Bytes.ofChars (render v) ++ []) = .ok (x, [])) : parseAs read v.toBytes = .ok x := by
  rw [parseAs, toBytes, toText, Bytes.ofString_ofList,
    ← List.append_nil (Bytes.ofChars (render v)), h]
  rfl

end Courier.Json
