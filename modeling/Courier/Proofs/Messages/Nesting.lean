import Courier.Proofs.Messages.Numbers
import Courier.Proofs.Messages.Sealing

/-!
# Nesting and back

A value is written however deeply its lists and objects are nested, but a reader goes into them only
up to a bound.  That is all that a reader ever holds against what was written: a value within the
bound is read, and any other is refused as malformed.

The induction is over the value, with one statement each for a value, for the items of a list and
for the members of an object.  All three say the same of what the reader gives (`Bounded`), so a
list is refused exactly if one of its items is.

Main statements: `bounded_value` and `parse_render`.
-/

namespace Courier.Json

variable {α β : Type} {d : Nat} {rest : Bytes} {fuel : Nat}

mutual

/-- How deeply lists and objects are nested in a value. -/
def depth : Json → Nat
  | .null | .bool _ | .number _ | .text _ => 0
  | .list vs => depthOfItems vs + 1
  | .object ms => depthOfMembers ms + 1

/-- The depth of the deepest item. -/
def depthOfItems : List Json → Nat
  | [] => 0
  | v :: vs => max (depth v) (depthOfItems vs)

/-- The depth of the deepest member. -/
def depthOfMembers : List (String × Json) → Nat
  | [] => 0
  | (_, v) :: ms => max (depth v) (depthOfMembers ms)

end

mutual

/-- All numbers of a value are numbers of a document. -/
def InRange : Json → Prop
  | .null | .bool _ | .text _ => True
  | .number n => n.InRange
  | .list vs => ItemsInRange vs
  | .object ms => MembersInRange ms

/-- All numbers of the items are numbers of a document. -/
def ItemsInRange : List Json → Prop
  | [] => True
  | v :: vs => InRange v ∧ ItemsInRange vs

/-- All numbers of the members are numbers of a document. -/
def MembersInRange : List (String × Json) → Prop
  | [] => True
  | (_, v) :: ms => InRange v ∧ MembersInRange ms

end

/-! ## What a bounded reader gives -/

/-- What a reader with the bound `d` gives for something of a certain depth: something that ends
where `rest` begins if the depth is within the bound, and a refusal otherwise. -/
def Bounded (depth d : Nat) (r : Outcome α) (rest : Bytes) : Prop :=
  (depth ≤ d → ∃ x, r = .ok (x, rest)) ∧ (d < depth → r = .error .malformed)

theorem Bounded.of_ok {r : Outcome α} {x : α} (h : r = .ok (x, rest)) : Bounded 0 d r rest :=
  ⟨fun _ => ⟨x, h⟩, fun hlt => absurd hlt (Nat.not_lt_zero d)⟩

theorem Bounded.map {depth : Nat} {r : Outcome α} (h : Bounded depth d r rest) (f : α → β) :
    Bounded depth d (r.map fun x => (f x.1, x.2)) rest := by
  refine ⟨fun hle => ?_, fun hlt => ?_⟩
  · obtain ⟨x, hx⟩ := h.1 hle
    exact ⟨f x, by rw [hx]; rfl⟩
  · rw [h.2 hlt]
    rfl

/-- One more list or object takes one more of the bound. -/
theorem Bounded.succ {depth : Nat} {r : Outcome α} (h : Bounded depth d r rest) :
    Bounded (depth + 1) (d + 1) r rest :=
  ⟨fun hle => h.1 (Nat.le_of_succ_le_succ hle), fun hlt => h.2 (Nat.lt_of_succ_lt_succ hlt)⟩

/-- Without a bound left, nothing nested is read. -/
theorem Bounded.of_zero {depth : Nat} {r : Outcome α} (h : r = .error .malformed) :
    Bounded (depth + 1) 0 r rest :=
  ⟨fun hle => absurd hle (Nat.not_succ_le_zero depth), fun _ => h⟩

/-- One thing after another: what is read of the first decides whether it goes on, and if the first
is refused, both are. -/
theorem Bounded.then {depth depth' : Nat} {r : Outcome α} {both : Outcome β} {middle : Bytes}
    (h : Bounded depth d r middle)
    (hnext : ∀ x, r = .ok (x, middle) → Bounded depth' d both rest)
    (hrefused : r = .error .malformed → both = .error .malformed) :
    Bounded (max depth depth') d both rest := by
  by_cases hfirst : depth ≤ d
  · obtain ⟨x, hx⟩ := h.1 hfirst
    have hsecond := hnext x hx
    exact ⟨fun hle => hsecond.1 (by omega), fun hlt => hsecond.2 (by omega)⟩
  · have herror := hrefused (h.2 (by omega))
    exact ⟨fun hle => absurd hle (by omega), fun _ => herror⟩

/-! ## How values begin -/

/-- A byte with which an item can begin: neither a blank nor the closing bracket. -/
def Begins (b : UInt8) : Prop := isBlank b = false ∧ b ≠ byte ']'

/-- A written value begins as an item can. -/
theorem first_render {v : Json} (hv : v.InRange) :
    ∃ b tail, Bytes.ofChars (render v) = b :: tail ∧ Begins b := by
  match v, hv with
  | .null, _ => exact ⟨byte 'n', _, rfl, rfl, by decide⟩
  | .bool true, _ => exact ⟨byte 't', _, rfl, rfl, by decide⟩
  | .bool false, _ => exact ⟨byte 'f', _, rfl, rfl, by decide⟩
  | .number n, hn =>
    rw [InRange] at hn
    obtain ⟨b, tail, hb, hsign | hdigit⟩ := first_numberText hn
    · exact ⟨b, tail, hb, by rw [hsign]; exact ⟨rfl, by decide⟩⟩
    · exact ⟨b, tail, hb, not_isBlank_of_isDigit hdigit, ne_of_isDigit hdigit rfl⟩
  | .text s, _ => exact ⟨byte '"', _, ofChars_quoted s, rfl, by decide⟩
  | .list vs, _ => exact ⟨byte '[', _, rfl, rfl, by decide⟩
  | .object ms, _ => exact ⟨byte '{', _, rfl, rfl, by decide⟩

/-! ## Items -/

/-- Items up to the closing bracket; behind others they begin with a comma. -/
def renderItemsFrom (first : Bool) : List Json → List Char
  | [] => [']']
  | v :: vs => (if first then [] else [',']) ++ (render v ++ renderItemsFrom false vs)

theorem renderItems_eq (vs : List Json) : renderItems vs = renderItemsFrom true vs := by
  induction vs with
  | nil => rfl
  | cons v vs ih =>
    cases vs with
    | nil => simp [renderItems, renderItemsFrom]
    | cons w vs =>
      rw [renderItems, ih]
      simp [renderItemsFrom]

/-- Each item takes at least one byte. -/
theorem length_lt_renderItemsFrom (first : Bool) {vs : List Json} (h : ItemsInRange vs) :
    vs.length < (Bytes.ofChars (renderItemsFrom first vs)).length := by
  induction vs generalizing first with
  | nil => exact Nat.one_pos
  | cons v vs ih =>
    rw [ItemsInRange] at h
    obtain ⟨b, tail, hv, -⟩ := first_render h.1
    have hrest := ih false h.2
    simp only [renderItemsFrom, Bytes.ofChars_append, hv, List.length_append, List.length_cons]
    omega

/-- What follows an item ends it. -/
theorem ends_renderItemsFrom (vs : List Json) (rest : Bytes) :
    Ends (Bytes.ofChars (renderItemsFrom false vs) ++ rest) := by
  cases vs with
  | nil => exact ends_cons (.inr (.inl rfl)) _
  | cons v vs => exact ends_cons (.inl rfl) _

/-- What follows a member ends it. -/
theorem ends_renderFrom (ms : List (String × Json)) (rest : Bytes) :
    Ends (Bytes.ofChars (renderFrom false ms) ++ rest) := by
  cases ms with
  | nil => exact ends_cons (.inr (.inr rfl)) _
  | cons m ms => exact ends_cons (.inl rfl) _

theorem items_nil (item : Reader α) (first : Bool) (rest : Bytes) (fuel : Nat) :
    items item first (Bytes.ofChars (renderItemsFrom first []) ++ rest) (fuel + 1) =
      .ok ([], rest) := by
  cases first <;> rfl

/-- **An item of a written list is read by itself**, and what it gives decides how it goes on. -/
theorem items_cons (item : Reader α) (first : Bool) {v : Json} (hv : v.InRange) (vs : List Json)
    (rest : Bytes) (fuel : Nat) :
    items item first (Bytes.ofChars (renderItemsFrom first (v :: vs)) ++ rest) (fuel + 1) =
      match item (Bytes.ofChars (render v) ++
          (Bytes.ofChars (renderItemsFrom false vs) ++ rest)) with
      | .error f => .error f
      | .ok (x, s) => (items item false s fuel).map fun r => (x :: r.1, r.2) := by
  obtain ⟨b, tail, hb, hblank, hclosing⟩ := first_render hv
  have hskip (s : Bytes) : skipBlanks (b :: s) = b :: s := skipBlanks_cons hblank s
  rw [renderItemsFrom, Bytes.ofChars_append, Bytes.ofChars_append, hb, items]
  cases first with
  | true =>
    have hnone : Bytes.ofChars [] = [] := rfl
    simp only [if_true, hnone, List.nil_append, List.cons_append, List.append_assoc, hskip,
      if_neg hclosing]
    cases item (b :: (tail ++ (Bytes.ofChars (renderItemsFrom false vs) ++ rest))) with
    | error f => rfl
    | ok r => cases h : items item false r.2 fuel <;> simp only [h] <;> rfl
  | false =>
    have hone : Bytes.ofChars [','] = [byte ','] := rfl
    have hcomma (s : Bytes) : skipBlanks (byte ',' :: s) = byte ',' :: s := rfl
    have hne : byte ',' ≠ byte ']' := by decide
    simp only [Bool.false_eq_true, if_false, if_true, hone, List.nil_append, List.cons_append,
      List.append_assoc, hcomma, hskip, if_neg hne, if_neg hclosing]
    cases item (b :: (tail ++ (Bytes.ofChars (renderItemsFrom false vs) ++ rest))) with
    | error f => rfl
    | ok r => cases h : items item false r.2 fuel <;> simp only [h] <;> rfl

/-! ## Values -/

theorem value_list (d : Nat) (s : Bytes) :
    value (d + 1) (byte '[' :: s) =
      (items (value d) true s (s.length + 1)).map fun r => (.list r.1, r.2) := by
  rw [value]
  rfl

theorem value_quote (d : Nat) (s : Bytes) :
    value d (byte '"' :: s) = (textAfterQuote s).map fun r => (.text r.1, r.2) := by
  rw [value]
  rfl

/-- The reader of the members of an object. -/
def readMember (d : Nat) (k : String) (m : Dictionary Json) : Reader (Dictionary Json) := fun s =>
  match colon s with
  | .error f => .error f
  | .ok s => (value d s).map fun r => (m.insert k r.1, r.2)

theorem value_object (d : Nat) (s : Bytes) :
    value (d + 1) (byte '{' :: s) =
      (foldMembers (readMember d) true [] s (s.length + 1)).map fun r => (.object r.1, r.2) := by
  rw [value]
  rfl

/-- Without a bound left, no list is read. -/
theorem value_list_zero (s : Bytes) : value 0 (byte '[' :: s) = .error .malformed := by
  rw [value]
  rfl

theorem value_object_zero (s : Bytes) : value 0 (byte '{' :: s) = .error .malformed := by
  rw [value]
  rfl

theorem ofChars_render_list (vs : List Json) :
    Bytes.ofChars (render (.list vs)) = byte '[' :: Bytes.ofChars (renderItemsFrom true vs) := by
  rw [render, renderItems_eq, Bytes.ofChars_cons]
  rfl

mutual

/-- **A written value is read up to the bound.** -/
theorem bounded_value : ∀ (v : Json), v.InRange → ∀ (d : Nat) (rest : Bytes), Ends rest →
    Bounded v.depth d (value d (Bytes.ofChars (render v) ++ rest)) rest
  | .null, _, d, rest, _ => .of_ok (x := .null) (by unfold value; rfl)
  | .bool true, _, d, rest, _ => .of_ok (x := .bool true) (by unfold value; rfl)
  | .bool false, _, d, rest, _ => .of_ok (x := .bool false) (by unfold value; rfl)
  | .number n, hn, d, rest, hrest => by
    rw [InRange] at hn
    obtain ⟨m, hm⟩ := exists_value_number hn hrest
    exact .of_ok (hm d)
  | .text s, _, d, rest, _ => by
    have hread := textAfterQuote_quoted s rest
    have hvalue : value d (Bytes.ofChars (quoted s) ++ rest) = .ok (.text s, rest) := by
      rw [ofChars_quoted, List.cons_append, List.append_assoc, List.singleton_append, value_quote,
        hread]
      rfl
    exact .of_ok hvalue
  | .list vs, hvs, d, rest, hrest => by
    rw [InRange] at hvs
    have hfuel : vs.length < (Bytes.ofChars (renderItemsFrom true vs) ++ rest).length + 1 := by
      have hlength := length_lt_renderItemsFrom true hvs
      rw [List.length_append]
      omega
    rw [ofChars_render_list, List.cons_append]
    cases d with
    | zero => exact .of_zero (value_list_zero _)
    | succ d =>
      rw [value_list]
      exact ((bounded_items vs hvs d true rest _ hfuel).map _).succ
  | .object ms, hms, d, rest, hrest => by
    rw [InRange] at hms
    have hfuel : ms.length < (Bytes.ofChars (renderFrom true ms) ++ rest).length + 1 := by
      have hlength := length_lt_renderFrom true ms
      rw [List.length_append]
      omega
    rw [ofChars_render_object, List.cons_append]
    cases d with
    | zero => exact .of_zero (value_object_zero _)
    | succ d =>
      rw [value_object]
      exact ((bounded_members ms hms d true [] rest _ hfuel).map _).succ

/-- Items are read up to the bound if all of them are. -/
theorem bounded_items : ∀ (vs : List Json), ItemsInRange vs →
    ∀ (d : Nat) (first : Bool) (rest : Bytes) (fuel : Nat), vs.length < fuel →
    Bounded (depthOfItems vs) d
      (items (value d) first (Bytes.ofChars (renderItemsFrom first vs) ++ rest) fuel) rest
  | [], _, d, first, rest, fuel, hfuel => by
    obtain ⟨fuel, rfl⟩ := Nat.exists_eq_add_one.mpr hfuel
    exact .of_ok (items_nil _ first rest fuel)
  | v :: vs, hvs, d, first, rest, fuel, hfuel => by
    rw [ItemsInRange] at hvs
    obtain ⟨fuel, rfl⟩ := Nat.exists_eq_add_one.mpr (Nat.zero_lt_of_lt hfuel)
    have hfirst := bounded_value v hvs.1 d _ (ends_renderItemsFrom vs rest)
    have hothers := bounded_items vs hvs.2 d false rest fuel (Nat.lt_of_succ_lt_succ hfuel)
    rw [items_cons (value d) first hvs.1 vs rest fuel]
    refine hfirst.then ?_ ?_
    · intro x hx
      rw [hx]
      exact hothers.map (x :: ·)
    · intro herror
      rw [herror]

/-- Members are read up to the bound if all of them are. -/
theorem bounded_members : ∀ (ms : List (String × Json)), MembersInRange ms →
    ∀ (d : Nat) (first : Bool) (state : Dictionary Json) (rest : Bytes) (fuel : Nat),
    ms.length < fuel →
    Bounded (depthOfMembers ms) d
      (foldMembers (readMember d) first state
        (Bytes.ofChars (renderFrom first ms) ++ rest) fuel) rest
  | [], _, d, first, state, rest, fuel, hfuel => by
    obtain ⟨fuel, rfl⟩ := Nat.exists_eq_add_one.mpr hfuel
    exact .of_ok (foldMembers_nil _ first state rest fuel)
  | (k, v) :: ms, hms, d, first, state, rest, fuel, hfuel => by
    rw [MembersInRange] at hms
    obtain ⟨fuel, rfl⟩ := Nat.exists_eq_add_one.mpr (Nat.zero_lt_of_lt hfuel)
    have hfirst := bounded_value v hms.1 d _ (ends_renderFrom ms rest)
    rw [foldMembers_member]
    refine hfirst.then ?_ ?_
    · intro x hx
      simp only [readMember, colon_cons, hx]
      exact bounded_members ms hms.2 d false _ rest fuel (Nat.lt_of_succ_lt_succ hfuel)
    · intro herror
      simp only [readMember, colon_cons, herror]
      rfl

end

/-- **A document that was written is read within the greatest depth**, and refused as malformed
beyond it. -/
theorem parse_render {v : Json} (hv : v.InRange) :
    (v.depth ≤ maxDepth → ∃ w, parse v.toBytes = .ok w) ∧
      (maxDepth < v.depth → parse v.toBytes = .error .malformed) := by
  obtain ⟨hread, hrefused⟩ := bounded_value v hv maxDepth [] ends_nil
  have hbytes : v.toBytes = Bytes.ofChars (render v) ++ [] := by
    rw [toBytes, toText, Bytes.ofString_ofList, List.append_nil]
  rw [parse, hbytes]
  refine ⟨fun hle => ?_, fun hlt => ?_⟩
  · obtain ⟨w, hw⟩ := hread hle
    exact ⟨w, by rw [hw]; rfl⟩
  · rw [hrefused hlt]
    rfl

end Courier.Json

namespace Courier.Serializer

/-- **The serializer for JSON reads what it wrote** within the greatest depth, and refuses it beyond
that. -/
theorem json_deserialize_toBytes {v : Json} (hv : v.InRange) (type : MessageType) :
    (v.depth ≤ Json.maxDepth → ∃ w, json.deserialize type v.toBytes = .ok w) ∧
      (Json.maxDepth < v.depth → json.deserialize type v.toBytes = .error (.json .malformed)) := by
  obtain ⟨hread, hrefused⟩ := Json.parse_render hv
  have hsome : v.toBytes.isEmpty = false := by
    obtain ⟨b, tail, hb, -⟩ := Json.first_render hv
    rw [Json.toBytes, Json.toText, Bytes.ofString_ofList, hb]
    rfl
  refine ⟨fun hle => ?_, fun hlt => ?_⟩
  · obtain ⟨w, hw⟩ := hread hle
    exact ⟨w, by simp only [json, hsome, hw, Bool.false_eq_true, if_false]⟩
  · simp only [json, hsome, hrefused hlt, Bool.false_eq_true, if_false]

end Courier.Serializer
