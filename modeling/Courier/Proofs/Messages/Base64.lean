import Courier.Base64

/-!
# Base 64 and back

Every byte string is read back from its written form.  The alphabet gives each of its 64 values a
character of its own, none of which is the padding; a full group of four characters is read by
itself, and a padded group can only be the last one.

Main statement: `decode?_encode`.
-/

namespace Courier.Base64

/-- A character of the alphabet is read back, and it is not the padding. -/
theorem value?_symbol_all :
    ∀ n < 64, value? (symbol n) = some n ∧ symbol n ≠ '=' := by
  decide

theorem value?_symbol {n : Nat} (h : n < 64) : value? (symbol n) = some n :=
  (value?_symbol_all n h).1

theorem symbol_ne_padding {n : Nat} (h : n < 64) : symbol n ≠ '=' := (value?_symbol_all n h).2

/-- A group without padding is read by itself. -/
theorem decode?_group {a b c d : Char} {x y z w : Nat} (rest : List Char) (hd : d ≠ '=')
    (hx : value? a = some x) (hy : value? b = some y) (hz : value? c = some z)
    (hw : value? d = some w) :
    decode? (a :: b :: c :: d :: rest) = (decode? rest).map fun tail =>
      UInt8.ofNat (x * 4 + y / 16) :: UInt8.ofNat (y % 16 * 16 + z / 4) ::
        UInt8.ofNat (z % 4 * 64 + w) :: tail := by
  cases rest with
  | nil => simp [decode?, hd, hx, hy, hz, hw]
  | cons e rest =>
    simp only [decode?, hx, hy, hz, hw, Option.bind_eq_bind, Option.bind_some]
    cases decode? (e :: rest) <;> rfl

/-- A last group of two characters gives one byte. -/
theorem decode?_one {a b : Char} {x y : Nat} (hx : value? a = some x) (hy : value? b = some y)
    (hrest : y % 16 = 0) : decode? [a, b, '=', '='] = some [UInt8.ofNat (x * 4 + y / 16)] := by
  simp [decode?, hx, hy, hrest]

/-- A last group of three characters gives two bytes. -/
theorem decode?_two {a b c : Char} {x y z : Nat} (hc : c ≠ '=') (hx : value? a = some x)
    (hy : value? b = some y) (hz : value? c = some z) (hrest : z % 4 = 0) :
    decode? [a, b, c, '='] =
      some [UInt8.ofNat (x * 4 + y / 16), UInt8.ofNat (y % 16 * 16 + z / 4)] := by
  simp [decode?, hx, hy, hz, hrest]

theorem ofNat_toNat_of_eq {b : UInt8} {n : Nat} (h : n = b.toNat) : UInt8.ofNat n = b := by
  rw [h, UInt8.ofNat_toNat]

/-- **A byte string is read back from its written form.** -/
theorem decode?_encode (b : Bytes) : decode? (encode b) = some b := by
  fun_induction encode b with
  | case1 a b c rest n ih =>
    have ha := a.toNat_lt
    have hb := b.toNat_lt
    have hc := c.toNat_lt
    rw [decode?_group (encode rest) (symbol_ne_padding (by omega)) (value?_symbol (by omega))
      (value?_symbol (by omega)) (value?_symbol (by omega)) (value?_symbol (by omega)), ih]
    simp only [Option.map_some, Option.some.injEq, List.cons.injEq, and_true]
    exact ⟨ofNat_toNat_of_eq (by omega), ofNat_toNat_of_eq (by omega), ofNat_toNat_of_eq (by omega)⟩
  | case2 a b n =>
    have ha := a.toNat_lt
    have hb := b.toNat_lt
    rw [decode?_two (symbol_ne_padding (by omega)) (value?_symbol (by omega))
      (value?_symbol (by omega)) (value?_symbol (by omega)) (by omega)]
    simp only [Option.some.injEq, List.cons.injEq, and_true]
    exact ⟨ofNat_toNat_of_eq (by omega), ofNat_toNat_of_eq (by omega)⟩
  | case3 a n =>
    have ha := a.toNat_lt
    rw [decode?_one (value?_symbol (by omega)) (value?_symbol (by omega)) (by omega)]
    simp only [Option.some.injEq, List.cons.injEq, and_true]
    exact ofNat_toNat_of_eq (by omega)
  | case4 => rfl

end Courier.Base64
