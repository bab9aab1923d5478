import Courier.Decimal.Shortest
import Courier.Proofs.Decimal.Rounding
import Mathlib.Data.Nat.Cast.Order.Field

/-!
# The digits of a double

The shortest digits of a double other than zero are written without a leading zero, and the decimal
that they stand for does not lie above the reals that round to the double (`ceiling`).  It does not
matter for that where the digits come from: from the search on ever finer grids, or from the last
resort behind it, which cuts the number off.

Main statement: `shortest_spec`.
-/

namespace Courier.Decimal

/-- A decimal as a number. -/
def Digits.size (d : Digits) : ℚ := Nat.ofDigitChars 10 (digitText d.digits) 0 * 10 ^ d.exponent

/-- A decimal is written in digits without a leading zero. -/
structure Digits.Proper (d : Digits) : Prop where
  digit : ∀ c ∈ digitText d.digits, c.isDigit = true
  first : ∃ c cs, digitText d.digits = c :: cs ∧ c ≠ '0'

variable {d : Digits} {x : Double} {n m : Nat} {k : Int}

/-! ## Digits of a natural number -/

theorem digitChar_ne_zero : ∀ n < 10, n ≠ 0 → n.digitChar ≠ '0' := by decide

/-- The first digit of a number other than zero is not zero. -/
theorem toDigits_first (n : Nat) : n ≠ 0 → ∃ c cs, Nat.toDigits 10 n = c :: cs ∧ c ≠ '0' := by
  induction n using Nat.strong_induction_on with
  | _ n ih =>
    intro hn
    by_cases hsmall : n < 10
    · exact ⟨_, [], Nat.toDigits_of_lt_base hsmall, digitChar_ne_zero n hsmall hn⟩
    · obtain ⟨c, cs, hfirst, hc⟩ := ih (n / 10) (by omega) (by omega)
      refine ⟨c, cs ++ [(n % 10).digitChar], ?_, hc⟩
      rw [Nat.toDigits_of_base_le (by decide) (by omega), hfirst, List.cons_append]

theorem digitText_digitsOf (n : Nat) : digitText (digitsOf n) = Nat.toDigits 10 n := by
  rw [digitText, digitsOf, List.map_map]
  conv_rhs => rw [← List.map_id (Nat.toDigits 10 n)]
  refine List.map_congr_left fun c hc => ?_
  have hdigit := Nat.isDigit_of_mem_toDigits (by decide) (by decide) hc
  have hlow : 48 ≤ c.toNat := (Char.isDigit_iff_toNat.mp hdigit).1
  show Char.ofNat (48 + (c.toNat - 48)) = c
  rw [Nat.add_sub_cancel' hlow, Char.ofNat_toNat]

theorem proper_digitsOf (hn : n ≠ 0) (k : Int) : Digits.Proper ⟨digitsOf n, k⟩ where
  digit c hc := by
    rw [digitText_digitsOf] at hc
    exact Nat.isDigit_of_mem_toDigits (by decide) (by decide) hc
  first := by
    rw [digitText_digitsOf]
    exact toDigits_first n hn

theorem size_digitsOf (n : Nat) (k : Int) : Digits.size ⟨digitsOf n, k⟩ = n * 10 ^ k := by
  rw [Digits.size, digitText_digitsOf, Nat.ofDigitChars_ten_toDigits]

/-! ## Trailing zeros -/

/-- The digits without trailing zeros, and these zeros. -/
theorem digits_eq_append (ds : List Nat) :
    ds.take (ds.length - (ds.reverse.takeWhile (· == 0)).length) ++
      List.replicate (ds.reverse.takeWhile (· == 0)).length 0 = ds := by
  have hsplit : (ds.reverse.dropWhile (· == 0)).reverse ++
      (ds.reverse.takeWhile (· == 0)).reverse = ds := by
    rw [← List.reverse_append, List.takeWhile_append_dropWhile, List.reverse_reverse]
  have hzeros : (ds.reverse.takeWhile (· == 0)).reverse =
      List.replicate (ds.reverse.takeWhile (· == 0)).length 0 := by
    refine List.eq_replicate_iff.mpr ⟨List.length_reverse, fun b hb => ?_⟩
    simpa using List.all_eq_true.mp List.all_takeWhile b (List.mem_reverse.mp hb)
  have hlength := congrArg List.length hsplit
  rw [List.length_append, List.length_reverse, List.length_reverse] at hlength
  rw [hzeros] at hsplit
  generalize (ds.reverse.takeWhile (· == 0)).length = zeros at hsplit hlength ⊢
  generalize ds.reverse.dropWhile (· == 0) = front at hsplit hlength
  have htake : ds.take (ds.length - zeros) = front.reverse := by
    rw [← hsplit, List.take_left']
    simp
  rw [htake, hsplit]

theorem digitText_append (ds es : List Nat) : digitText (ds ++ es) = digitText ds ++ digitText es :=
  List.map_append

theorem digitText_zeros (n : Nat) : digitText (List.replicate n 0) = List.replicate n '0' :=
  List.map_replicate

/-- Dropping zeros changes neither the first digit nor the number. -/
theorem Digits.Proper.trimmed (h : d.Proper) : d.trimmed.Proper ∧ d.trimmed.size = d.size := by
  unfold Digits.trimmed
  dsimp only
  have hsplit := digits_eq_append d.digits
  generalize (d.digits.reverse.takeWhile (· == 0)).length = zeros at hsplit ⊢
  split
  · exact ⟨h, rfl⟩
  · next hne =>
    obtain ⟨c, cs, hfirst, hc⟩ := h.first
    have htext : digitText d.digits =
        digitText (d.digits.take (d.digits.length - zeros)) ++ List.replicate zeros '0' := by
      rw [← digitText_zeros, ← digitText_append, hsplit]
    have hlength := congrArg List.length hsplit
    rw [List.length_append, List.length_replicate] at hlength
    generalize d.digits.take (d.digits.length - zeros) = front at htext hlength ⊢
    refine ⟨⟨fun c hc => h.digit c (htext ▸ List.mem_append_left _ hc), ?_⟩, ?_⟩
    · cases front with
      | nil =>
        simp at hlength
        exact absurd hlength hne
      | cons a front =>
        have hhead := htext.symm.trans hfirst
        exact ⟨_, _, rfl, (List.cons.inj hhead).1 ▸ hc⟩
    · rw [Digits.size, Digits.size, htext, Nat.ofDigitChars_append, Nat.ofDigitChars_replicate_zero,
        zpow_add₀ (by norm_num), zpow_natCast]
      push_cast
      ring

/-! ## The interval of a double -/

/-- The upper end of the reals that round to the size of `x`. -/
def ceiling (x : Double) : ℚ := (2 * x.mantissa + 1) * 2 ^ (x.exponent - 1)

theorem zpow_toNat (b : ℚ) (hb : b ≠ 0) (k : Int) : b ^ k = b ^ k.toNat / b ^ (-k).toNat := by
  rw [← zpow_natCast, ← zpow_natCast, ← zpow_sub₀ hb]
  congr 1
  omega

theorem size_le_ceiling (x : Double) : x.size ≤ ceiling x := by
  have hhalf : (2 : ℚ) ^ x.exponent = 2 * 2 ^ (x.exponent - 1) := by
    rw [zpow_sub_one₀ two_ne_zero]
    ring
  have hpos : (0 : ℚ) < 2 ^ (x.exponent - 1) := by positivity
  rw [Double.size, ceiling, hhalf]
  nlinarith

theorem high_eq_ceiling (x : Double) :
    ((Interval.of x).high : ℚ) * 2 ^ (Interval.of x).exponent = ceiling x := by
  have hhalf : (2 : ℚ) ^ (x.exponent - 1) = 2 * 2 ^ (x.exponent - 2) := by
    rw [← zpow_one_add₀ two_ne_zero]
    congr 1
    omega
  rw [ceiling, hhalf]
  simp only [Interval.of]
  push_cast
  ring

/-- What lies in the interval does not lie above its upper end. -/
theorem le_ceiling_of_contains (h : (Interval.of x).contains n k = true) :
    (n : ℚ) * 10 ^ k ≤ ceiling x := by
  rw [← high_eq_ceiling]
  generalize Interval.of x = i at h ⊢
  have hle : n * 10 ^ k.toNat * 2 ^ (-i.exponent).toNat ≤
      i.high * (2 ^ i.exponent.toNat * 10 ^ (-k).toNat) := by
    simp only [Interval.contains, Nat.pow_eq] at h
    split at h
    · simp only [Bool.and_eq_true, decide_eq_true_eq] at h
      exact h.2
    · simp only [Bool.and_eq_true, decide_eq_true_eq] at h
      exact h.2.le
  have hcast : (n : ℚ) * 10 ^ k.toNat * 2 ^ (-i.exponent).toNat ≤
      i.high * (2 ^ i.exponent.toNat * 10 ^ (-k).toNat) := by
    exact_mod_cast hle
  rw [zpow_toNat 10 (by norm_num) k, zpow_toNat 2 (by norm_num) i.exponent, ← mul_div_assoc,
    ← mul_div_assoc, div_le_div_iff₀ (by positivity) (by positivity)]
  linarith

/-! ## The grids -/

theorem onGrid_pos (x : Double) (k : Int) : 0 < (onGrid x k).2 :=
  Nat.mul_pos (Double.fraction_pos x) (Nat.pow_pos (by decide))

theorem onGrid_eq (x : Double) (k : Int) :
    ((onGrid x k).1 : ℚ) / (onGrid x k).2 = x.size / 10 ^ k := by
  have hsize := Double.fraction_eq x
  simp only [onGrid, Nat.pow_eq]
  push_cast
  rw [zpow_toNat 10 (by norm_num) k, ← hsize, mul_div_mul_comm, div_div_eq_mul_div, mul_div_assoc]

/-- What is cut off at a grid point does not lie above the number. -/
theorem floor_le_size (x : Double) (k : Int) :
    (((onGrid x k).1 / (onGrid x k).2 : Nat) : ℚ) * 10 ^ k ≤ x.size := by
  have hpos : (0 : ℚ) < 10 ^ k := by positivity
  rw [← le_div_iff₀ hpos, ← onGrid_eq]
  exact Nat.cast_div_le

/-- A number other than zero that lies on the grid is not cut off to zero. -/
theorem floor_ne_zero (hx : x.mantissa ≠ 0) (hexact : (onGrid x k).1 % (onGrid x k).2 = 0) :
    (onGrid x k).1 / (onGrid x k).2 ≠ 0 := by
  intro hzero
  have hnum : (onGrid x k).1 = 0 := by
    have hsplit := Nat.div_add_mod (onGrid x k).1 (onGrid x k).2
    rw [hzero, hexact] at hsplit
    omega
  have hten : (10 : ℚ) ^ k ≠ 0 := by positivity
  have hgrid := onGrid_eq x k
  rw [hnum, Nat.cast_zero, zero_div] at hgrid
  exact hx (Double.size_eq_zero_iff.mp ((div_eq_zero_iff.mp hgrid.symm).resolve_right hten))

/-- A hit is not zero and lies in the interval. -/
theorem hit?_spec (hx : x.mantissa ≠ 0) (h : hit? x k = some m) :
    m ≠ 0 ∧ (m : ℚ) * 10 ^ k ≤ ceiling x := by
  have hfloor := floor_le_size x k
  have hne : (onGrid x k).1 % (onGrid x k).2 = 0 → (onGrid x k).1 / (onGrid x k).2 ≠ 0 :=
    floor_ne_zero hx
  unfold hit? at h
  generalize onGrid x k = g at h hfloor hne
  obtain ⟨a, b⟩ := g
  dsimp only at h hfloor hne
  split at h
  · next hexact =>
    obtain rfl := Option.some.inj h
    exact ⟨hne hexact, hfloor.trans (size_le_ceiling x)⟩
  · have hlow : ((Interval.of x).contains (a / b) k && decide (0 < a / b)) = true →
        a / b ≠ 0 ∧ ((a / b : Nat) : ℚ) * 10 ^ k ≤ ceiling x := by
      intro hhit
      obtain ⟨hin, hpositive⟩ := Bool.and_eq_true_iff.mp hhit
      exact ⟨(of_decide_eq_true hpositive).ne', le_ceiling_of_contains hin⟩
    have hhigh : (Interval.of x).contains (a / b + 1) k = true →
        a / b + 1 ≠ 0 ∧ ((a / b + 1 : Nat) : ℚ) * 10 ^ k ≤ ceiling x :=
      fun hin => ⟨Nat.succ_ne_zero _, le_ceiling_of_contains hin⟩
    split at h
    · next hboth =>
      obtain ⟨hlow', hhigh'⟩ := Bool.and_eq_true_iff.mp hboth
      obtain rfl := Option.some.inj h
      split
      · exact hlow hlow'
      split
      · exact hhigh hhigh'
      split
      · exact hlow hlow'
      · exact hhigh hhigh'
    split at h
    · next hlow' =>
      obtain rfl := Option.some.inj h
      exact hlow hlow'
    split at h
    · next hhigh' =>
      obtain rfl := Option.some.inj h
      exact hhigh hhigh'
    · cases h

/-! ## The last resort -/

/-- Powers of ten and of two, told apart by `10 ^ 3 ≤ 2 ^ 10`. -/
theorem ten_zpow_le (i j : Int) (hi : 0 ≤ i) (hij : 10 * ((i + 2) / 3) ≤ j) :
    (10 : ℚ) ^ i ≤ 2 ^ j := by
  obtain ⟨q, hq⟩ := Int.eq_ofNat_of_zero_le (show 0 ≤ (i + 2) / 3 by omega)
  calc (10 : ℚ) ^ i ≤ 10 ^ (3 * q : Int) := zpow_le_zpow_right₀ (by norm_num) (by omega)
    _ = (10 ^ 3) ^ q := by
      rw [zpow_mul, zpow_natCast]
      rfl
    _ ≤ (2 ^ 10) ^ q := pow_le_pow_left₀ (by norm_num) (by norm_num) q
    _ = 2 ^ (10 * q : Int) := by
      rw [zpow_mul, zpow_natCast]
      rfl
    _ ≤ 2 ^ j := zpow_le_zpow_right₀ one_le_two (by omega)

/-- The same by `2 ^ 13 ≤ 10 ^ 4`. -/
theorem two_zpow_le (i j : Int) (hi : 0 ≤ i) (hij : 4 * ((i + 12) / 13) ≤ j) :
    (2 : ℚ) ^ i ≤ 10 ^ j := by
  obtain ⟨q, hq⟩ := Int.eq_ofNat_of_zero_le (show 0 ≤ (i + 12) / 13 by omega)
  calc (2 : ℚ) ^ i ≤ 2 ^ (13 * q : Int) := zpow_le_zpow_right₀ one_le_two (by omega)
    _ = (2 ^ 13) ^ q := by
      rw [zpow_mul, zpow_natCast]
      rfl
    _ ≤ (10 ^ 4) ^ q := pow_le_pow_left₀ (by norm_num) (by norm_num) q
    _ = 10 ^ (4 * q : Int) := by
      rw [zpow_mul, zpow_natCast]
      rfl
    _ ≤ 10 ^ j := zpow_le_zpow_right₀ (by norm_num) (by omega)

/-- The first guess at the position of the point is not far above the number. -/
theorem guess_le {bits : Int} (hlow : -1100 ≤ bits) (hhigh : bits ≤ 1100) :
    (10 : ℚ) ^ (Int.fdiv (bits * 30103) 100000 - 1 - 18) ≤ 2 ^ (bits - 1) := by
  rw [Int.fdiv_eq_ediv_of_nonneg _ (by decide)]
  generalize hguess : bits * 30103 / 100000 - 1 - 18 = g
  by_cases hpositive : 0 ≤ g
  · exact ten_zpow_le g (bits - 1) hpositive (by omega)
  by_cases hbits : 0 ≤ bits - 1
  · calc (10 : ℚ) ^ g ≤ 10 ^ (0 : Int) := zpow_le_zpow_right₀ (by norm_num) (by omega)
      _ = 2 ^ (0 : Int) := by rw [zpow_zero, zpow_zero]
      _ ≤ 2 ^ (bits - 1) := zpow_le_zpow_right₀ one_le_two hbits
  · have hle := two_zpow_le (1 - bits) (-g) (by omega) (by omega)
    rw [show 1 - bits = -(bits - 1) by ring, zpow_neg, zpow_neg] at hle
    exact (inv_le_inv₀ (by positivity) (by positivity)).mp hle

/-- A number is at least a power of ten. -/
theorem zpow_le_of_atLeast {a b : Nat} (hb : 0 < b)
    (h : b * 10 ^ k.toNat ≤ a * 10 ^ (-k).toNat) : (10 : ℚ) ^ k ≤ a / b := by
  have hpos : (0 : ℚ) < b := by exact_mod_cast hb
  have hcast : (b : ℚ) * 10 ^ k.toNat ≤ a * 10 ^ (-k).toNat := by exact_mod_cast h
  rw [zpow_toNat 10 (by norm_num) k, div_le_div_iff₀ (by positivity) hpos]
  linarith

/-- The bits of a double are within range. -/
theorem bits_bounds (hx : x.InRange) (hne : x.mantissa ≠ 0) :
    -1100 ≤ (Nat.log2 x.fraction.1 : Int) - Nat.log2 x.fraction.2 ∧
      (Nat.log2 x.fraction.1 : Int) - Nat.log2 x.fraction.2 ≤ 1100 := by
  obtain ⟨hmantissa, hmin, hmax⟩ := hx
  simp only [Double.minExponent, Double.maxExponent] at hmin hmax
  unfold Double.fraction
  split
  · have hlt : x.mantissa * Nat.pow 2 x.exponent.toNat < 2 ^ (53 + x.exponent.toNat) := by
      rw [Nat.pow_add]
      exact Nat.mul_lt_mul_of_pos_right hmantissa (Nat.pow_pos (by decide))
    have hlog : Nat.log2 (x.mantissa * Nat.pow 2 x.exponent.toNat) < 53 + x.exponent.toNat :=
      (Nat.log2_lt (Nat.mul_ne_zero hne (Nat.pow_pos (by decide)).ne')).mpr hlt
    have hone : Nat.log2 1 = 0 := rfl
    simp only [hone]
    omega
  · have hlog := (Nat.log2_lt hne).mpr hmantissa
    have hpow : Nat.log2 (Nat.pow 2 (-x.exponent).toNat) = (-x.exponent).toNat := Nat.log2_two_pow
    simp only [hpow]
    omega

/-- **The point is not far to the right of the first digit.** -/
theorem zpow_pointPosition_le (hx : x.InRange) (hne : x.mantissa ≠ 0) :
    (10 : ℚ) ^ (pointPosition x - 18) ≤ x.size := by
  have hb := Double.fraction_pos x
  have ha : x.fraction.1 ≠ 0 := by
    intro hzero
    have hsize := Double.fraction_eq x
    rw [hzero, Nat.cast_zero, zero_div] at hsize
    exact hne (Double.size_eq_zero_iff.mp hsize.symm)
  obtain ⟨hlow, hhigh⟩ := bits_bounds hx hne
  have hmono : ∀ {i j : Int}, i ≤ j → (10 : ℚ) ^ i ≤ 10 ^ j :=
    fun hij => zpow_le_zpow_right₀ (by norm_num) hij
  rw [← Double.fraction_eq]
  unfold pointPosition
  generalize x.fraction = f at *
  obtain ⟨a, b⟩ := f
  simp only [Nat.pow_eq, decide_eq_true_eq]
  split
  · next h => exact (hmono (by omega)).trans (zpow_le_of_atLeast hb h)
  split
  · next h => exact (hmono (by omega)).trans (zpow_le_of_atLeast hb h)
  split
  · next h => exact (hmono (by omega)).trans (zpow_le_of_atLeast hb h)
  · exact (guess_le hlow hhigh).trans (Double.zpow_log2_le ha hb.ne')

/-! ## Searching -/

/-- **Wherever the search ends**, it has found a number other than zero on a grid, and not above the
interval. -/
theorem search_spec (hx : x.InRange) (hne : x.mantissa ≠ 0) (fuel n : Nat) (hfuel : 18 ≤ n + fuel) :
    ∃ m k, search x (pointPosition x) fuel n = ⟨digitsOf m, k⟩ ∧ m ≠ 0 ∧
      (m : ℚ) * 10 ^ k ≤ ceiling x := by
  induction fuel generalizing n with
  | zero =>
    refine ⟨_, _, rfl, ?_, (floor_le_size x _).trans (size_le_ceiling x)⟩
    have hpos : (0 : ℚ) < 10 ^ (pointPosition x - n) := by positivity
    have hle : (10 : ℚ) ^ (pointPosition x - n) ≤ 10 ^ (pointPosition x - 18) :=
      zpow_le_zpow_right₀ (by norm_num) (by omega)
    have hone : (1 : ℚ) ≤
        (onGrid x (pointPosition x - n)).1 / (onGrid x (pointPosition x - n)).2 := by
      rw [onGrid_eq, le_div_iff₀ hpos, one_mul]
      exact hle.trans (zpow_pointPosition_le hx hne)
    have hgrid : (0 : ℚ) < (onGrid x (pointPosition x - n)).2 := by
      exact_mod_cast onGrid_pos x _
    rw [le_div_iff₀ hgrid, one_mul, Nat.cast_le] at hone
    exact (Nat.div_pos hone (onGrid_pos x _)).ne'
  | succ fuel ih =>
    unfold search
    cases hhit : hit? x (pointPosition x - n) with
    | some m => exact ⟨m, _, rfl, hit?_spec hne hhit⟩
    | none => exact ih (n + 1) (by omega)

/-- **The digits of a double**: they are written without a leading zero, and what they stand for
does not lie above the interval. -/
theorem shortest_spec (hx : x.InRange) (hne : x.mantissa ≠ 0) :
    (shortest x).Proper ∧ (shortest x).size ≤ ceiling x := by
  obtain ⟨m, k, hsearch, hm, hle⟩ := search_spec hx hne 17 1 (by decide)
  obtain ⟨hproper, hsize⟩ := (proper_digitsOf hm k).trimmed
  rw [shortest, hsearch]
  refine ⟨hproper, ?_⟩
  rw [hsize, size_digitsOf]
  exact hle

end Courier.Decimal
