import Courier.Decimal.Double
import Mathlib.Algebra.Order.Field.Power
import Mathlib.Data.Rat.Cast.Order
import Mathlib.Tactic.Linarith
import Mathlib.Tactic.Positivity
import Mathlib.Tactic.Ring

/-!
# Rounding to a double

A fraction is rounded once, and the result differs from it by at most half a unit in the last place.
The unit is `2 ^ e`, where `e` is the least exponent of a double unless the fraction has 53 bits in
front of it (`fittingExponent_spec`), so the relative error is at most `2 ^ (-53)` from the least
normal number on.  Only a fraction from half a unit above the greatest double on has no double.

Main statements: `exists_of_lt` and `size_le_of_one_le`.
-/

namespace Courier.Double

/-- The size of a number. -/
def size (x : Double) : ℚ := x.mantissa * 2 ^ x.exponent

/-- The fields of a number are within the range of a double. -/
structure InRange (x : Double) : Prop where
  mantissa_lt : x.mantissa < 2 ^ 53
  minExponent_le : minExponent ≤ x.exponent
  le_maxExponent : x.exponent ≤ maxExponent

variable {num den n d : Nat} {e : Int} {negative : Bool} {x : Double}

theorem size_nonneg (x : Double) : 0 ≤ x.size := by
  unfold size
  positivity

theorem size_eq_zero_iff : x.size = 0 ↔ x.mantissa = 0 := by
  have hpos : (2 : ℚ) ^ x.exponent ≠ 0 := by positivity
  simp [size, hpos]

theorem fraction_pos (x : Double) : 0 < x.fraction.2 := by
  unfold fraction
  split
  · exact Nat.one_pos
  · exact Nat.pow_pos (by decide)

/-- A power of two in the numerator or in the denominator. -/
theorem zpow_of_nonneg (h : 0 ≤ e) : ((Nat.pow 2 e.toNat : Nat) : ℚ) = 2 ^ e := by
  obtain ⟨k, rfl⟩ := Int.eq_ofNat_of_zero_le h
  simp

theorem zpow_of_neg (h : ¬0 ≤ e) : ((Nat.pow 2 (-e).toNat : Nat) : ℚ) = (2 ^ e)⁻¹ := by
  rw [zpow_of_nonneg (by omega), zpow_neg]

theorem fraction_eq (x : Double) : (x.fraction.1 : ℚ) / x.fraction.2 = x.size := by
  unfold fraction size
  split
  · next h => rw [Nat.cast_mul, zpow_of_nonneg h, Nat.cast_one, div_one]
  · next h => rw [zpow_of_neg h, div_inv_eq_mul]

theorem scaled_pos (hden : 0 < den) (e : Int) : 0 < (scaled num den e).2 := by
  unfold scaled
  split
  · exact Nat.mul_pos hden (Nat.pow_pos (by decide))
  · exact hden

theorem scaled_eq (num den : Nat) (e : Int) :
    ((scaled num den e).1 : ℚ) / (scaled num den e).2 = num / den / 2 ^ e := by
  unfold scaled
  split
  · next h => rw [Nat.cast_mul, zpow_of_nonneg h, div_div]
  · next h =>
    rw [Nat.cast_mul, zpow_of_neg h, div_right_comm (num : ℚ) den, div_eq_mul_inv (num : ℚ) (2 ^ e)]

/-! ## The exponent -/

/-- A fraction by the bits in front of its point. -/
theorem zpow_log2_le (hnum : num ≠ 0) (hden : den ≠ 0) :
    (2 : ℚ) ^ ((Nat.log2 num : Int) - Nat.log2 den - 1) ≤ num / den := by
  have htop : (2 : ℚ) ^ Nat.log2 num ≤ num := by exact_mod_cast Nat.log2_self_le hnum
  have hbottom : (den : ℚ) ≤ 2 ^ (Nat.log2 den + 1) := by
    exact_mod_cast (Nat.lt_log2_self (n := den)).le
  have hpos : (0 : ℚ) < den := by exact_mod_cast Nat.pos_of_ne_zero hden
  have hsplit : (2 : ℚ) ^ ((Nat.log2 num : Int) - Nat.log2 den - 1) =
      2 ^ Nat.log2 num / 2 ^ (Nat.log2 den + 1) := by
    rw [← zpow_natCast, ← zpow_natCast, ← zpow_sub₀ two_ne_zero]
    congr 1
    push_cast
    ring
  rw [hsplit]
  exact div_le_div₀ (by positivity) htop hpos hbottom

/-- A fraction that is too long for an exponent has more than 53 bits in front of it. -/
theorem zpow_le_of_long (hden : 0 < den)
    (hlong : ¬(scaled num den e).1 / (scaled num den e).2 < Nat.pow 2 53) :
    (2 : ℚ) ^ (e + 53) ≤ num / den := by
  rw [Nat.div_lt_iff_lt_mul (scaled_pos hden e), not_lt] at hlong
  have hpos : (0 : ℚ) < (scaled num den e).2 := by exact_mod_cast scaled_pos hden e
  have hcast : (2 : ℚ) ^ 53 * (scaled num den e).2 ≤ (scaled num den e).1 := by
    exact_mod_cast hlong
  have hquotient : (2 : ℚ) ^ 53 ≤ num / den / 2 ^ e := by
    rw [← scaled_eq, le_div_iff₀ hpos]
    exact hcast
  rw [le_div_iff₀ (by positivity)] at hquotient
  rw [add_comm, zpow_add₀ two_ne_zero]
  exact_mod_cast hquotient

/-- **The exponent is the least one, or the fraction has 53 bits in front of it.** -/
theorem fittingExponent_spec (hnum : num ≠ 0) (hden : 0 < den) :
    fittingExponent num den = minExponent ∨
      (2 : ℚ) ^ (fittingExponent num den + 52) ≤ num / den := by
  simp only [fittingExponent]
  generalize hguess : max ((Nat.log2 num : Int) - (Nat.log2 den : Int) - 53) minExponent = e
  split
  · by_cases hmin : e = minExponent
    · exact .inl hmin
    · have hbits : e + 52 = (Nat.log2 num : Int) - Nat.log2 den - 1 := by omega
      right
      rw [hbits]
      exact zpow_log2_le hnum hden.ne'
  split
  · next hlong _ =>
    right
    have hle := zpow_le_of_long hden hlong
    rwa [show e + 1 + 52 = e + 53 by ring]
  · next hlong =>
    right
    have hle := zpow_le_of_long hden hlong
    rwa [show e + 2 + 52 = e + 1 + 53 by ring]

/-! ## The mantissa -/

/-- Rounding to a whole number is off by at most a half. -/
theorem roundHalfEven_bounds (hd : 0 < d) (n : Nat) :
    2 * (roundHalfEven n d * d) ≤ 2 * n + d ∧ 2 * n ≤ 2 * (roundHalfEven n d * d) + d := by
  have hsplit := Nat.div_add_mod n d
  rw [Nat.mul_comm] at hsplit
  have hup : (n / d + 1) * d = n / d * d + d := Nat.succ_mul _ _
  unfold roundHalfEven
  dsimp only
  have hmod := Nat.mod_lt n hd
  split
  · omega
  split
  · omega
  split <;> omega

theorem roundHalfEven_le (hd : 0 < d) (n : Nat) :
    (roundHalfEven n d : ℚ) ≤ n / d + 1 / 2 := by
  have hpos : (0 : ℚ) < d := by exact_mod_cast hd
  have hbound : 2 * ((roundHalfEven n d : ℚ) * d) ≤ 2 * n + d := by
    exact_mod_cast (roundHalfEven_bounds hd n).1
  rw [← sub_le_iff_le_add, le_div_iff₀ hpos]
  linarith

theorem le_roundHalfEven (hd : 0 < d) (n : Nat) :
    (n : ℚ) / d - 1 / 2 ≤ roundHalfEven n d := by
  have hpos : (0 : ℚ) < d := by exact_mod_cast hd
  have hbound : (2 : ℚ) * n ≤ 2 * ((roundHalfEven n d : ℚ) * d) + d := by
    exact_mod_cast (roundHalfEven_bounds hd n).2
  rw [sub_le_iff_le_add, div_le_iff₀ hpos]
  linarith

/-! ## Rounding -/

/-- The mantissa of a fraction before a carry. -/
def roundedMantissa (num den : Nat) : Nat :=
  let e := fittingExponent num den
  roundHalfEven (scaled num den e).1 (scaled num den e).2

/-- What rounding gives before the carry: the mantissa may still be `2 ^ 53`. -/
theorem ofFraction?_eq (negative : Bool) (hnum : num ≠ 0) :
    ofFraction? negative num den =
      if roundedMantissa num den = Nat.pow 2 53 then
        if maxExponent < fittingExponent num den + 1 then none
        else some ⟨negative, Nat.pow 2 52, fittingExponent num den + 1⟩
      else if maxExponent < fittingExponent num den then none
      else some ⟨negative, roundedMantissa num den, fittingExponent num den⟩ := by
  have hround : roundHalfEven (scaled num den (fittingExponent num den)).1
      (scaled num den (fittingExponent num den)).2 = roundedMantissa num den := rfl
  simp only [ofFraction?, if_neg hnum, hround]
  by_cases hcarry : roundedMantissa num den = Nat.pow 2 53
  · simp only [if_pos hcarry]
  · simp only [if_neg hcarry]

/-- Up to the sign, the number is its mantissa before the carry times its unit. -/
theorem size_of_ofFraction? (hnum : num ≠ 0) (h : ofFraction? negative num den = some x) :
    x.size = roundedMantissa num den * 2 ^ fittingExponent num den := by
  rw [ofFraction?_eq negative hnum] at h
  split at h
  · next hcarry =>
    split at h
    · cases h
    · obtain rfl := Option.some.inj h
      rw [size, hcarry, zpow_add₀ two_ne_zero]
      norm_num
      ring
  · split at h
    · cases h
    · obtain rfl := Option.some.inj h
      rfl

/-- The mantissa is the fraction in units, rounded. -/
theorem roundedMantissa_le (num : Nat) (hden : 0 < den) :
    (roundedMantissa num den : ℚ) ≤ num / den / 2 ^ fittingExponent num den + 1 / 2 := by
  rw [← scaled_eq]
  exact roundHalfEven_le (scaled_pos hden _) _

theorem le_roundedMantissa (num : Nat) (hden : 0 < den) :
    (num : ℚ) / den / 2 ^ fittingExponent num den - 1 / 2 ≤ roundedMantissa num den := by
  rw [← scaled_eq]
  exact le_roundHalfEven (scaled_pos hden _) _

/-- Half a unit above the greatest double: what is smaller can be rounded. -/
def limit : ℚ := (2 ^ 54 - 1) * 2 ^ 970

theorem limit_lt : limit < 2 ^ (1024 : Int) := by
  have hsplit : (2 : ℚ) ^ (1024 : Int) = 2 ^ 54 * 2 ^ 970 := by
    rw [← pow_add]
    rfl
  rw [limit, hsplit]
  exact mul_lt_mul_of_pos_right (by norm_num) (by positivity)

theorem limit_div : limit / 2 ^ (971 : Int) = 2 ^ 53 - 1 / 2 := by
  have hsplit : (2 : ℚ) ^ (971 : Int) = 2 * 2 ^ 970 := by
    rw [← pow_succ']
    rfl
  rw [limit, hsplit, mul_div_mul_right _ _ (by positivity)]
  norm_num

/-- The least unit is small. -/
theorem zpow_minExponent_le (k : Int) (hk : k ≤ 1074) : (2 : ℚ) ^ (minExponent + k) ≤ 1 := by
  have hle : minExponent + k ≤ 0 := by
    simp only [minExponent]
    omega
  simpa using zpow_le_zpow_right₀ (one_le_two (α := ℚ)) hle

/-- **What is below the limit has a double.** -/
theorem exists_of_lt (negative : Bool) (hden : 0 < den) (hlimit : (num : ℚ) / den < limit) :
    ∃ x, ofFraction? negative num den = some x := by
  by_cases hnum : num = 0
  · exact ⟨zero negative, if_pos hnum⟩
  have hexponent : fittingExponent num den ≤ 971 := by
    rcases fittingExponent_spec hnum hden with hmin | hfits
    · rw [hmin]
      decide
    · have hlt : (2 : ℚ) ^ (fittingExponent num den + 52) < 2 ^ (1024 : Int) :=
        hfits.trans_lt (hlimit.trans limit_lt)
      have := (zpow_lt_zpow_iff_right₀ (one_lt_two (α := ℚ))).mp hlt
      omega
  have hcarry : fittingExponent num den = 971 → roundedMantissa num den ≠ Nat.pow 2 53 := by
    intro htop hcarry
    have hle := roundedMantissa_le num hden
    have hquotient : (num : ℚ) / den / 2 ^ (971 : Int) < limit / 2 ^ (971 : Int) :=
      div_lt_div_of_pos_right hlimit (by positivity)
    rw [hcarry, htop] at hle
    rw [limit_div] at hquotient
    generalize (num : ℚ) / den / 2 ^ (971 : Int) = q at hle hquotient
    norm_num at hle hquotient
    linarith
  rw [ofFraction?_eq negative hnum]
  split
  · next h =>
    have hne : fittingExponent num den ≠ 971 := fun htop => hcarry htop h
    exact ⟨_, if_neg (by simp only [maxExponent]; omega)⟩
  · exact ⟨_, if_neg (by simp only [maxExponent]; omega)⟩

/-- The size of the result is off by at most half a unit. -/
theorem size_near (hnum : num ≠ 0) (hden : 0 < den)
    (h : ofFraction? negative num den = some x) :
    x.size ≤ num / den + 2 ^ fittingExponent num den / 2 ∧
      num / den - 2 ^ fittingExponent num den / 2 ≤ x.size := by
  have hunit : (0 : ℚ) < 2 ^ fittingExponent num den := by positivity
  have hsplit : (num : ℚ) / den =
      num / den / 2 ^ fittingExponent num den * 2 ^ fittingExponent num den :=
    (div_mul_cancel₀ _ hunit.ne').symm
  have hup := mul_le_mul_of_nonneg_right (roundedMantissa_le num hden) hunit.le
  have hdown := mul_le_mul_of_nonneg_right (le_roundedMantissa num hden) hunit.le
  rw [add_mul, ← hsplit] at hup
  rw [sub_mul, ← hsplit] at hdown
  rw [size_of_ofFraction? hnum h]
  constructor <;> linarith

/-- **From one on the error is small against the number.** -/
theorem half_unit_le (hnum : num ≠ 0) (hden : 0 < den) (hone : 1 ≤ (num : ℚ) / den) :
    (2 : ℚ) ^ fittingExponent num den / 2 ≤ num / den / 2 ^ 53 := by
  have hfits : (2 : ℚ) ^ (fittingExponent num den + 52) ≤ num / den := by
    rcases fittingExponent_spec hnum hden with hmin | hfits
    · rw [hmin]
      exact (zpow_minExponent_le 52 (by decide)).trans hone
    · exact hfits
  rw [zpow_add₀ two_ne_zero] at hfits
  norm_num at hfits ⊢
  linarith

/-- A number from one on is rounded up by little. -/
theorem size_le_of_one_le (hden : 0 < den) (hone : 1 ≤ (num : ℚ) / den)
    (h : ofFraction? negative num den = some x) :
    x.size ≤ num / den * (1 + 1 / 2 ^ 53) := by
  have hnum : num ≠ 0 := by
    rintro rfl
    norm_num at hone
  have hnear := (size_near hnum hden h).1
  have hunit := half_unit_le hnum hden hone
  calc x.size ≤ num / den + 2 ^ fittingExponent num den / 2 := hnear
    _ ≤ num / den + num / den / 2 ^ 53 := by linarith
    _ = num / den * (1 + 1 / 2 ^ 53) := by ring

/-- A number from one on is rounded down by little. -/
theorem le_size_of_one_le (hden : 0 < den) (hone : 1 ≤ (num : ℚ) / den)
    (h : ofFraction? negative num den = some x) : (num : ℚ) / den / 2 ≤ x.size := by
  have hnum : num ≠ 0 := by
    rintro rfl
    norm_num at hone
  have hnear := (size_near hnum hden h).2
  have hunit := half_unit_le hnum hden hone
  have hhalf : (num : ℚ) / den / 2 ^ 53 ≤ num / den / 2 :=
    div_le_div_of_nonneg_left (by linarith) (by norm_num) (by norm_num)
  linarith

/-- No number is rounded up to more than twice as much, up to a small remainder. -/
theorem size_le_twice (hden : 0 < den) (h : ofFraction? negative num den = some x) :
    x.size ≤ 2 * (num / den) + 1 := by
  by_cases hnum : num = 0
  · subst hnum
    obtain rfl := Option.some.inj ((if_pos rfl).symm.trans h)
    norm_num [size, zero]
  have hnear := (size_near hnum hden h).1
  rcases fittingExponent_spec hnum hden with hmin | hfits
  · have hsmall : (2 : ℚ) ^ minExponent ≤ 1 := by simpa using zpow_minExponent_le 0 (by decide)
    have hpos : (0 : ℚ) ≤ num / den := by positivity
    rw [hmin] at hnear
    linarith
  · have hpos : (0 : ℚ) < 2 ^ fittingExponent num den := by positivity
    rw [zpow_add₀ two_ne_zero] at hfits
    norm_num at hfits
    linarith

/-! ## Whole numbers, products and quotients -/

variable {y : Double} {k : Nat}

@[simp] theorem size_zero (negative : Bool) : (zero negative).size = 0 := by
  simp [size, zero]

@[simp] theorem ofNat_zero (negative : Bool) : ofNat negative 0 = zero negative := rfl

theorem ofFraction?_ofNat (negative : Bool) (hn : (n : ℚ) < limit) :
    ofFraction? negative n 1 = some (ofNat negative n) := by
  obtain ⟨x, hx⟩ := exists_of_lt negative Nat.one_pos (by simpa using hn)
  simp [ofNat, hx]

theorem size_ofNat_le (negative : Bool) (hn : (n : ℚ) < limit) :
    (ofNat negative n).size ≤ n * (1 + 1 / 2 ^ 53) := by
  by_cases hzero : n = 0
  · simp [hzero]
  have hone : (1 : ℚ) ≤ n := by exact_mod_cast Nat.pos_of_ne_zero hzero
  simpa using size_le_of_one_le Nat.one_pos (by simpa using hone) (ofFraction?_ofNat negative hn)

theorem le_size_ofNat (negative : Bool) (hn : (n : ℚ) < limit) :
    (n : ℚ) / 2 ≤ (ofNat negative n).size := by
  by_cases hzero : n = 0
  · simp [hzero]
  have hone : (1 : ℚ) ≤ n := by exact_mod_cast Nat.pos_of_ne_zero hzero
  simpa using le_size_of_one_le Nat.one_pos (by simpa using hone) (ofFraction?_ofNat negative hn)

/-- The powers of ten up to `10 ^ 308` can be rounded. -/
theorem pow_lt_limit (hk : k ≤ 308) : ((Nat.pow 10 k : Nat) : ℚ) < limit := by
  have hcast : (((2 ^ 54 - 1) * 2 ^ 970 : Nat) : ℚ) = limit := by
    rw [limit, Nat.cast_mul, Nat.cast_pow, Nat.cast_sub (by decide), Nat.cast_pow, Nat.cast_one,
      Nat.cast_ofNat]
  have hlt : ∀ top, 308 = top → 10 ^ top < (2 ^ 54 - 1) * 2 ^ 970 := by
    rintro _ rfl
    decide +kernel
  obtain ⟨top, htop⟩ : ∃ top, 308 = top := ⟨_, rfl⟩
  rw [htop] at hk
  have hle : 10 ^ k < (2 ^ 54 - 1) * 2 ^ 970 :=
    (Nat.pow_le_pow_right (by decide) hk).trans_lt (hlt top htop)
  rw [← hcast]
  exact_mod_cast hle

/-- No other power of ten can be rounded. -/
theorem le_of_pow_lt_limit (h : (10 : ℚ) ^ k < limit) : k ≤ 308 := by
  have hlt : ∀ top, 309 = top → 2 ^ 1024 < 10 ^ top := by
    rintro _ rfl
    decide +kernel
  obtain ⟨top, htop⟩ : ∃ top, 309 = top := ⟨_, rfl⟩
  by_contra hk
  have hle : 2 ^ 1024 < 10 ^ k :=
    (hlt top htop).trans_le (Nat.pow_le_pow_right (by decide) (by omega))
  have hcast : (2 : ℚ) ^ 1024 < 10 ^ k := by exact_mod_cast hle
  exact absurd (h.trans (limit_lt.trans hcast)) (lt_irrefl _)

theorem size_powerOfTen_le (hk : k ≤ 308) :
    (powerOfTen k).size ≤ 10 ^ k * (1 + 1 / 2 ^ 53) := by
  simpa [powerOfTen] using size_ofNat_le false (pow_lt_limit hk)

theorem le_size_powerOfTen (hk : k ≤ 308) : (10 : ℚ) ^ k / 2 ≤ (powerOfTen k).size := by
  simpa [powerOfTen] using le_size_ofNat false (pow_lt_limit hk)

/-- The product of two fractions. -/
theorem exists_mul? (h : x.size * y.size < limit) : ∃ z, x.mul? y = some z := by
  have hproduct : ((x.fraction.1 * y.fraction.1 : Nat) : ℚ) / (x.fraction.2 * y.fraction.2 : Nat) =
      x.size * y.size := by
    rw [Nat.cast_mul, Nat.cast_mul, mul_div_mul_comm, fraction_eq, fraction_eq]
  rw [← hproduct] at h
  exact exists_of_lt _ (Nat.mul_pos (fraction_pos x) (fraction_pos y)) h

/-- The quotient of two fractions is not much larger than it should be. -/
theorem exists_div? (hy : 0 < y.size) (h : x.size / y.size < limit) :
    ∃ z, x.div? y = some z ∧ z.size ≤ 2 * (x.size / y.size) + 1 := by
  have hnum : 0 < y.fraction.1 := by
    rw [← fraction_eq] at hy
    refine Nat.pos_of_ne_zero fun hzero => ?_
    rw [hzero, Nat.cast_zero, zero_div] at hy
    exact lt_irrefl _ hy
  have hden := Nat.mul_pos (fraction_pos x) hnum
  have hquotient : ((x.fraction.1 * y.fraction.2 : Nat) : ℚ) / (x.fraction.2 * y.fraction.1 : Nat) =
      x.size / y.size := by
    rw [Nat.cast_mul, Nat.cast_mul, ← fraction_eq x, ← fraction_eq y, div_div_div_eq]
  rw [← hquotient] at h ⊢
  obtain ⟨z, hz⟩ := exists_of_lt (x.negative != y.negative) hden h
  exact ⟨z, hz, size_le_twice hden hz⟩

end Courier.Double
