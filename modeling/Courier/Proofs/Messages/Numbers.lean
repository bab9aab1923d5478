import Courier.Proofs.Decimal.Digits
import Courier.Proofs.Messages.Quoting

/-!
# Numbers and back

A number of a document is read as a number.  A whole number comes back as itself.  A double need not
come back as itself: its shortest digits are read as a whole number of at most 64 bits, and the
power of ten is multiplied in or divided by, with a rounding each time.  But it comes back as some
double, for none of this is too large: what is written of a double does not lie above the reals that
round to it (`Decimal.shortest_spec`), and the errors on the way back reach the limit of the doubles
at none but the two greatest, where the numbers at hand decide.

Main statements: `value_whole` and `exists_value_number`.
-/

namespace Courier

open Double (limit powerOfTen)

/-- Whole numbers of a document have at most 64 bits, and all its other numbers are doubles. -/
def JsonNumber.InRange : JsonNumber → Prop
  | .whole n => -2 ^ 63 ≤ n ∧ n < 2 ^ 64
  | .double x => x.InRange

namespace Json

variable {n : Nat} {e : Int} {x y : Double} {negative : Bool} {cs fs : List Char} {rest : Bytes}

/-! ## Putting a number together -/

/-- The numbers up to which the errors on the way back do not reach the limit. -/
def safeLimit : ℚ := (2 ^ 54 - 5) * 2 ^ 970

theorem safeLimit_lt : safeLimit < limit :=
  mul_lt_mul_of_pos_right (by norm_num) (by positivity)

/-- Two roundings are not enough to get from the safe limit to the limit. -/
theorem safeLimit_mul_lt : safeLimit * ((1 + 1 / 2 ^ 53) * (1 + 1 / 2 ^ 53)) < limit := by
  rw [safeLimit, limit, mul_right_comm]
  exact mul_lt_mul_of_pos_right (by norm_num) (by positivity)

/-- Whole numbers of 64 bits are far below the limits. -/
theorem two_pow_le_safeLimit : (2 : ℚ) ^ 80 ≤ safeLimit := by
  have hpower : (2 : ℚ) ^ 80 ≤ 2 ^ 970 := pow_le_pow_right₀ one_le_two (by decide)
  exact hpower.trans (le_mul_of_one_le_left (by positivity) (by norm_num))

theorem two_pow_lt_limit : (2 : ℚ) ^ 80 < limit :=
  two_pow_le_safeLimit.trans_lt safeLimit_lt

/-- Dividing by a power of ten goes well, and by a large one the quotient is no larger. -/
theorem exists_div?_powerOfTen {k : Nat} (hk : k ≤ 308) (hx : x.size ≤ 2 ^ 70) :
    ∃ y, x.div? (powerOfTen k) = some y ∧ (2 ≤ k → y.size ≤ 2 ^ 70) := by
  have hpower := Double.le_size_powerOfTen hk
  have hone : (1 : ℚ) ≤ 10 ^ k := one_le_pow₀ (by norm_num)
  have hpos : 0 < (powerOfTen k).size := by linarith
  have hnonneg := Double.size_nonneg x
  have hlimit : x.size / (powerOfTen k).size < limit := by
    refine lt_of_le_of_lt ?_ two_pow_lt_limit
    rw [div_le_iff₀ hpos]
    nlinarith
  obtain ⟨y, hy, hsize⟩ := Double.exists_div? hpos hlimit
  refine ⟨y, hy, fun hlarge => ?_⟩
  have hten : (10 : ℚ) ^ 2 ≤ 10 ^ k := pow_le_pow_right₀ (by norm_num) hlarge
  have hquotient : x.size / (powerOfTen k).size ≤ 2 ^ 68 := by
    rw [div_le_iff₀ hpos]
    nlinarith
  calc y.size ≤ 2 * (x.size / (powerOfTen k).size) + 1 := hsize
    _ ≤ 2 * 2 ^ 68 + 1 := by linarith
    _ ≤ 2 ^ 70 := by norm_num

/-- With a negative exponent nothing can become too large. -/
theorem exists_assemble_of_nonpos (fuel : Nat) : ∀ (x : Double) (e : Int), e ≤ 0 →
    x.size ≤ 2 ^ 70 → ∃ y, assemble x e fuel = some y := by
  induction fuel with
  | zero => exact fun x e _ _ => ⟨_, rfl⟩
  | succ fuel ih =>
    intro x e he hx
    unfold assemble
    split
    · next hsmall =>
      split
      · next hzero =>
        obtain rfl : e = 0 := le_antisymm he hzero
        have hten : (powerOfTen 0).size ≤ 2 := by
          refine (Double.size_powerOfTen_le (by decide)).trans ?_
          norm_num
        refine Double.exists_mul? ?_
        calc x.size * (powerOfTen 0).size ≤ 2 ^ 70 * 2 :=
              mul_le_mul hx hten (Double.size_nonneg _) (by positivity)
          _ < 2 ^ 80 := by norm_num
          _ < limit := two_pow_lt_limit
      · obtain ⟨y, hy, -⟩ := exists_div?_powerOfTen hsmall hx
        exact ⟨y, hy⟩
    split
    · exact ⟨_, rfl⟩
    split
    · omega
    · obtain ⟨y, hy, hsize⟩ := exists_div?_powerOfTen (le_refl _) hx
      rw [hy, Option.bind_some]
      exact ih y _ (by omega) (hsize (by decide))

theorem size_ofNat_le_of_le (hn : n ≤ maxWhole) : (Double.ofNat false n).size ≤ 2 ^ 70 := by
  have hcast : (n : ℚ) ≤ 2 ^ 64 := by
    have : n ≤ 2 ^ 64 := hn.trans (Nat.sub_le _ _)
    exact_mod_cast this
  have hlimit : (n : ℚ) < limit := lt_of_le_of_lt (hcast.trans (by norm_num)) two_pow_lt_limit
  refine (Double.size_ofNat_le false hlimit).trans ?_
  nlinarith

/-- **What does not lie above the safe limit is read.** -/
theorem exists_assemble (hn : n ≤ maxWhole) (hsafe : (n : ℚ) * 10 ^ e ≤ safeLimit) :
    ∃ x, assemble (Double.ofNat false n) e 4 = some x := by
  by_cases he : e ≤ 0
  · exact exists_assemble_of_nonpos 4 _ e he (size_ofNat_le_of_le hn)
  obtain ⟨k, rfl⟩ := Int.eq_ofNat_of_zero_le (show 0 ≤ e by omega)
  unfold assemble
  by_cases hzero : n = 0
  · subst hzero
    split
    · rw [if_pos (Int.natCast_nonneg k)]
      refine Double.exists_mul? ?_
      rw [Double.ofNat_zero, Double.size_zero, zero_mul]
      exact lt_trans (by positivity) two_pow_lt_limit
    · exact ⟨_, if_pos rfl⟩
  have hone : (1 : ℚ) ≤ n := by exact_mod_cast Nat.pos_of_ne_zero hzero
  rw [zpow_natCast] at hsafe
  have hpos : (0 : ℚ) < 10 ^ k := by positivity
  have hpower : (10 : ℚ) ^ k ≤ safeLimit := (le_mul_of_one_le_left hpos.le hone).trans hsafe
  have hk : k ≤ 308 := Double.le_of_pow_lt_limit (hpower.trans_lt safeLimit_lt)
  have hn' : (n : ℚ) < limit :=
    ((le_mul_of_one_le_right (by linarith) (one_le_pow₀ (by norm_num))).trans hsafe).trans_lt
      safeLimit_lt
  rw [Int.natAbs_natCast, if_pos hk, if_pos (Int.natCast_nonneg k)]
  refine Double.exists_mul? ?_
  calc (Double.ofNat false n).size * (powerOfTen k).size
      ≤ n * (1 + 1 / 2 ^ 53) * (10 ^ k * (1 + 1 / 2 ^ 53)) :=
        mul_le_mul (Double.size_ofNat_le false hn') (Double.size_powerOfTen_le hk)
          (Double.size_nonneg _) (by positivity)
    _ = n * 10 ^ k * ((1 + 1 / 2 ^ 53) * (1 + 1 / 2 ^ 53)) := by ring
    _ ≤ safeLimit * ((1 + 1 / 2 ^ 53) * (1 + 1 / 2 ^ 53)) :=
        mul_le_mul_of_nonneg_right hsafe (by positivity)
    _ < limit := safeLimit_mul_lt

/-! ## Digits -/

/-- All characters are digits. -/
def Digital (cs : List Char) : Prop := ∀ c ∈ cs, c.isDigit = true

/-- What follows does not begin with a digit. -/
def Undigital (rest : Bytes) : Prop := ∀ b, rest.head? = some b → isDigit b = false

theorem undigital_cons {b : UInt8} (h : isDigit b = false) (rest : Bytes) :
    Undigital (b :: rest) := by
  intro c hc
  obtain rfl := Option.some.inj hc
  exact h

theorem Digital.cons {c : Char} (h : Digital (c :: cs)) : c.isDigit = true ∧ Digital cs :=
  List.forall_mem_cons.mp h

theorem Digital.append (h : Digital cs) (h' : Digital fs) : Digital (cs ++ fs) :=
  fun c hc => (List.mem_append.mp hc).elim (h c) (h' c)

theorem digital_toDigits (n : Nat) : Digital (Nat.toDigits 10 n) :=
  fun _ hc => Nat.isDigit_of_mem_toDigits (by decide) (by decide) hc

theorem digital_zeros (n : Nat) : Digital (List.replicate n '0') := by
  intro c hc
  obtain rfl := List.eq_of_mem_replicate hc
  rfl

/-- A digit is one byte. -/
theorem toNat_byte_of_isDigit {c : Char} (h : c.isDigit = true) : (byte c).toNat = c.toNat := by
  have hhigh : c.toNat ≤ 57 := (Char.isDigit_iff_toNat.mp h).2
  rw [byte, UInt8.toNat_ofNat']
  omega

theorem isDigit_byte {c : Char} (h : c.isDigit = true) : isDigit (byte c) = true := by
  obtain ⟨hlow, hhigh⟩ := Char.isDigit_iff_toNat.mp h
  have hbyte := toNat_byte_of_isDigit h
  simp only [isDigit, Bool.and_eq_true, decide_eq_true_eq, UInt8.le_iff_toNat_le, hbyte]
  exact ⟨hlow, hhigh⟩

theorem digitValue_byte {c : Char} (h : c.isDigit = true) :
    digitValue (byte c) = c.toNat - '0'.toNat := by
  rw [digitValue, toNat_byte_of_isDigit h]
  rfl

theorem digitValue_le_maxWhole {c : Char} (h : c.isDigit = true) :
    digitValue (byte c) ≤ maxWhole := by
  have hhigh : c.toNat ≤ 57 := (Char.isDigit_iff_toNat.mp h).2
  have hmax : 57 ≤ maxWhole := by decide
  rw [digitValue, toNat_byte_of_isDigit h]
  omega

theorem ofChars_digits (h : Digital cs) : Bytes.ofChars cs = cs.map byte := by
  induction cs with
  | nil => rfl
  | cons c cs ih =>
    obtain ⟨hc, hcs⟩ := h.cons
    have hascii : c.toNat < 128 := by
      have hhigh : c.toNat ≤ 57 := (Char.isDigit_iff_toNat.mp hc).2
      omega
    rw [Bytes.ofChars_cons, Bytes.utf8EncodeChar_ascii hascii, ih hcs]
    rfl

/-- The digits in front of something else are found. -/
theorem takeWhile_digits (h : Digital cs) (hrest : Undigital rest) :
    (cs.map byte ++ rest).takeWhile isDigit = cs.map byte ∧
      (cs.map byte ++ rest).dropWhile isDigit = rest := by
  have hall : ∀ b ∈ cs.map byte, isDigit b = true := by
    intro b hb
    obtain ⟨c, hc, rfl⟩ := List.mem_map.mp hb
    exact isDigit_byte (h c hc)
  have hnone : rest.takeWhile isDigit = [] ∧ rest.dropWhile isDigit = rest := by
    cases rest with
    | nil => exact ⟨rfl, rfl⟩
    | cons b rest =>
      have hb : isDigit b = false := hrest b rfl
      simp [hb]
  rw [List.takeWhile_append_of_pos hall, List.dropWhile_append_of_pos hall, hnone.1, hnone.2,
    List.append_nil]
  exact ⟨rfl, rfl⟩

theorem digitsValue_digits (h : Digital cs) :
    digitsValue (cs.map byte) = Nat.ofDigitChars 10 cs 0 := by
  have hfold : ∀ init, (cs.map byte).foldl (fun n b => n * 10 + digitValue b) init =
      Nat.ofDigitChars 10 cs init := by
    induction cs with
    | nil => exact fun init => rfl
    | cons c cs ih =>
      intro init
      obtain ⟨hc, hcs⟩ := h.cons
      rw [List.map_cons, List.foldl_cons, ih hcs, Nat.ofDigitChars_cons, digitValue_byte hc,
        Nat.mul_comm]
  exact hfold 0

/-- Further digits only make a number larger. -/
theorem mul_pow_le_ofDigitChars (cs : List Char) (n : Nat) :
    n * 10 ^ cs.length ≤ Nat.ofDigitChars 10 cs n := by
  rw [Nat.ofDigitChars_eq_ofDigitChars_zero, Nat.mul_comm]
  exact Nat.le_add_right _ _

/-- Digits stay below the next number with as many zeros. -/
theorem ofDigitChars_lt (h : Digital cs) (n : Nat) :
    Nat.ofDigitChars 10 cs n < (n + 1) * 10 ^ cs.length := by
  induction cs generalizing n with
  | nil => simp
  | cons c cs ih =>
    obtain ⟨hc, hcs⟩ := h.cons
    have hdigit : c.toNat - '0'.toNat ≤ 9 := by
      have hhigh : c.toNat ≤ 57 := (Char.isDigit_iff_toNat.mp hc).2
      have hzero : '0'.toNat = 48 := rfl
      omega
    calc Nat.ofDigitChars 10 (c :: cs) n
        = Nat.ofDigitChars 10 cs (10 * n + (c.toNat - '0'.toNat)) := Nat.ofDigitChars_cons
      _ < (10 * n + (c.toNat - '0'.toNat) + 1) * 10 ^ cs.length := ih hcs _
      _ ≤ ((n + 1) * 10) * 10 ^ cs.length := Nat.mul_le_mul_right _ (by omega)
      _ = (n + 1) * 10 ^ (c :: cs).length := by rw [List.length_cons, Nat.pow_succ', Nat.mul_assoc]

/-- What is kept of digits is within range and not more than they say. -/
theorem accumulate_le (h : Digital cs) : ∀ n ≤ maxWhole,
    (accumulate n (cs.map byte)).1 ≤ maxWhole ∧
      (accumulate n (cs.map byte)).1 * 10 ^ (accumulate n (cs.map byte)).2.length ≤
        Nat.ofDigitChars 10 cs n ∧
      (accumulate n (cs.map byte)).2.length ≤ cs.length := by
  induction cs with
  | nil => exact fun n hn => ⟨hn, by simp [accumulate], Nat.le_refl _⟩
  | cons c cs ih =>
    intro n hn
    obtain ⟨hc, hcs⟩ := h.cons
    rw [List.map_cons, accumulate]
    split
    · refine ⟨hn, ?_, by simp⟩
      simpa using mul_pow_le_ofDigitChars (c :: cs) n
    · next hfits =>
      obtain ⟨hrange, hle, hlength⟩ := ih hcs _ (Nat.le_of_not_lt hfits)
      refine ⟨hrange, ?_, hlength.trans (Nat.le_succ _)⟩
      rw [Nat.ofDigitChars_cons, ← digitValue_byte hc, Nat.mul_comm 10]
      exact hle

/-- Digits of a number within range are all kept. -/
theorem accumulate_eq (h : Digital cs) : ∀ n, Nat.ofDigitChars 10 cs n ≤ maxWhole →
    accumulate n (cs.map byte) = (Nat.ofDigitChars 10 cs n, []) := by
  induction cs with
  | nil => exact fun n _ => rfl
  | cons c cs ih =>
    intro n hn
    obtain ⟨hc, hcs⟩ := h.cons
    rw [Nat.ofDigitChars_cons, ← digitValue_byte hc, Nat.mul_comm 10] at hn ⊢
    have hfits : n * 10 + digitValue (byte c) ≤ maxWhole := by
      have hle := mul_pow_le_ofDigitChars cs (n * 10 + digitValue (byte c))
      have hpos : 0 < 10 ^ cs.length := Nat.pow_pos (by decide)
      exact (Nat.le_mul_of_pos_right _ hpos).trans (hle.trans hn)
    rw [List.map_cons, accumulate, if_neg (Nat.not_lt.mpr hfits)]
    exact ih hcs _ hn

/-! ## The parts of a number -/

/-- Digits as a number begins with them: a zero has no digit behind it. -/
structure Leading (cs : List Char) : Prop where
  digital : Digital cs
  first : ∃ c cs', cs = c :: cs' ∧ (c = '0' → cs' = [])

/-- What may follow a value in a document: nothing, a comma or a closing bracket. -/
def Ends (rest : Bytes) : Prop :=
  ∀ b, rest.head? = some b → b = byte ',' ∨ b = byte ']' ∨ b = byte '}'

theorem ends_nil : Ends [] := nofun

theorem ends_cons {b : UInt8} (h : b = byte ',' ∨ b = byte ']' ∨ b = byte '}') (rest : Bytes) :
    Ends (b :: rest) := by
  intro c hc
  obtain rfl := Option.some.inj hc
  exact h

theorem Ends.undigital (h : Ends rest) : Undigital rest := by
  intro b hb
  rcases h b hb with rfl | rfl | rfl <;> rfl

/-- The end of a number. -/
theorem exponentOrEnd_ends (h : Ends rest) (n : Nat) (e : Int) :
    exponentOrEnd negative n e rest = doubleOf negative n e rest := by
  cases rest with
  | nil => rfl
  | cons b rest => rcases h b rfl with rfl | rfl | rfl <;> rfl

theorem exists_doubleOf (h : ∃ x, assemble (Double.ofNat false n) e 4 = some x)
    (negative : Bool) (rest : Bytes) :
    ∃ m, doubleOf negative n e rest = .ok (m, rest) := by
  obtain ⟨x, hx⟩ := h
  exact ⟨.double { x with negative }, by rw [doubleOf, hx]⟩

/-- A number begins with its digits, and what comes behind them says what it is. -/
theorem unsignedNumber_leading (h : Leading cs) (rest : Bytes) : Undigital rest →
    unsignedNumber negative (Bytes.ofChars cs ++ rest) =
      let r := accumulate 0 (cs.map byte)
      match rest with
      | c :: after =>
        if c = byte '.' then fractionPart negative r.1 r.2.length after
        else if startsExponent c then exponentPart negative r.1 r.2.length after
        else if r.2.isEmpty then .ok (wholeNumber negative r.1, rest)
        else doubleOf negative r.1 r.2.length rest
      | [] =>
        if r.2.isEmpty then .ok (wholeNumber negative r.1, rest)
        else doubleOf negative r.1 r.2.length rest := by
  intro hrest
  obtain ⟨htake, hdrop⟩ := takeWhile_digits h.digital hrest
  obtain ⟨c, cs, rfl, hzero⟩ := h.first
  obtain ⟨hc, -⟩ := h.digital.cons
  have hfirst : ¬(byte c = byte '0' ∧ (cs.map byte ++ rest).head?.any isDigit = true) := by
    rintro ⟨hbyte, hsecond⟩
    have hc0 : c = '0' := by
      have hnat := congrArg UInt8.toNat hbyte
      rw [toNat_byte_of_isDigit hc, toNat_byte_of_isDigit (by rfl)] at hnat
      exact Char.toNat_inj.mp hnat
    obtain ⟨b, hb, hdigit⟩ := (Option.any_eq_true _ _).mp hsecond
    rw [hzero hc0] at hb
    exact absurd hdigit (by simp [hrest b hb])
  rw [ofChars_digits h.digital]
  rw [List.map_cons, List.cons_append] at htake hdrop ⊢
  rw [unsignedNumber, if_neg (not_not.mpr (isDigit_byte hc)), if_neg hfirst, htake, hdrop]
  rfl

theorem leading_toDigits (n : Nat) : Leading (Nat.toDigits 10 n) where
  digital := digital_toDigits n
  first := by
    by_cases hn : n = 0
    · exact ⟨'0', [], by rw [hn]; rfl, fun _ => rfl⟩
    · obtain ⟨c, cs, hdigits, hc⟩ := Decimal.toDigits_first n hn
      exact ⟨c, cs, hdigits, fun hzero => absurd hzero hc⟩

/-- **A whole number is read back.** -/
theorem unsignedNumber_whole (negative : Bool) (hn : n ≤ maxWhole) (hrest : Ends rest) :
    unsignedNumber negative (Bytes.ofChars (Nat.toDigits 10 n) ++ rest) =
      .ok (wholeNumber negative n, rest) := by
  have hkept : accumulate 0 ((Nat.toDigits 10 n).map byte) = (n, []) := by
    have hvalue : Nat.ofDigitChars 10 (Nat.toDigits 10 n) 0 = n := Nat.ofDigitChars_ten_toDigits
    rw [accumulate_eq (digital_toDigits n) 0 (by rw [hvalue]; exact hn), hvalue]
  rw [unsignedNumber_leading (leading_toDigits n) rest hrest.undigital, hkept]
  cases rest with
  | nil => rfl
  | cons b rest => rcases hrest b rfl with rfl | rfl | rfl <;> rfl

/-- The digits behind a point. -/
theorem fractionPart_digits (hfs : Digital fs) (hne : fs ≠ []) (hrest : Undigital rest) (n : Nat)
    (e : Int) :
    fractionPart negative n e (Bytes.ofChars fs ++ rest) =
      exponentOrEnd negative (accumulate n (fs.map byte)).1
        (e - (fs.length - (accumulate n (fs.map byte)).2.length : Nat)) rest := by
  obtain ⟨htake, hdrop⟩ := takeWhile_digits hfs hrest
  have hsome : ¬(fs.map byte).isEmpty = true := by simpa using hne
  rw [ofChars_digits hfs, fractionPart, htake, hdrop]
  simp only [if_neg hsome, List.length_map]

theorem ofChars_point (cs fs : List Char) :
    Bytes.ofChars (cs ++ '.' :: fs) = Bytes.ofChars cs ++ byte '.' :: Bytes.ofChars fs := by
  rw [Bytes.ofChars_append, Bytes.ofChars_cons]
  rfl

/-- A text has a point, with few digits before it and some behind it. -/
def Pointed (text : List Char) : Prop :=
  ∃ cs fs, Leading cs ∧ cs.length ≤ 16 ∧ Digital fs ∧ fs ≠ [] ∧ text = cs ++ '.' :: fs

/-- **A number with a point is read**: with few digits before the point none of them is lost. -/
theorem exists_unsignedNumber_point {text : List Char} (h : Pointed text) (negative : Bool)
    (hrest : Ends rest) :
    ∃ m, unsignedNumber negative (Bytes.ofChars text ++ rest) = .ok (m, rest) := by
  obtain ⟨cs, fs, hcs, hshort, hfs, hne, rfl⟩ := h
  have hpoint : isDigit (byte '.') = false := rfl
  have hsmall : Nat.ofDigitChars 10 cs 0 ≤ maxWhole := by
    have hpower : 10 ^ cs.length ≤ 10 ^ 16 := Nat.pow_le_pow_right (by decide) hshort
    have hmax : 10 ^ 16 ≤ maxWhole := by decide
    have hlt := ofDigitChars_lt hcs.digital 0
    rw [Nat.zero_add, Nat.one_mul] at hlt
    exact hlt.le.trans (hpower.trans hmax)
  have hbefore := accumulate_eq hcs.digital 0 hsmall
  obtain ⟨hrange, -, -⟩ := accumulate_le hfs _ hsmall
  rw [ofChars_point, List.append_assoc, List.cons_append,
    unsignedNumber_leading hcs _ (undigital_cons hpoint _), hbefore]
  simp only [if_true]
  rw [fractionPart_digits hfs hne hrest.undigital, exponentOrEnd_ends hrest]
  exact exists_doubleOf
    (exists_assemble_of_nonpos 4 _ _ (by simp) (size_ofNat_le_of_le hrange)) negative rest

/-- A sign as it stands in an exponent. -/
theorem exponentPart_signed (negative : Bool) (n : Nat) (down : Bool) (k : Nat) (exponent : Int)
    (hrest : Undigital rest) :
    exponentPart negative n exponent (Bytes.ofChars
      ((if down then '-' else '+') :: (Nat.repr k).toList) ++ rest) =
      if maxExponent < k then
        if n ≠ 0 ∧ ¬down then .error .malformed else .ok (.double (Double.zero negative), rest)
      else doubleOf negative n (if down then exponent - k else exponent + k) rest := by
  obtain ⟨htake, hdrop⟩ := takeWhile_digits (digital_toDigits k) hrest
  have hvalue : digitsValue ((Nat.toDigits 10 k).map byte) = k := by
    rw [digitsValue_digits (digital_toDigits k), Nat.ofDigitChars_ten_toDigits]
  obtain ⟨c, cs, hdigits, -⟩ := (leading_toDigits k).first
  obtain ⟨hc, -⟩ := (hdigits ▸ digital_toDigits k : Digital (c :: cs)).cons
  rw [Nat.toList_repr, Bytes.ofChars_cons, ofChars_digits (digital_toDigits k)]
  rw [hdigits, List.map_cons] at hvalue htake hdrop ⊢
  cases down with
  | true =>
    have hsign : String.utf8EncodeChar '-' = [byte '-'] := rfl
    have hne : byte '-' ≠ byte '+' := by decide
    simp only [if_true, hsign, List.cons_append, List.nil_append] at htake hdrop ⊢
    rw [exponentPart]
    simp only [if_neg hne, if_true, isDigit_byte hc, htake, hdrop, hvalue]
  | false =>
    have hsign : String.utf8EncodeChar '+' = [byte '+'] := rfl
    simp only [Bool.false_eq_true, if_false, hsign, List.cons_append, List.nil_append]
      at htake hdrop ⊢
    rw [exponentPart]
    simp only [if_true, isDigit_byte hc, htake, hdrop, hvalue, Bool.false_eq_true, if_false]

/-- **An exponent is read**, if the number that it makes is read. -/
theorem exists_exponentPart (he : e ≤ maxExponent) {exponent : Int}
    (h : ∃ x, assemble (Double.ofNat false n) (exponent + e) 4 = some x) (negative : Bool)
    (hrest : Ends rest) :
    ∃ m, exponentPart negative n exponent (Bytes.ofChars
      ((if 0 ≤ e then '+' else '-') :: (Nat.repr e.natAbs).toList) ++ rest) = .ok (m, rest) := by
  have hread := exponentPart_signed negative n (!decide (0 ≤ e)) e.natAbs exponent
    hrest.undigital
  have hsign : (if (!decide (0 ≤ e)) = true then '-' else '+') = if 0 ≤ e then '+' else '-' := by
    by_cases hup : 0 ≤ e <;> simp [hup]
  have hexponent : (if (!decide (0 ≤ e)) = true then exponent - e.natAbs else exponent + e.natAbs) =
      exponent + e := by
    by_cases hup : 0 ≤ e
    · simp only [hup, decide_true, Bool.not_true, Bool.false_eq_true, if_false]
      omega
    · simp only [hup, decide_false, Bool.not_false, if_true]
      omega
  rw [hsign, hexponent] at hread
  rw [hread]
  split
  · next hlarge =>
    have hdown : ¬0 ≤ e := by omega
    exact ⟨_, if_neg (by simp [hdown])⟩
  · exact exists_doubleOf h negative rest

/-- The first digit is kept. -/
theorem accumulate_first {c : Char} (hc : c.isDigit = true) (s : Bytes) :
    accumulate 0 (byte c :: s) = accumulate (digitValue (byte c)) s := by
  have hdigit := digitValue_le_maxWhole hc
  have hfits : ¬maxWhole < 0 * 10 + digitValue (byte c) := by omega
  rw [accumulate, if_neg hfits, Nat.zero_mul, Nat.zero_add]

/-- The number and the digits that are left when the digits of a decimal are read. -/
def kept (d : Decimal.Digits) : Nat × Bytes := accumulate 0 ((Decimal.digitText d.digits).map byte)

/-- Digits as they stand before an exponent: one of them before the point. -/
def mantissaText : List Nat → List Char
  | [] => ['0']
  | [a] => Decimal.digitText [a]
  | a :: rest => Decimal.digitText [a] ++ '.' :: Decimal.digitText rest

theorem scientific_eq (d : Decimal.Digits) :
    Decimal.scientific d = mantissaText d.digits ++ 'e' ::
      (if 0 ≤ (d.digits.length + d.exponent - 1 : Int) then '+' else '-') ::
        (Nat.repr (d.digits.length + d.exponent - 1 : Int).natAbs).toList := by
  obtain ⟨ds, e⟩ := d
  match ds with
  | [] => rfl
  | [_] => rfl
  | _ :: _ :: _ => rfl

/-- **What stands before an exponent is read**: each kept digit behind the point counts for the
exponent. -/
theorem unsignedNumber_mantissa {d : Decimal.Digits} (hd : d.Proper) (negative : Bool) (s : Bytes) :
    unsignedNumber negative (Bytes.ofChars (mantissaText d.digits) ++ byte 'e' :: s) =
      exponentPart negative (kept d).1 ((kept d).2.length - d.digits.length + 1) s := by
  have hpoint : byte 'e' ≠ byte '.' := by decide
  have hstarts : startsExponent (byte 'e') = true := by decide
  have hletter : Undigital (byte 'e' :: s) := undigital_cons rfl s
  obtain ⟨ds, e⟩ := d
  cases ds with
  | nil =>
    obtain ⟨c, cs, hnil, -⟩ := hd.first
    cases hnil
  | cons a ds =>
    have htext : Digital (Char.ofNat (48 + a) :: Decimal.digitText ds) := hd.digit
    obtain ⟨hc, hfs⟩ := htext.cons
    have hlead : Leading (Decimal.digitText [a]) :=
      ⟨fun c hmem => List.mem_singleton.mp hmem ▸ hc, _, [], rfl, fun _ => rfl⟩
    have hone : accumulate 0 ((Decimal.digitText [a]).map byte) =
        (digitValue (byte (Char.ofNat (48 + a))), []) := accumulate_first hc []
    have hall : kept ⟨a :: ds, e⟩ =
        accumulate (digitValue (byte (Char.ofNat (48 + a)))) ((Decimal.digitText ds).map byte) :=
      accumulate_first hc _
    have hfirst := digitValue_le_maxWhole hc
    rw [hall]
    generalize digitValue (byte (Char.ofNat (48 + a))) = v at hone hfirst ⊢
    cases ds with
    | nil =>
      rw [mantissaText, unsignedNumber_leading hlead _ hletter, hone]
      simp only [if_neg hpoint, hstarts, if_true]
      rfl
    | cons b ds =>
      have hmantissa : mantissaText (a :: b :: ds) =
          Decimal.digitText [a] ++ '.' :: Decimal.digitText (b :: ds) := rfl
      have hbehind (s : Bytes) : Undigital (byte '.' :: s) := undigital_cons rfl s
      have hlength : (Decimal.digitText (b :: ds)).length = ds.length + 1 := List.length_map _
      obtain ⟨-, -, hleft⟩ := accumulate_le hfs v hfirst
      rw [hmantissa, ofChars_point, List.append_assoc, List.cons_append,
        unsignedNumber_leading hlead _ (hbehind _), hone]
      simp only [if_true]
      rw [fractionPart_digits hfs (List.cons_ne_nil _ _) hletter, exponentOrEnd, if_pos hstarts]
      congr 1
      simp only [List.length_cons, List.length_nil]
      omega

/-- **A number with an exponent is read**, if its digits with that exponent are. -/
theorem exists_unsignedNumber_scientific {d : Decimal.Digits} (hd : d.Proper)
    (hrange : d.digits.length + d.exponent - 1 ≤ maxExponent)
    (h : ∃ x, assemble (Double.ofNat false (kept d).1) ((kept d).2.length + d.exponent) 4 = some x)
    (negative : Bool) (hrest : Ends rest) :
    ∃ m, unsignedNumber negative (Bytes.ofChars (Decimal.scientific d) ++ rest) =
      .ok (m, rest) := by
  have hsplit (l m : List Char) :
      Bytes.ofChars (l ++ 'e' :: m) ++ rest =
        Bytes.ofChars l ++ byte 'e' :: (Bytes.ofChars m ++ rest) := by
    rw [Bytes.ofChars_append, Bytes.ofChars_cons, List.append_assoc]
    rfl
  have hsum : ((kept d).2.length - d.digits.length + 1 : Int) +
      (d.digits.length + d.exponent - 1) = (kept d).2.length + d.exponent := by
    omega
  rw [scientific_eq, hsplit, unsignedNumber_mantissa hd]
  exact exists_exponentPart hrange (hsum ▸ h) negative hrest

/-! ## Doubles -/

theorem ceiling_le (top k : Nat) (hmantissa : x.mantissa ≤ top) (hexponent : x.exponent ≤ k + 1) :
    Decimal.ceiling x ≤ (2 * top + 1) * 2 ^ k := by
  have hcast : (x.mantissa : ℚ) ≤ top := by exact_mod_cast hmantissa
  have hpower : (2 : ℚ) ^ (x.exponent - 1) ≤ 2 ^ (k : Int) :=
    zpow_le_zpow_right₀ one_le_two (by omega)
  rw [zpow_natCast] at hpower
  exact mul_le_mul (by linarith) hpower (by positivity) (by positivity)

theorem ceiling_le_limit (hx : x.InRange) : Decimal.ceiling x ≤ limit := by
  have hle := ceiling_le (2 ^ 53 - 1) 970 (Nat.le_pred_of_lt hx.mantissa_lt)
    hx.le_maxExponent
  refine hle.trans (mul_le_mul_of_nonneg_right ?_ (by positivity))
  norm_num

/-- The digits of a double stay below the safe limit, except for the two greatest doubles. -/
theorem ceiling_le_safeLimit (hx : x.InRange)
    (hsmall : x.exponent = 971 → x.mantissa < 2 ^ 53 - 2) : Decimal.ceiling x ≤ safeLimit := by
  by_cases htop : x.exponent = 971
  · have hmantissa : x.mantissa ≤ 2 ^ 53 - 3 := Nat.le_pred_of_lt (hsmall htop)
    have hle := ceiling_le (2 ^ 53 - 3) 970 hmantissa (by omega)
    refine hle.trans (mul_le_mul_of_nonneg_right ?_ (by positivity))
    norm_num
  · have hexponent : x.exponent ≤ 970 := by
      have hle := hx.le_maxExponent
      simp only [Double.maxExponent] at hle
      omega
    have hle := ceiling_le (2 ^ 53 - 1) 969 (Nat.le_pred_of_lt hx.mantissa_lt)
      hexponent
    have hpower : (2 : ℚ) ^ 970 = 2 * 2 ^ 969 := pow_succ' _ _
    have hpos : (0 : ℚ) < 2 ^ 969 := by positivity
    refine hle.trans ?_
    rw [safeLimit, hpower, ← mul_assoc]
    refine mul_le_mul_of_nonneg_right ?_ hpos.le
    norm_num

/-- The digits of the two greatest doubles. -/
theorem shortest_greatest (negative : Bool) :
    Decimal.shortest ⟨negative, 2 ^ 53 - 1, 971⟩ =
      ⟨[1, 7, 9, 7, 6, 9, 3, 1, 3, 4, 8, 6, 2, 3, 1, 5, 7], 292⟩ := by
  cases negative <;> decide +kernel

theorem shortest_second_greatest (negative : Bool) :
    Decimal.shortest ⟨negative, 2 ^ 53 - 2, 971⟩ =
      ⟨[1, 7, 9, 7, 6, 9, 3, 1, 3, 4, 8, 6, 2, 3, 1, 5, 5], 292⟩ := by
  cases negative <;> decide +kernel

/-- What is kept is not more than the decimal. -/
theorem kept_le {d : Decimal.Digits} (hd : d.Proper) :
    (kept d).1 ≤ maxWhole ∧ ((kept d).1 : ℚ) * 10 ^ ((kept d).2.length + d.exponent) ≤ d.size := by
  obtain ⟨hrange, hvalue, -⟩ := accumulate_le hd.digit 0 (Nat.zero_le _)
  have hcast : ((kept d).1 : ℚ) * 10 ^ (kept d).2.length ≤
      Nat.ofDigitChars 10 (Decimal.digitText d.digits) 0 := by
    exact_mod_cast hvalue
  refine ⟨hrange, ?_⟩
  rw [zpow_add₀ (by norm_num), zpow_natCast, ← mul_assoc]
  exact mul_le_mul_of_nonneg_right hcast (by positivity)

/-- **What is kept of the digits of a double is put together again to a double.** -/
theorem exists_assemble_shortest (hx : x.InRange) (hne : x.mantissa ≠ 0) :
    ∃ y, assemble (Double.ofNat false (kept (Decimal.shortest x)).1)
      ((kept (Decimal.shortest x)).2.length + (Decimal.shortest x).exponent) 4 = some y := by
  by_cases hgreat : x.exponent = 971 ∧ 2 ^ 53 - 2 ≤ x.mantissa
  · have hlt := hx.mantissa_lt
    obtain ⟨negative, m, e⟩ := x
    obtain ⟨rfl, hm⟩ := hgreat
    dsimp only at hm hlt
    obtain rfl | rfl : m = 2 ^ 53 - 1 ∨ m = 2 ^ 53 - 2 := by omega
    · rw [shortest_greatest]
      exact Option.isSome_iff_exists.mp (by decide +kernel)
    · rw [shortest_second_greatest]
      exact Option.isSome_iff_exists.mp (by decide +kernel)
  · obtain ⟨hproper, hsize⟩ := Decimal.shortest_spec hx hne
    obtain ⟨hrange, hle⟩ := kept_le hproper
    have hsafe := ceiling_le_safeLimit hx fun htop => Nat.lt_of_not_le fun hm => hgreat ⟨htop, hm⟩
    exact exists_assemble hrange (hle.trans (hsize.trans hsafe))

/-- A decimal is at least the power of ten of its first digit. -/
theorem zpow_le_size {d : Decimal.Digits} (hd : d.Proper) :
    (10 : ℚ) ^ (d.digits.length + d.exponent - 1) ≤ d.size := by
  obtain ⟨c, cs, hdigits, hne⟩ := hd.first
  obtain ⟨hc, -⟩ := (hdigits ▸ hd.digit : Digital (c :: cs)).cons
  have hlength : d.digits.length = cs.length + 1 := by
    have hcount := congrArg List.length hdigits
    rwa [Decimal.digitText, List.length_map, List.length_cons] at hcount
  have hfirst : 1 ≤ c.toNat - '0'.toNat := by
    have hlow : 48 ≤ c.toNat := (Char.isDigit_iff_toNat.mp hc).1
    have hzero : '0'.toNat = 48 := rfl
    have hother : c.toNat ≠ '0'.toNat := fun h => hne (Char.toNat_inj.mp h)
    omega
  have hvalue : 10 ^ cs.length ≤ Nat.ofDigitChars 10 (Decimal.digitText d.digits) 0 := by
    rw [hdigits, Nat.ofDigitChars_cons, Nat.mul_zero, Nat.zero_add]
    exact (Nat.le_mul_of_pos_left _ hfirst).trans (mul_pow_le_ofDigitChars cs _)
  have hcast : (10 : ℚ) ^ cs.length ≤ Nat.ofDigitChars 10 (Decimal.digitText d.digits) 0 := by
    exact_mod_cast hvalue
  have hsum : (d.digits.length : Int) + d.exponent - 1 = cs.length + d.exponent := by omega
  rw [hsum, zpow_add₀ (by norm_num), zpow_natCast]
  exact mul_le_mul_of_nonneg_right hcast (by positivity)

/-- The exponent with which a double is written is not large. -/
theorem exponent_shortest_le (hx : x.InRange) (hne : x.mantissa ≠ 0) :
    (Decimal.shortest x).digits.length + (Decimal.shortest x).exponent - 1 ≤ maxExponent := by
  obtain ⟨hproper, hsize⟩ := Decimal.shortest_spec hx hne
  have hle := (zpow_le_size hproper).trans (hsize.trans (ceiling_le_limit hx))
  generalize ((Decimal.shortest x).digits.length : Int) + (Decimal.shortest x).exponent - 1 = e
    at hle ⊢
  have hmax : (309 : Int) ≤ maxExponent := by decide
  by_contra hlarge
  obtain ⟨k, rfl⟩ := Int.eq_ofNat_of_zero_le (show 0 ≤ e - 1 by omega) |>.imp fun k hk =>
    (show e = (k + 1 : Nat) by omega)
  have hpower : (10 : ℚ) ^ k < limit := by
    refine lt_of_lt_of_le ?_ hle
    rw [zpow_natCast]
    exact pow_lt_pow_right₀ (by norm_num) (Nat.lt_succ_self k)
  have hk := Double.le_of_pow_lt_limit hpower
  omega

/-! ## Texts of doubles -/

/-- A double as it is written behind its sign. -/
def unsignedText (x : Double) : List Char :=
  if x.isZero then ['0', '.', '0']
  else
    let d := Decimal.shortest x
    let point : Int := d.digits.length + d.exponent
    if point ≤ -5 ∨ 16 < point then Decimal.scientific d
    else if 0 ≤ d.exponent then Decimal.positional d ++ ['.', '0']
    else Decimal.positional d

theorem documentText_eq (x : Double) :
    Decimal.documentText x = Decimal.signed x.negative (unsignedText x) := rfl

/-- All digits and some zeros before the point. -/
theorem pointed_of_nonneg {d : Decimal.Digits} (hd : d.Proper) (hwhole : 0 ≤ d.exponent)
    (hpoint : d.digits.length + d.exponent ≤ 16) :
    Pointed (Decimal.positional d ++ ['.', '0']) := by
  obtain ⟨c, cs, hdigits, hne⟩ := hd.first
  have hlength : (Decimal.digitText d.digits).length = d.digits.length := List.length_map _
  have hdigit : Digital (Decimal.digitText d.digits) := hd.digit
  refine ⟨Decimal.digitText d.digits ++ List.replicate d.exponent.toNat '0', ['0'],
    ⟨hdigit.append (digital_zeros _), c, cs ++ List.replicate d.exponent.toNat '0', ?_,
      fun hzero => absurd hzero hne⟩, ?_, digital_zeros 1, List.cons_ne_nil _ _, ?_⟩
  · rw [hdigits, List.cons_append]
  · rw [List.length_append, List.length_replicate, hlength]
    omega
  · rw [Decimal.positional, if_pos hwhole]

/-- The point between the digits. -/
theorem pointed_of_inside {d : Decimal.Digits} (hd : d.Proper) (hwhole : ¬0 ≤ d.exponent)
    (hinside : 0 < (d.digits.length : Int) + d.exponent)
    (hpoint : d.digits.length + d.exponent ≤ 16) : Pointed (Decimal.positional d) := by
  obtain ⟨c, cs, hdigits, hne⟩ := hd.first
  have hlength : (Decimal.digitText d.digits).length = d.digits.length := List.length_map _
  have hdigit : Digital (Decimal.digitText d.digits) := hd.digit
  obtain ⟨k, hk⟩ : ∃ k : Nat, ((d.digits.length : Int) + d.exponent).toNat = k + 1 :=
    Nat.exists_eq_add_one.mpr (by omega)
  have htake : Decimal.digitText (d.digits.take (k + 1)) = c :: cs.take k := by
    rw [Decimal.digitText, List.map_take, ← Decimal.digitText, hdigits, List.take_succ_cons]
  have hdrop : Decimal.digitText (d.digits.drop (k + 1)) =
      (Decimal.digitText d.digits).drop (k + 1) :=
    List.map_drop
  refine ⟨c :: cs.take k, (Decimal.digitText d.digits).drop (k + 1), ⟨?_, c, cs.take k, rfl,
    fun hzero => absurd hzero hne⟩, ?_, fun c hc => hdigit c (List.mem_of_mem_drop hc), ?_, ?_⟩
  · intro b hb
    rw [← htake, Decimal.digitText, List.map_take] at hb
    exact hdigit b (List.mem_of_mem_take hb)
  · rw [List.length_cons, List.length_take]
    omega
  · rw [Ne, List.drop_eq_nil_iff, hlength]
    omega
  · rw [Decimal.positional, if_neg hwhole, if_pos hinside, hk, htake, hdrop]

/-- Zeros behind the point, and the digits after them. -/
theorem pointed_of_behind {d : Decimal.Digits} (hd : d.Proper) (hwhole : ¬0 ≤ d.exponent)
    (hinside : ¬0 < (d.digits.length : Int) + d.exponent) : Pointed (Decimal.positional d) := by
  obtain ⟨c, cs, hdigits, -⟩ := hd.first
  refine ⟨['0'],
    List.replicate (-(d.digits.length + d.exponent)).toNat '0' ++ Decimal.digitText d.digits,
    leading_toDigits 0, by decide, (digital_zeros _).append hd.digit, ?_, ?_⟩
  · rw [hdigits]
    exact List.append_ne_nil_of_right_ne_nil _ (List.cons_ne_nil _ _)
  · rw [Decimal.positional, if_neg hwhole, if_neg hinside]
    rfl

/-- **What is written of a double behind its sign is read.** -/
theorem exists_unsignedNumber_double (hx : x.InRange) (negative : Bool) (hrest : Ends rest) :
    ∃ m, unsignedNumber negative (Bytes.ofChars (unsignedText x) ++ rest) = .ok (m, rest) := by
  unfold unsignedText
  by_cases hzero : x.isZero = true
  · have hpointed : Pointed ['0', '.', '0'] :=
      ⟨['0'], ['0'], leading_toDigits 0, by decide, digital_zeros 1, List.cons_ne_nil _ _, rfl⟩
    rw [if_pos hzero]
    exact exists_unsignedNumber_point hpointed negative hrest
  have hne : x.mantissa ≠ 0 := by simpa [Double.isZero] using hzero
  obtain ⟨hproper, -⟩ := Decimal.shortest_spec hx hne
  rw [if_neg hzero]
  dsimp only
  split
  · exact exists_unsignedNumber_scientific hproper (exponent_shortest_le hx hne)
      (exists_assemble_shortest hx hne) negative hrest
  · next hpoint =>
    refine exists_unsignedNumber_point ?_ negative hrest
    split
    · next hwhole => exact pointed_of_nonneg hproper hwhole (by omega)
    · next hwhole =>
      by_cases hinside :
          0 < ((Decimal.shortest x).digits.length : Int) + (Decimal.shortest x).exponent
      · exact pointed_of_inside hproper hwhole hinside (by omega)
      · exact pointed_of_behind hproper hwhole hinside

/-! ## Numbers as values -/

/-- What is read as a number begins with a digit. -/
theorem first_of_unsignedNumber {s : Bytes} {m : JsonNumber}
    (h : unsignedNumber negative s = .ok (m, rest)) :
    ∃ b tail, s = b :: tail ∧ isDigit b = true := by
  cases s with
  | nil => cases h
  | cons b tail =>
    refine ⟨b, tail, rfl, ?_⟩
    by_contra hno
    rw [unsignedNumber, if_pos hno] at h
    cases h

theorem ne_of_isDigit {b c : UInt8} (hb : isDigit b = true) (hc : isDigit c = false) : b ≠ c := by
  rintro rfl
  rw [hc] at hb
  cases hb

theorem not_isBlank_of_isDigit {b : UInt8} (h : isDigit b = true) : isBlank b = false := by
  simp only [isBlank, Bool.or_eq_false_iff, beq_eq_false_iff_ne]
  exact ⟨⟨⟨ne_of_isDigit h rfl, ne_of_isDigit h rfl⟩, ne_of_isDigit h rfl⟩, ne_of_isDigit h rfl⟩

theorem skipBlanks_cons {b : UInt8} (h : isBlank b = false) (s : Bytes) :
    skipBlanks (b :: s) = b :: s := by
  rw [skipBlanks, List.dropWhile_cons_of_neg (by simp [h])]

/-- What is read as a number without a sign is a value. -/
theorem value_of_unsignedNumber {s : Bytes} {m : JsonNumber}
    (h : unsignedNumber false s = .ok (m, rest)) (depth : Nat) :
    value depth s = .ok (.number m, rest) := by
  obtain ⟨b, tail, rfl, hdigit⟩ := first_of_unsignedNumber h
  have hne : ∀ c : UInt8, isDigit c = false → b ≠ c := fun c hc => ne_of_isDigit hdigit hc
  rw [value, skipBlanks_cons (not_isBlank_of_isDigit hdigit)]
  simp only [if_neg (hne (byte '[') rfl), if_neg (hne (byte '{') rfl)]
  rw [scalar, if_neg (hne (byte 'n') rfl), if_neg (hne (byte 't') rfl),
    if_neg (hne (byte 'f') rfl), if_neg (hne (byte '"') rfl), if_neg (hne (byte '-') rfl),
    if_pos hdigit, h]
  rfl

/-- What is read as a number behind a sign is a value with it. -/
theorem value_of_negative {s : Bytes} {m : JsonNumber}
    (h : unsignedNumber true s = .ok (m, rest)) (depth : Nat) :
    value depth (byte '-' :: s) = .ok (.number m, rest) := by
  have hscalar : value depth (byte '-' :: s) = scalar (byte '-') s := by
    unfold value
    rfl
  have hread : scalar (byte '-') s = (unsignedNumber true s).map fun r => (.number r.1, r.2) := rfl
  rw [hscalar, hread, h]
  rfl

/-- What is read behind any sign is a value with that sign. -/
theorem exists_value_signed {text : List Char}
    (h : ∃ m, unsignedNumber negative (Bytes.ofChars text ++ rest) = .ok (m, rest)) :
    ∃ m, ∀ depth, value depth (Bytes.ofChars (Decimal.signed negative text) ++ rest) =
      .ok (.number m, rest) := by
  obtain ⟨m, hm⟩ := h
  cases negative with
  | true => exact ⟨m, value_of_negative hm⟩
  | false => exact ⟨m, value_of_unsignedNumber hm⟩

/-- **A whole number is read back as a value.** -/
theorem value_whole {n : Int} (hn : (JsonNumber.whole n).InRange) (hrest : Ends rest)
    (depth : Nat) :
    value depth (Bytes.ofChars (numberText (.whole n)) ++ rest) = .ok (whole n, rest) := by
  obtain ⟨hlow, hhigh⟩ := hn
  have hfits : n.natAbs ≤ maxWhole := by
    have hmax : maxWhole = 2 ^ 64 - 1 := rfl
    omega
  rw [numberText, Nat.toList_repr]
  by_cases hsign : n < 0
  · have hnumber : wholeNumber true n.natAbs = .whole n := by
      have hpower : Nat.pow 2 63 = 2 ^ 63 := rfl
      have habs : -(n.natAbs : Int) = n := by omega
      rw [wholeNumber, if_pos rfl, if_neg (by omega), habs]
    have hread := unsignedNumber_whole true hfits hrest
    rw [hnumber] at hread
    rw [if_pos hsign]
    exact value_of_negative hread depth
  · have hnumber : wholeNumber false n.natAbs = .whole n := by
      have habs : (n.natAbs : Int) = n := by omega
      rw [wholeNumber, if_neg Bool.false_ne_true, habs]
    have hread := unsignedNumber_whole false hfits hrest
    rw [hnumber] at hread
    rw [if_neg hsign]
    exact value_of_unsignedNumber hread depth

/-- **A number of a document is read as a number.** -/
theorem exists_value_number {n : JsonNumber} (hn : n.InRange) (hrest : Ends rest) :
    ∃ m, ∀ depth,
      value depth (Bytes.ofChars (numberText n) ++ rest) = .ok (.number m, rest) := by
  cases n with
  | whole n => exact ⟨.whole n, value_whole hn hrest⟩
  | double x =>
    rw [numberText, documentText_eq]
    exact exists_value_signed (exists_unsignedNumber_double hn x.negative hrest)

/-- What a sign is put in front of begins with the sign or as it did. -/
theorem first_signed {text : List Char} {m : JsonNumber}
    (h : unsignedNumber negative (Bytes.ofChars text) = .ok (m, [])) :
    ∃ b tail, Bytes.ofChars (Decimal.signed negative text) = b :: tail ∧
      (b = byte '-' ∨ isDigit b = true) := by
  cases negative with
  | true => exact ⟨byte '-', Bytes.ofChars text, rfl, .inl rfl⟩
  | false =>
    obtain ⟨b, tail, hb, hdigit⟩ := first_of_unsignedNumber h
    exact ⟨b, tail, hb, .inr hdigit⟩

/-- A number begins with a sign or a digit. -/
theorem first_numberText {n : JsonNumber} (hn : n.InRange) :
    ∃ b tail, Bytes.ofChars (numberText n) = b :: tail ∧ (b = byte '-' ∨ isDigit b = true) := by
  cases n with
  | whole n =>
    by_cases hsign : n < 0
    · rw [numberText, if_pos hsign]
      exact ⟨byte '-', _, rfl, .inl rfl⟩
    · obtain ⟨c, cs, hdigits, -⟩ := (leading_toDigits n.natAbs).first
      obtain ⟨hc, -⟩ := (hdigits ▸ digital_toDigits n.natAbs : Digital (c :: cs)).cons
      rw [numberText, if_neg hsign, Nat.toList_repr, List.nil_append,
        ofChars_digits (digital_toDigits _), hdigits]
      exact ⟨byte c, cs.map byte, rfl, .inr (isDigit_byte hc)⟩
  | double x =>
    obtain ⟨m, hm⟩ := exists_unsignedNumber_double hn x.negative ends_nil
    rw [List.append_nil] at hm
    rw [numberText, documentText_eq]
    exact first_signed hm

end Json
end Courier
