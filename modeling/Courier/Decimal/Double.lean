/-!
# Double precision numbers

A finite double is `± mantissa * 2 ^ exponent`.  Everything here is exact arithmetic on natural
numbers: a fraction is rounded once, to the nearest double, and a half goes to the even neighbour.
-/

namespace Courier

/-- A finite double precision number.  In normal form the mantissa is below `2 ^ 53`, the exponent
is at least `-1074`, and one of the two is as large respectively as small as it may be, so equal
numbers have equal fields. -/
structure Double where
  negative : Bool
  mantissa : Nat
  exponent : Int
deriving DecidableEq, Repr, Inhabited

namespace Double

/-- The least exponent of a double. -/
def minExponent : Int := -1074

/-- The greatest exponent of a double. -/
def maxExponent : Int := 971

/-- Zero, with a sign. -/
def zero (negative : Bool) : Double := ⟨negative, 0, minExponent⟩

/-- Whether the number is zero, of either sign. -/
def isZero (x : Double) : Bool := x.mantissa == 0

/-- `num / den / 2 ^ e` as a fraction of natural numbers. -/
def scaled (num den : Nat) (e : Int) : Nat × Nat :=
  if 0 ≤ e then (num, den * Nat.pow 2 e.toNat) else (num * Nat.pow 2 (-e).toNat, den)

/-- The natural number nearest to `num / den`; a half goes to the even neighbour. -/
def roundHalfEven (num den : Nat) : Nat :=
  let q := num / den
  let r := num % den
  if 2 * r < den then q
  else if den < 2 * r then q + 1
  else if q % 2 = 0 then q else q + 1

/-- The exponent with which `num / den` has a mantissa of 53 bits, or the least one. -/
def fittingExponent (num den : Nat) : Int :=
  let guess : Int := (Nat.log2 num : Int) - (Nat.log2 den : Int) - 53
  let e := max guess minExponent
  let (n, d) := scaled num den e
  if n / d < Nat.pow 2 53 then e
  else
    let (n, d) := scaled num den (e + 1)
    if n / d < Nat.pow 2 53 then e + 1 else e + 2

/-- The double nearest to `num / den`, or nothing when it is too large for a double. -/
def ofFraction? (negative : Bool) (num den : Nat) : Option Double :=
  if num = 0 then some (zero negative)
  else
    let e := fittingExponent num den
    let (n, d) := scaled num den e
    let m := roundHalfEven n d
    let (m, e) := if m = Nat.pow 2 53 then (Nat.pow 2 52, e + 1) else (m, e)
    if maxExponent < e then none else some ⟨negative, m, e⟩

/-- The size of a number as a fraction. -/
def fraction (x : Double) : Nat × Nat :=
  if 0 ≤ x.exponent then (x.mantissa * Nat.pow 2 x.exponent.toNat, 1)
  else (x.mantissa, Nat.pow 2 (-x.exponent).toNat)

/-- The double nearest to a natural number that is within range. -/
def ofNat (negative : Bool) (n : Nat) : Double :=
  (ofFraction? negative n 1).getD (zero negative)

/-- The double nearest to a power of ten that is within range. -/
def powerOfTen (k : Nat) : Double := ofNat false (Nat.pow 10 k)

/-- The product, rounded once; nothing when it is too large for a double. -/
def mul? (x y : Double) : Option Double :=
  let (a, b) := x.fraction
  let (c, d) := y.fraction
  ofFraction? (x.negative != y.negative) (a * c) (b * d)

/-- The quotient by a number other than zero, rounded once. -/
def div? (x y : Double) : Option Double :=
  let (a, b) := x.fraction
  let (c, d) := y.fraction
  ofFraction? (x.negative != y.negative) (a * d) (b * c)

/-- The whole number nearest to a number's size; a half goes up. -/
def roundedSize (x : Double) : Nat :=
  let (a, b) := x.fraction
  (2 * a + b) / (2 * b)

end Double
end Courier
