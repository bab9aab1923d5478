import Courier.Decimal.Double

/-!
# The shortest decimal that reads back

A double is written with the fewest significant digits that still read back as the same double, and
of the decimals with that many digits the nearest one is taken.  The reals that round to a double
form an interval around it, which contains its ends exactly when the mantissa is even.  For one
digit, two digits and so on the two neighbours of the number on that decimal grid are tested; the
first grid with a hit wins.  Seventeen digits always suffice.
-/

namespace Courier.Decimal

/-- A decimal: the digits, first digit first, and the power of ten of the last digit. -/
structure Digits where
  digits : List Nat
  exponent : Int
deriving DecidableEq, Repr

/-- The interval of reals that round to `± mantissa * 2 ^ exponent`, scaled by a common factor:
lower end, value and upper end as multiples of `2 ^ (exponent - 2)`. -/
structure Interval where
  low : Nat
  value : Nat
  high : Nat
  exponent : Int
  closed : Bool

/-- The interval of the reals that round to the size of `x`.  Below a power of two the grid is
twice as fine. -/
def Interval.of (x : Double) : Interval :=
  let v := 4 * x.mantissa
  let low :=
    if x.mantissa = Nat.pow 2 52 ∧ x.exponent ≠ Double.minExponent then v - 1 else v - 2
  ⟨low, v, v + 2, x.exponent - 2, x.mantissa % 2 = 0⟩

/-- Whether `n * 10 ^ k` lies in the interval. -/
def Interval.contains (i : Interval) (n : Nat) (k : Int) : Bool :=
  -- Both sides are brought to whole numbers: n * 10^k against bound * 2^e.
  let left := n * Nat.pow 10 k.toNat * Nat.pow 2 (-i.exponent).toNat
  let scale := Nat.pow 2 i.exponent.toNat * Nat.pow 10 (-k).toNat
  if i.closed then i.low * scale ≤ left && left ≤ i.high * scale
  else i.low * scale < left && left < i.high * scale

/-- The number's size divided by `10 ^ k`, as a fraction. -/
def onGrid (x : Double) (k : Int) : Nat × Nat :=
  let (a, b) := x.fraction
  (a * Nat.pow 10 (-k).toNat, b * Nat.pow 10 k.toNat)

/-- The better neighbour on the grid of multiples of `10 ^ k`, if one lies in the interval. -/
def hit? (x : Double) (k : Int) : Option Nat :=
  let (a, b) := onGrid x k
  let below := a / b
  let r := a % b
  let i := Interval.of x
  let lowHit := i.contains below k && decide (0 < below)
  let highHit := i.contains (below + 1) k
  if r = 0 then some below
  else if lowHit && highHit then
    some (if 2 * r < b then below else if b < 2 * r then below + 1
      else if below % 2 = 0 then below else below + 1)
  else if lowHit then some below
  else if highHit then some (below + 1)
  else none

/-- Decimal digits of a number, first digit first. -/
def digitsOf (n : Nat) : List Nat := (Nat.toDigits 10 n).map fun c => c.toNat - 48

/-- The position of the first digit: the number lies in `[10 ^ (p - 1), 10 ^ p)`.  The estimate
through the binary logarithm is at most one too small. -/
def pointPosition (x : Double) : Int :=
  let (a, b) := x.fraction
  let bits : Int := (Nat.log2 a : Int) - (Nat.log2 b : Int)
  let guess : Int := Int.fdiv (bits * 30103) 100000 - 1
  let atLeast (p : Int) : Bool := b * Nat.pow 10 p.toNat ≤ a * Nat.pow 10 (-p).toNat
  if atLeast (guess + 2) then guess + 3
  else if atLeast (guess + 1) then guess + 2
  else if atLeast guess then guess + 1
  else guess

/-- Try grids of ever more digits. -/
def search (x : Double) (p : Int) : Nat → Nat → Digits
  | 0, n => ⟨digitsOf ((onGrid x (p - n)).1 / (onGrid x (p - n)).2), p - n⟩
  | fuel + 1, n =>
    match hit? x (p - n) with
    | some m => ⟨digitsOf m, p - n⟩
    | none => search x p fuel (n + 1)

/-- Drop trailing zeros, raising the exponent. -/
def Digits.trimmed (d : Digits) : Digits :=
  let zeros := (d.digits.reverse.takeWhile (· == 0)).length
  if zeros = d.digits.length then d
  else ⟨d.digits.take (d.digits.length - zeros), d.exponent + zeros⟩

/-- The shortest digits of a number other than zero. -/
def shortest (x : Double) : Digits := (search x (pointPosition x) 17 1).trimmed

/-- Digits as text. -/
def digitText (ds : List Nat) : List Char := ds.map fun d => Char.ofNat (48 + d)

/-- Text without an exponent: as many zeros as it takes. -/
def positional (d : Digits) : List Char :=
  let n : Int := d.digits.length
  let point := n + d.exponent
  if 0 ≤ d.exponent then digitText d.digits ++ List.replicate d.exponent.toNat '0'
  else if 0 < point then
    digitText (d.digits.take point.toNat) ++ '.' :: digitText (d.digits.drop point.toNat)
  else '0' :: '.' :: List.replicate (-point).toNat '0' ++ digitText d.digits

/-- Text with one digit before the point and an exponent that always has a sign. -/
def scientific (d : Digits) : List Char :=
  let n : Int := d.digits.length
  let e := n + d.exponent - 1
  let mantissa := match d.digits with
    | [] => ['0']
    | [a] => digitText [a]
    | a :: rest => digitText [a] ++ '.' :: digitText rest
  mantissa ++ 'e' :: (if 0 ≤ e then '+' else '-') :: (Nat.repr e.natAbs).toList

/-- A sign in front of a text. -/
def signed (negative : Bool) (text : List Char) : List Char :=
  if negative then '-' :: text else text

/-- The text of a double in a document: always with a point or an exponent, positional when the
point stands at most sixteen places behind the first digit and at most five places before it. -/
def documentText (x : Double) : List Char :=
  signed x.negative <|
    if x.isZero then ['0', '.', '0']
    else
      let d := shortest x
      let point : Int := d.digits.length + d.exponent
      if point ≤ -5 ∨ 16 < point then scientific d
      else if 0 ≤ d.exponent then positional d ++ ['.', '0']
      else positional d

/-- The text of a double as a plain setting: never an exponent, and no point for a whole number. -/
def plainText (x : Double) : List Char :=
  signed x.negative (if x.isZero then ['0'] else positional (shortest x))

end Courier.Decimal
