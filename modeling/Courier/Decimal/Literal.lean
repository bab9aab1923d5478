import Courier.Decimal.Double

/-!
# Numbers in settings

Settings are texts in which numbers are recognised: whole numbers of 64 bits and decimal fractions
with an optional exponent.  Either may have a sign.  A fraction that is too large for a double is
infinite.
-/

namespace Courier.Decimal

/-- A number that a setting may be. -/
inductive Setting
  | finite (x : Double)
  | infinite (negative : Bool)
  | undefined
deriving DecidableEq, Repr, Inhabited

/-- A sign, and what follows it. -/
def takeSign : List Char → Bool × List Char
  | '-' :: rest => (true, rest)
  | '+' :: rest => (false, rest)
  | cs => (false, cs)

/-- The value of a digit. -/
def digit (c : Char) : Nat := c.toNat - 48

/-- Whether a character is a digit. -/
def isDigit (c : Char) : Bool := '0' ≤ c && c ≤ '9'

/-- The number of a row of digits. -/
def natural (ds : List Char) : Nat := ds.foldl (fun n c => n * 10 + digit c) 0

/-- A natural number; a plus sign may stand in front of it. -/
def natural? (cs : List Char) : Option Nat :=
  let ds := match cs with
    | '+' :: rest => rest
    | cs => cs
  if !ds.isEmpty && ds.all isDigit then some (natural ds) else none

/-- A whole number from `-2 ^ 63` up to `2 ^ 63 - 1`. -/
def inRange? (negative : Bool) (n : Nat) : Option Int :=
  let i : Int := if negative then -(n : Int) else n
  let bound : Int := Nat.pow 2 63
  if -bound ≤ i ∧ i < bound then some i else none

/-- A whole number of 64 bits. -/
def whole? (cs : List Char) : Option Int := do
  let (negative, ds) := takeSign cs
  guard (!ds.isEmpty && ds.all isDigit)
  inRange? negative (natural ds)

/-- The value of a digit of any base up to sixteen. -/
def baseDigit? (base : Nat) (c : Char) : Option Nat :=
  let value :=
    if isDigit c then some (digit c)
    else if 'a' ≤ c ∧ c ≤ 'f' then some (c.toNat - 87)
    else if 'A' ≤ c ∧ c ≤ 'F' then some (c.toNat - 55)
    else none
  value.filter fun n => decide (n < base)

/-- A whole number of 64 bits in another base. -/
def wholeInBase? (base : Nat) (cs : List Char) : Option Int := do
  let (negative, ds) := takeSign cs
  guard !ds.isEmpty
  let values ← ds.mapM (baseDigit? base)
  inRange? negative (values.foldl (fun n d => n * base + d) 0)

/-- The exponent behind the digits of a fraction; none is zero. -/
def exponent? : List Char → Option Int
  | [] => some 0
  | c :: rest =>
    if c == 'e' || c == 'E' then
      let (negative, ds) := takeSign rest
      if !ds.isEmpty && ds.all isDigit then
        some (if negative then -(natural ds : Int) else natural ds)
      else none
    else none

/-- The largest exponent, of either sign, that makes a difference to so many digits. -/
def exponentBound (digits : Nat) : Nat := digits + 400

/-- The number of these digits with this exponent. -/
def fraction (negative : Bool) (digits : List Char) (exponent : Int) : Setting :=
  let n := natural digits
  let bound : Int := exponentBound digits.length
  let e := max (-bound) (min bound exponent)
  let x := if 0 ≤ e then Double.ofFraction? negative (n * Nat.pow 10 e.toNat) 1
    else Double.ofFraction? negative n (Nat.pow 10 (-e).toNat)
  match x with
  | some x => .finite x
  | none => .infinite negative

/-- A word for a number that is not finite, in any case. -/
def wordSetting? (negative : Bool) (cs : List Char) : Option Setting :=
  let word := String.ofList (cs.map Char.toLower)
  if word == "inf" || word == "infinity" then some (.infinite negative)
  else if word == "nan" then some .undefined
  else none

/-- A number with or without a fraction and an exponent, or a word for one that is not finite. -/
def setting? (cs : List Char) : Option Setting :=
  let (negative, cs) := takeSign cs
  match wordSetting? negative cs with
  | some x => some x
  | none => do
    let wholePart := cs.takeWhile isDigit
    let rest := cs.drop wholePart.length
    let (fractionPart, rest) := match rest with
      | '.' :: after => (after.takeWhile isDigit, after.dropWhile isDigit)
      | rest => ([], rest)
    guard !(wholePart.isEmpty && fractionPart.isEmpty)
    let e ← exponent? rest
    return fraction negative (wholePart ++ fractionPart) (e - fractionPart.length)

end Courier.Decimal
