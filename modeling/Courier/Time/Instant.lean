import Courier.Time.Calendar
import Courier.Time.Span

/-!
# Instants

An instant is a second, counted from the start of 1970, and nanoseconds into it.  From `10 ^ 9` on
the nanoseconds lie in a leap second that follows.  Instants range over the years `-262143` to
`262142`, and moving beyond either end stops there.

Away from leap seconds an instant is a whole number of nanoseconds, and moving it is addition.
-/

namespace Courier

/-- A point in time. -/
structure Instant where
  second : Int
  fraction : Nat
  lower : -8334601228800 ≤ second
  upper : second ≤ 8210266876799
  fraction_lt : fraction < 2000000000
deriving DecidableEq

namespace Instant

/-- The first second. -/
def minSecond : Int := -8334601228800

/-- The last second. -/
def maxSecond : Int := 8210266876799

/-- The earliest instant. -/
def min : Instant := ⟨-8334601228800, 0, by decide, by decide, by decide⟩

/-- The latest instant outside a leap second. -/
def max : Instant := ⟨8210266876799, 999999999, by decide, by decide, by decide⟩

/-- The start of 1970. -/
def epoch : Instant := ⟨0, 0, by decide, by decide, by decide⟩

instance : Inhabited Instant := ⟨epoch⟩

/-- The instant of a second and a fraction, if it is within range. -/
def ofParts? (second : Int) (fraction : Nat) : Option Instant :=
  if h : minSecond ≤ second ∧ second ≤ maxSecond ∧ fraction < 2000000000 then
    some ⟨second, fraction, h.1, h.2.1, h.2.2⟩
  else none

/-- Nanoseconds since the start of 1970; within a leap second the count runs on. -/
def nanoseconds (t : Instant) : Int := t.second * 1000000000 + t.fraction

/-- The instant with this count of nanoseconds outside leap seconds, if it is within range. -/
def ofNanoseconds? (n : Int) : Option Instant :=
  ofParts? (n / 1000000000) (n % 1000000000).toNat

/-- Whether the instant lies in a leap second. -/
def isLeap (t : Instant) : Bool := 1000000000 ≤ t.fraction

/-- Earlier seconds come first, and within one second smaller fractions. -/
def le (a b : Instant) : Bool :=
  a.second < b.second || (a.second == b.second && a.fraction ≤ b.fraction)

/-- Strictly earlier. -/
def lt (a b : Instant) : Bool :=
  a.second < b.second || (a.second == b.second && a.fraction < b.fraction)

instance : LE Instant := ⟨fun a b => le a b = true⟩
instance : LT Instant := ⟨fun a b => lt a b = true⟩
instance (a b : Instant) : Decidable (a ≤ b) := inferInstanceAs (Decidable (le a b = true))
instance (a b : Instant) : Decidable (a < b) := inferInstanceAs (Decidable (lt a b = true))

/-- The order of two instants. -/
def compare (a b : Instant) : Ordering :=
  if a < b then .lt else if a = b then .eq else .gt

/-- An instant later by a span, at most the latest one.  Within a leap second a short move stays
in it; a longer one starts from the second before. -/
def add (t : Instant) (d : Span) : Instant :=
  if t.isLeap ∧ d.seconds = 0 ∧ t.fraction + d.subsecond < 2000000000 then
    (ofParts? t.second (t.fraction + d.subsecond)).getD max
  else
    let start := if t.isLeap then t.nanoseconds - 1000000000 else t.nanoseconds
    (ofNanoseconds? (start + d.nanoseconds)).getD max

/-- An instant earlier by a span, at least the earliest one.  Within a leap second a move of less
than a second counts back from there; a longer one starts from the second after. -/
def sub (t : Instant) (d : Span) : Instant :=
  if t.isLeap ∧ d.seconds = 0 then
    (ofParts? t.second (t.fraction - d.subsecond)).getD min
  else
    (ofNanoseconds? (t.nanoseconds - d.nanoseconds)).getD min

/-- The seconds of a day. -/
def secondOfDay (t : Instant) : Int := t.second % 86400

/-- Nanoseconds from `earlier` to `t`, counting a leap second that lies between their times of
day. -/
def difference (t earlier : Instant) : Int :=
  let leap : Int :=
    if earlier.secondOfDay < t.secondOfDay ∧ earlier.isLeap then 1
    else if t.secondOfDay < earlier.secondOfDay ∧ t.isLeap then -1
    else 0
  (t.second - earlier.second + leap) * 1000000000 + (t.fraction - earlier.fraction)

/-- The span from `earlier` to `t`, or none at all if `earlier` is later. -/
def since (t earlier : Instant) : Span := ⟨(t.difference earlier).toNat⟩

end Instant
end Courier
