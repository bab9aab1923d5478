/-!
# Spans of time

A span is a whole number of nanoseconds.  The longest span has `2 ^ 64 - 1` seconds and almost one
more.
-/

namespace Courier

/-- A length of time. -/
structure Span where
  nanoseconds : Nat
deriving DecidableEq, Repr, Inhabited

namespace Span

/-- Nanoseconds in a second. -/
def perSecond : Nat := 1000000000

/-- Nanoseconds in a millisecond. -/
def perMillisecond : Nat := 1000000

/-- No time at all. -/
def zero : Span := ⟨0⟩

/-- Whole milliseconds. -/
def ofMilliseconds (n : Nat) : Span := ⟨n * perMillisecond⟩

/-- Seconds and nanoseconds. -/
def ofSeconds (seconds : Nat) (nanoseconds : Nat) : Span := ⟨seconds * perSecond + nanoseconds⟩

/-- The whole seconds of a span. -/
def seconds (d : Span) : Nat := d.nanoseconds / perSecond

/-- What a span has beyond its whole seconds. -/
def subsecond (d : Span) : Nat := d.nanoseconds % perSecond

/-- The whole milliseconds of a span, as they are written: 64 bits of them. -/
def milliseconds (d : Span) : Nat := d.nanoseconds / perMillisecond % Nat.pow 2 64

/-- Whether the span is empty. -/
def isZero (d : Span) : Bool := d.nanoseconds == 0

instance : LE Span := ⟨fun a b => a.nanoseconds ≤ b.nanoseconds⟩
instance : LT Span := ⟨fun a b => a.nanoseconds < b.nanoseconds⟩
instance (a b : Span) : Decidable (a ≤ b) :=
  inferInstanceAs (Decidable (a.nanoseconds ≤ b.nanoseconds))
instance (a b : Span) : Decidable (a < b) :=
  inferInstanceAs (Decidable (a.nanoseconds < b.nanoseconds))

/-- A number in front of a fraction of `width` digits, without the zeros at its end. -/
def decimalText (whole fraction width : Nat) : List Char :=
  let digits := (Nat.toDigits 10 fraction)
  let padded := List.replicate (width - digits.length) '0' ++ digits
  let kept := (padded.reverse.dropWhile (· == '0')).reverse
  (Nat.repr whole).toList ++ (if kept.isEmpty then [] else '.' :: kept)

/-- A span in its largest fitting unit. -/
def describe (d : Span) : String :=
  let n := d.nanoseconds
  let (text, unit) :=
    if perSecond ≤ n then (decimalText (n / perSecond) (n % perSecond) 9, "s")
    else if perMillisecond ≤ n then (decimalText (n / perMillisecond) (n % perMillisecond) 6, "ms")
    else if 1000 ≤ n then (decimalText (n / 1000) (n % 1000) 3, "µs")
    else (decimalText n 0 0, "ns")
  String.ofList text ++ unit

end Span
end Courier
