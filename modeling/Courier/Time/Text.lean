import Courier.Text.Blank
import Courier.Time.Instant

/-!
# Instants as text

An instant is written with its date, its time of day and as many groups of three fraction digits as
it takes.  Years from 0 to 9999 have four digits, and other years have a sign.

Reading is lenient: blanks may stand between the parts, numbers may be short, the date and the time
are separated by a letter or a blank, further fraction digits are dropped, and any offset below a
day is accepted.  An offset has to be there.
-/

namespace Courier.Instant

/-! ## Writing -/

/-- A number with at least `width` digits. -/
def padded (width : Nat) (n : Nat) : List Char :=
  let digits := Nat.toDigits 10 n
  List.replicate (width - digits.length) '0' ++ digits

/-- A year. -/
def yearText (y : Int) : List Char :=
  if 0 ≤ y ∧ y ≤ 9999 then padded 4 y.toNat
  else (if y < 0 then '-' else '+') :: padded 4 y.natAbs

/-- The date of an instant. -/
def date (t : Instant) : Date := Date.ofDays (t.second / 86400)

/-- Year, month and day. -/
def dateText (t : Instant) : List Char :=
  let d := t.date
  yearText d.year ++ '-' :: (padded 2 d.month ++ '-' :: padded 2 d.day)

/-- Hour, minute and second; a leap second is the second numbered 60. -/
def timeText (t : Instant) : List Char :=
  let s := t.secondOfDay.toNat
  padded 2 (s / 3600) ++ ':' :: (padded 2 (s / 60 % 60) ++ ':' ::
    padded 2 (s % 60 + if t.isLeap then 1 else 0))

/-- The nanoseconds within the second that is shown. -/
def shownFraction (t : Instant) : Nat := t.fraction % 1000000000

/-- Nothing, or a point and three, six or nine digits. -/
def fractionText (t : Instant) : List Char :=
  let n := t.shownFraction
  if n = 0 then []
  else if n % 1000000 = 0 then '.' :: padded 3 (n / 1000000)
  else if n % 1000 = 0 then '.' :: padded 6 (n / 1000)
  else '.' :: padded 9 n

/-- Date and time without an offset. -/
def localText (t : Instant) : List Char := t.dateText ++ 'T' :: (t.timeText ++ t.fractionText)

/-- The form in headers, with a numeric offset. -/
def headerText (t : Instant) : String :=
  String.ofList (t.localText ++ ['+', '0', '0', ':', '0', '0'])

/-- The form in documents, with the letter for the zero offset. -/
def documentText (t : Instant) : String := String.ofList (t.localText ++ ['Z'])

/-- The form for people, cut to milliseconds. -/
def displayText (t : Instant) : String :=
  String.ofList (t.dateText ++ ' ' :: (t.timeText ++ '.' ::
    (padded 3 (t.shownFraction / 1000000) ++ [' ', 'U', 'T', 'C'])))

/-! ## Reading -/

/-- At least one and at most `width` digits as a number. -/
def number (width : Nat) (s : List Char) : Option (Nat × List Char) :=
  let digits := (s.take width).takeWhile Char.isDigit
  if digits.isEmpty then none
  else some (digits.foldl (fun n c => n * 10 + (c.toNat - 48)) 0, s.drop digits.length)

/-- A number after blanks. -/
def field (width : Nat) (s : List Char) : Option (Nat × List Char) :=
  number width (Text.trimStart s)

/-- A year after blanks: four digits at most, or a sign and any number of digits. -/
def year (s : List Char) : Option (Int × List Char) :=
  match Text.trimStart s with
  | '-' :: rest => (number rest.length rest).map fun r => (-(r.1 : Int), r.2)
  | '+' :: rest => (number rest.length rest).map fun r => ((r.1 : Int), r.2)
  | s => (number 4 s).map fun r => ((r.1 : Int), r.2)

/-- A separator after blanks. -/
def separator (c : Char) (s : List Char) : Option (List Char) :=
  match Text.trimStart s with
  | [] => none
  | d :: rest => if d = c then some rest else none

/-- The fraction of a second in nanoseconds, zero if there is none. -/
def fractionDigits (s : List Char) : Option (Nat × List Char) :=
  match s with
  | '.' :: rest => do
    let (n, after) ← number 9 rest
    let count := rest.length - after.length
    some (n * Nat.pow 10 (9 - count), after.dropWhile Char.isDigit)
  | _ => some (0, s)

/-- Two digits as a number. -/
def twoDigits (s : List Char) : Option (Nat × List Char) :=
  match s with
  | a :: b :: rest =>
    if a.isDigit && b.isDigit then some ((a.toNat - 48) * 10 + (b.toNat - 48), rest) else none
  | _ => none

/-- The word for the zero offset, in any case. -/
def isUniversal (a b c : Char) : Bool :=
  a.toUpper == 'U' && b.toUpper == 'T' && c.toUpper == 'C'

/-- An offset in seconds. -/
def offset (s : List Char) : Option (Int × List Char) :=
  let amount (sign : Int) (s : List Char) : Option (Int × List Char) := do
    let (hours, s) ← twoDigits s
    let (minutes, s) ← twoDigits (s.dropWhile fun c => c == ':' || Text.isBlank c)
    if minutes < 60 then some (sign * (hours * 3600 + minutes * 60), s) else none
  match Text.trimStart s with
  | 'Z' :: rest => some (0, rest)
  | 'z' :: rest => some (0, rest)
  | '+' :: rest => amount 1 rest
  | '-' :: rest => amount (-1) rest
  | '−' :: rest => amount (-1) rest
  | a :: b :: c :: rest => if isUniversal a b c then some (0, rest) else none
  | _ => none

/-- Whether a character may stand between date and time. -/
def separatesTime (c : Char) : Bool := c == 'T' || c == 't' || c == ' '

/-- The instant of a date, a time of day in seconds, a fraction and an offset.  The local time has
to be within range as well. -/
def ofFields? (d : Date) (hour minute second fraction : Nat) (offset : Int) : Option Instant := do
  guard (d.exists_ && hour < 24 && minute < 60 && second ≤ 60)
  guard (-86400 < offset ∧ offset < 86400)
  let leap := second = 60
  let clock := hour * 3600 + minute * 60 + (if leap then 59 else second)
  let here := d.toDays * 86400 + clock
  let nanoseconds := fraction + if leap then 1000000000 else 0
  let _ ← ofParts? here nanoseconds
  ofParts? (here - offset) nanoseconds

/-- Read an instant. -/
def read? (text : String) : Option Instant := do
  let (y, s) ← year text.toList
  let s ← separator '-' s
  let (m, s) ← field 2 s
  let s ← separator '-' s
  let (d, s) ← field 2 s
  let s ← match s with
    | c :: rest => if separatesTime c then some rest else none
    | [] => none
  let (hour, s) ← field 2 s
  let s ← separator ':' s
  let (minute, s) ← field 2 s
  let s ← separator ':' s
  let (second, s) ← field 2 s
  let (nanoseconds, s) ← fractionDigits s
  let (shift, s) ← offset s
  guard (Text.trimStart s).isEmpty
  ofFields? ⟨y, m, d⟩ hour minute second nanoseconds shift

end Courier.Instant
