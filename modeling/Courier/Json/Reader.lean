import Courier.Bytes
import Courier.Json.Basic

/-!
# Reading JSON

A reader takes bytes from the front of a document and says what is left.  It stops at the first
fault, and a fault is one of three kinds: the text is malformed, the text ends too early, or it is
well formed but not of the wanted shape.  Bytes are checked to be UTF-8 only where they matter,
inside a text that is kept.

Nesting is bounded: lists and objects more than 127 deep are refused as malformed.  Values that are
skipped rather than kept know neither that bound nor the range of numbers.
-/

namespace Courier.Json

/-- Why a document cannot be read. -/
inductive Fault
  /-- The text breaks the grammar. -/
  | malformed
  /-- The text ends inside a value. -/
  | truncated
  /-- The text is a value of another shape than the wanted one. -/
  | mismatched
deriving DecidableEq, Repr, Inhabited

/-- What a reader gives: a result and the rest of the document. -/
abbrev Outcome (α : Type) := Except Fault (α × Bytes)

/-- A reader of a part of a document. -/
abbrev Reader (α : Type) := Bytes → Outcome α

/-- The byte of an ASCII character. -/
def byte (c : Char) : UInt8 := UInt8.ofNat c.toNat

/-- Blanks between tokens. -/
def isBlank (b : UInt8) : Bool := b == 32 || b == 10 || b == 9 || b == 13

/-- The document after its leading blanks. -/
def skipBlanks (s : Bytes) : Bytes := s.dropWhile isBlank

/-- Whether a byte is a decimal digit. -/
def isDigit (b : UInt8) : Bool := 48 ≤ b && b ≤ 57

/-- The value of a decimal digit. -/
def digitValue (b : UInt8) : Nat := b.toNat - 48

/-- The remaining bytes of a fixed word. -/
def word : Bytes → Bytes → Except Fault Bytes
  | [], s => .ok s
  | _ :: _, [] => .error .truncated
  | w :: ws, b :: s => if b = w then word ws s else .error .malformed

/-! ## Texts -/

/-- The value of a hexadecimal digit of either case. -/
def hexValue? (b : UInt8) : Option Nat :=
  if 48 ≤ b ∧ b ≤ 57 then some (b.toNat - 48)
  else if 97 ≤ b ∧ b ≤ 102 then some (b.toNat - 87)
  else if 65 ≤ b ∧ b ≤ 70 then some (b.toNat - 55)
  else none

/-- The number written by four hexadecimal digits. -/
def hex4? (a b c d : UInt8) : Option Nat := do
  let a ← hexValue? a
  let b ← hexValue? b
  let c ← hexValue? c
  let d ← hexValue? d
  some (((a * 16 + b) * 16 + c) * 16 + d)

/-- The first half of a pair that stands for one character. -/
def isLead (n : Nat) : Bool := 0xD800 ≤ n && n ≤ 0xDBFF

/-- The second half of a pair that stands for one character. -/
def isTrail (n : Nat) : Bool := 0xDC00 ≤ n && n ≤ 0xDFFF

/-- The code point of a pair. -/
def pairValue (lead trail : Nat) : Nat := (lead - 0xD800) * 1024 + (trail - 0xDC00) + 0x10000

/-- The bytes of a code point; a lone half of a pair has three bytes like its neighbours. -/
def codeBytes (n : Nat) : Bytes :=
  if n < 0x80 then [UInt8.ofNat n]
  else if n < 0x800 then [UInt8.ofNat (0xC0 + n / 64), UInt8.ofNat (0x80 + n % 64)]
  else if n < 0x10000 then
    [UInt8.ofNat (0xE0 + n / 4096), UInt8.ofNat (0x80 + n / 64 % 64), UInt8.ofNat (0x80 + n % 64)]
  else
    [UInt8.ofNat (0xF0 + n / 262144), UInt8.ofNat (0x80 + n / 4096 % 64),
      UInt8.ofNat (0x80 + n / 64 % 64), UInt8.ofNat (0x80 + n % 64)]

/-- The byte that a one-letter escape stands for. -/
def shortEscape? (e : UInt8) : Option UInt8 :=
  if e = byte '"' ∨ e = byte '\\' ∨ e = byte '/' then some e
  else if e = byte 'b' then some 8
  else if e = byte 'f' then some 12
  else if e = byte 'n' then some 10
  else if e = byte 'r' then some 13
  else if e = byte 't' then some 9
  else none

/-- The bytes of a text up to its closing quote; `acc` holds those before, last byte first. -/
def textBody (acc : Bytes) : Bytes → Outcome Bytes
  | [] => .error .truncated
  | b :: rest =>
    if b = byte '"' then .ok (acc.reverse, rest)
    else if b = byte '\\' then
      match rest with
      | [] => .error .truncated
      | e :: rest =>
        if e = byte 'u' then
          match rest with
          | h1 :: h2 :: h3 :: h4 :: rest =>
            match hex4? h1 h2 h3 h4 with
            | none => .error .malformed
            | some n =>
              if isTrail n then .error .malformed
              else if isLead n then
                match rest with
                | [] => .error .truncated
                | x :: rest =>
                  if x = byte '\\' then
                    match rest with
                    | [] => .error .truncated
                    | y :: rest =>
                      if y = byte 'u' then
                        match rest with
                        | g1 :: g2 :: g3 :: g4 :: rest =>
                          match hex4? g1 g2 g3 g4 with
                          | none => .error .malformed
                          | some m =>
                            if isTrail m then
                              textBody ((codeBytes (pairValue n m)).reverse ++ acc) rest
                            else .error .malformed
                        | _ => .error .truncated
                      else .error .malformed
                  else .error .malformed
              else textBody ((codeBytes n).reverse ++ acc) rest
          | _ => .error .truncated
        else
          match shortEscape? e with
          | some x => textBody (x :: acc) rest
          | none => .error .malformed
    else if b < 32 then .error .malformed
    else textBody (b :: acc) rest

/-- A text whose opening quote has been read. -/
def textAfterQuote (s : Bytes) : Outcome String :=
  match textBody [] s with
  | .error f => .error f
  | .ok (bytes, rest) =>
    match Bytes.text? bytes with
    | some t => .ok (t, rest)
    | none => .error .malformed

/-- The bytes of a text that is read as bytes: control characters, broken UTF-8 and lone halves of
pairs are all kept.  `lead` is a first half that still waits for its second. -/
def rawBody (acc : Bytes) (lead : Option Nat) : Bytes → Outcome Bytes
  | [] => .error .truncated
  | b :: rest =>
    let kept := match lead with
      | some n => (codeBytes n).reverse ++ acc
      | none => acc
    if b = byte '"' then .ok (kept.reverse, rest)
    else if b = byte '\\' then
      match rest with
      | [] => .error .truncated
      | e :: rest =>
        if e = byte 'u' then
          match rest with
          | h1 :: h2 :: h3 :: h4 :: rest =>
            match hex4? h1 h2 h3 h4, lead with
            | none, _ => .error .malformed
            | some m, some n =>
              if isTrail m then rawBody ((codeBytes (pairValue n m)).reverse ++ acc) none rest
              else if isLead m then rawBody kept (some m) rest
              else rawBody ((codeBytes m).reverse ++ kept) none rest
            | some m, none =>
              if isLead m then rawBody kept (some m) rest
              else rawBody ((codeBytes m).reverse ++ kept) none rest
          | _ => .error .truncated
        else
          match shortEscape? e with
          | some x => rawBody (x :: kept) none rest
          | none => .error .malformed
    else rawBody (b :: kept) none rest

/-- Pass over a text whose opening quote has been read. -/
def skipText : Bytes → Except Fault Bytes
  | [] => .error .truncated
  | b :: rest =>
    if b = byte '"' then .ok rest
    else if b = byte '\\' then
      match rest with
      | [] => .error .truncated
      | e :: rest =>
        if e = byte 'u' then
          match rest with
          | h1 :: h2 :: h3 :: h4 :: rest =>
            match hex4? h1 h2 h3 h4 with
            | none => .error .malformed
            | some _ => skipText rest
          | _ => .error .truncated
        else if (shortEscape? e).isSome then skipText rest
        else .error .malformed
    else if b < 32 then .error .malformed
    else skipText rest

/-! ## Numbers -/

/-- The greatest whole number that is kept digit by digit. -/
def maxWhole : Nat := Nat.pow 2 64 - 1

/-- Append digits to a significand as long as it stays within range; the digits that do not fit
are given back. -/
def accumulate (significand : Nat) : Bytes → Nat × Bytes
  | [] => (significand, [])
  | b :: rest =>
    let n := significand * 10 + digitValue b
    if maxWhole < n then (significand, b :: rest) else accumulate n rest

/-- The size `significand * 10 ^ exponent`.  Within the table of powers it takes one multiplication
or division; below that it is divided by `10 ^ 308` first, which after two rounds leaves zero. -/
def assemble (significand : Double) (exponent : Int) : Nat → Option Double
  | 0 => some (Double.zero false)
  | fuel + 1 =>
    if exponent.natAbs ≤ 308 then
      if 0 ≤ exponent then significand.mul? (Double.powerOfTen exponent.natAbs)
      else significand.div? (Double.powerOfTen exponent.natAbs)
    else if significand.isZero then some significand
    else if 0 ≤ exponent then none
    else (significand.div? (Double.powerOfTen 308)).bind fun f => assemble f (exponent + 308) fuel

/-- A double from its significand and exponent. -/
def doubleOf (negative : Bool) (significand : Nat) (exponent : Int) (s : Bytes) :
    Outcome JsonNumber :=
  match assemble (Double.ofNat false significand) exponent 4 with
  | none => .error .malformed
  | some x => .ok (.double { x with negative := negative }, s)

/-- Greatest exponent that is read digit by digit. -/
def maxExponent : Nat := Nat.pow 2 31 - 1

/-- The number written by digits. -/
def digitsValue (ds : Bytes) : Nat := ds.foldl (fun n b => n * 10 + digitValue b) 0

/-- The exponent of a number and the number, after the letter that starts the exponent. -/
def exponentPart (negative : Bool) (significand : Nat) (exponent : Int) (s : Bytes) :
    Outcome JsonNumber :=
  let (down, s) := match s with
    | b :: rest => if b = byte '+' then (false, rest) else if b = byte '-' then (true, rest)
        else (false, s)
    | [] => (false, s)
  match s with
  | [] => .error .truncated
  | b :: _ =>
    if isDigit b then
      let e := digitsValue (s.takeWhile isDigit)
      let rest := s.dropWhile isDigit
      if maxExponent < e then
        if significand ≠ 0 ∧ ¬ down then .error .malformed
        else .ok (.double (Double.zero negative), rest)
      else doubleOf negative significand (if down then exponent - e else exponent + e) rest
    else .error .malformed

/-- Whether a byte starts an exponent. -/
def startsExponent (b : UInt8) : Bool := b = byte 'e' || b = byte 'E'

/-- The rest of a number after its significand so far. -/
def exponentOrEnd (negative : Bool) (significand : Nat) (exponent : Int) (s : Bytes) :
    Outcome JsonNumber :=
  match s with
  | b :: rest =>
    if startsExponent b then exponentPart negative significand exponent rest
    else doubleOf negative significand exponent s
  | [] => doubleOf negative significand exponent s

/-- The rest of a number after its point. -/
def fractionPart (negative : Bool) (significand : Nat) (exponent : Int) (s : Bytes) :
    Outcome JsonNumber :=
  let ds := s.takeWhile isDigit
  let rest := s.dropWhile isDigit
  if ds.isEmpty then
    if rest.isEmpty then .error .truncated else .error .malformed
  else
    let (n, unused) := accumulate significand ds
    exponentOrEnd negative n (exponent - (ds.length - unused.length : Nat)) rest

/-- A whole number, or a double when it is out of range or a negative zero. -/
def wholeNumber (negative : Bool) (n : Nat) : JsonNumber :=
  if negative then
    if n = 0 ∨ Nat.pow 2 63 < n then .double (Double.ofNat true n) else .whole (-(n : Int))
  else .whole n

/-- A number whose sign has been read. -/
def unsignedNumber (negative : Bool) (s : Bytes) : Outcome JsonNumber :=
  match s with
  | [] => .error .truncated
  | b :: tail =>
    if ¬ isDigit b then .error .malformed
    else if b = byte '0' ∧ (tail.head?.any isDigit) then .error .malformed
    else
      let ds := s.takeWhile isDigit
      let rest := s.dropWhile isDigit
      let (n, unused) := accumulate 0 ds
      match rest with
      | c :: after =>
        if c = byte '.' then fractionPart negative n unused.length after
        else if startsExponent c then exponentPart negative n unused.length after
        else if unused.isEmpty then .ok (wholeNumber negative n, rest)
        else doubleOf negative n unused.length rest
      | [] =>
        if unused.isEmpty then .ok (wholeNumber negative n, rest)
        else doubleOf negative n unused.length rest

/-- Pass over the exponent of a number. -/
def skipExponent (s : Bytes) : Except Fault Bytes :=
  let s := match s with
    | b :: rest => if b = byte '+' ∨ b = byte '-' then rest else s
    | [] => s
  match s with
  | b :: _ => if isDigit b then .ok (s.dropWhile isDigit) else .error .malformed
  | [] => .error .malformed

/-- Pass over a number whose sign has been read. -/
def skipNumber (s : Bytes) : Except Fault Bytes :=
  match s with
  | [] => .error .malformed
  | b :: tail =>
    if ¬ isDigit b then .error .malformed
    else if b = byte '0' ∧ (tail.head?.any isDigit) then .error .malformed
    else
      match s.dropWhile isDigit with
      | c :: after =>
        if c = byte '.' then
          let rest := after.dropWhile isDigit
          if (after.takeWhile isDigit).isEmpty then .error .malformed
          else match rest with
            | e :: after => if startsExponent e then skipExponent after else .ok rest
            | [] => .ok rest
        else if startsExponent c then skipExponent after
        else .ok (c :: after)
      | [] => .ok []

/-! ## Lists and objects -/

/-- Items up to the closing bracket.  `first` says that no item has been read yet; the last
argument bounds their number. -/
def items {α : Type} (item : Reader α) (first : Bool) (s : Bytes) : Nat → Outcome (List α)
  | 0 => .error .truncated
  | fuel + 1 =>
    let continue_ (s : Bytes) : Outcome (List α) :=
      match item s with
      | .error f => .error f
      | .ok (x, s) =>
        match items item false s fuel with
        | .error f => .error f
        | .ok (xs, s) => .ok (x :: xs, s)
    match skipBlanks s with
    | [] => .error .truncated
    | b :: rest =>
      if b = byte ']' then .ok ([], rest)
      else if first then continue_ (b :: rest)
      else if b = byte ',' then
        match skipBlanks rest with
        | [] => .error .truncated
        | c :: rest => if c = byte ']' then .error .malformed else continue_ (c :: rest)
      else .error .malformed

/-- The colon after a name. -/
def colon (s : Bytes) : Except Fault Bytes :=
  match skipBlanks s with
  | [] => .error .truncated
  | b :: rest => if b = byte ':' then .ok rest else .error .malformed

/-- The next name of an object up to its closing quote, or nothing at the closing brace.  The
result `none` comes with the bytes after the brace. -/
def nextName {α : Type} (name : Reader α) (first : Bool) (s : Bytes) : Outcome (Option α) :=
  let key (s : Bytes) : Outcome (Option α) :=
    match s with
    | [] => .error .truncated
    | b :: rest =>
      if b = byte '"' then
        match name rest with
        | .error f => .error f
        | .ok (k, rest) => .ok (some k, rest)
      else .error .malformed
  match skipBlanks s with
  | [] => .error .truncated
  | b :: rest =>
    if b = byte '}' then .ok (none, rest)
    else if first then key (b :: rest)
    else if b = byte ',' then key (skipBlanks rest)
    else .error .malformed

/-- Fold over the members up to the closing brace: `member` reads the colon and the value that
follow a name.  The last argument bounds the number of members. -/
def foldMembers {σ : Type} (member : String → σ → Reader σ) (first : Bool) (state : σ)
    (s : Bytes) : Nat → Outcome σ
  | 0 => .error .truncated
  | fuel + 1 =>
    match nextName textAfterQuote first s with
    | .error f => .error f
    | .ok (none, s) => .ok (state, s)
    | .ok (some k, s) =>
      match member k state s with
      | .error f => .error f
      | .ok (state, s) => foldMembers member false state s fuel

/-- A value that is neither list nor object and starts with the byte `b`. -/
def scalar (b : UInt8) (rest : Bytes) : Outcome Json :=
  if b = byte 'n' then (word [117, 108, 108] rest).map fun s => (.null, s)
  else if b = byte 't' then (word [114, 117, 101] rest).map fun s => (.bool true, s)
  else if b = byte 'f' then (word [97, 108, 115, 101] rest).map fun s => (.bool false, s)
  else if b = byte '"' then (textAfterQuote rest).map fun r => (.text r.1, r.2)
  else if b = byte '-' then (unsignedNumber true rest).map fun r => (.number r.1, r.2)
  else if isDigit b then (unsignedNumber false (b :: rest)).map fun r => (.number r.1, r.2)
  else .error .malformed

/-- A value with lists and objects nested at most `depth` deep.  Members of an object are put in
the order of their names, and of several with one name the last one stays. -/
def value (depth : Nat) (s : Bytes) : Outcome Json :=
  match skipBlanks s with
  | [] => .error .truncated
  | b :: rest =>
    if b = byte '[' then
      match depth with
      | 0 => .error .malformed
      | d + 1 => (items (value d) true rest (rest.length + 1)).map fun r => (.list r.1, r.2)
    else if b = byte '{' then
      match depth with
      | 0 => .error .malformed
      | d + 1 =>
        let member (k : String) (m : Dictionary Json) : Reader (Dictionary Json) := fun s =>
          match colon s with
          | .error f => .error f
          | .ok s => (value d s).map fun r => (m.insert k r.1, r.2)
        (foldMembers member true [] rest (rest.length + 1)).map fun r => (.object r.1, r.2)
    else scalar b rest

/-- Only blanks may follow. -/
def finish {α : Type} (r : Outcome α) : Except Fault α :=
  match r with
  | .error f => .error f
  | .ok (x, rest) => if (skipBlanks rest).isEmpty then .ok x else .error .malformed

/-- The deepest nesting of a document. -/
def maxDepth : Nat := 127

/-- A whole document. -/
def parse (s : Bytes) : Except Fault Json := finish (value maxDepth s)

/-- A whole document whose nesting is bounded by its length only. -/
def parseDeep (s : Bytes) : Except Fault Json := finish (value s.length s)

/-! ## Skipping -/

/-- Pass over a value.  The second argument bounds the nesting. -/
def skip (s : Bytes) : Nat → Except Fault Bytes
  | 0 => .error .truncated
  | fuel + 1 =>
    let step : Reader Unit := fun s => (skip s fuel).map fun s => ((), s)
    match skipBlanks s with
    | [] => .error .truncated
    | b :: rest =>
      if b = byte '[' then (items step true rest (rest.length + 1)).map (·.2)
      else if b = byte '{' then skipMembers step true rest (rest.length + 1)
      else if b = byte 'n' then word [117, 108, 108] rest
      else if b = byte 't' then word [114, 117, 101] rest
      else if b = byte 'f' then word [97, 108, 115, 101] rest
      else if b = byte '"' then skipText rest
      else if b = byte '-' then skipNumber rest
      else if isDigit b then skipNumber (b :: rest)
      else .error .malformed
where
  /-- Pass over members up to the closing brace. -/
  skipMembers (step : Reader Unit) (first : Bool) (s : Bytes) : Nat → Except Fault Bytes
    | 0 => .error .truncated
    | fuel + 1 =>
      match nextName (fun s => (skipText s).map fun s => ((), s)) first s with
      | .error f => .error f
      | .ok (none, s) => .ok s
      | .ok (some (), s) =>
        match colon s with
        | .error f => .error f
        | .ok s =>
          match step s with
          | .error f => .error f
          | .ok ((), s) => skipMembers step false s fuel

end Courier.Json
