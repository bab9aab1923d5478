import Courier.Yaml.Scalar

/-!
# Tags

A tag says what kind of value a node is.  It is written in full between angle brackets, or in short
behind an exclamation mark: a suffix, or a handle between exclamation marks and then a suffix.  A
directive may say which namespace a handle stands for.

Each function reads from the start of a row of characters and gives what it has read, and what
follows it.
-/

namespace Courier.Yaml.Tag

/-- A character of a handle. -/
def isWordChar (c : Char) : Bool := c.isAlphanum || c == '-' || c == '_'

/-- A character of a tag that is written in full. -/
def isUriChar (c : Char) : Bool :=
  isWordChar c || "#;/?:@&=+$,.!~*'()[]%".toList.contains c

/-- A character of a suffix. -/
def isSuffixChar (c : Char) : Bool := isUriChar c && !isFlowMark c && c != '!'

/-- How many octets a character has whose first octet is this one. -/
def octetCount? (octet : Nat) : Option Nat :=
  if octet < 0x80 then some 1
  else if 0xC0 ≤ octet ∧ octet < 0xE0 then some 2
  else if 0xE0 ≤ octet ∧ octet < 0xF0 then some 3
  else if 0xF0 ≤ octet ∧ octet < 0xF8 then some 4
  else none

/-- An octet, written as two hexadecimal digits behind a percent sign. -/
def takeOctet? : List Char → Option (Nat × List Char)
  | '%' :: a :: b :: rest => do return ((← Scalar.hexValue? a) * 16 + (← Scalar.hexValue? b), rest)
  | _ => none

/-- So many octets that continue a character, put behind the number of those before. -/
def takeOctets? (number : Nat) : Nat → List Char → Option (Nat × List Char)
  | 0, cs => some (number, cs)
  | n + 1, cs => do
    let (octet, rest) ← takeOctet? cs
    guard (0x80 ≤ octet && octet < 0xC0)
    takeOctets? (number * 256 + octet) n rest

/-- An escaped character.  Its number is that of its octets, one behind the other. -/
def takeEscape? (cs : List Char) : Option (Char × List Char) := do
  let (octet, rest) ← takeOctet? cs
  let count ← octetCount? octet
  let (number, rest) ← takeOctets? octet (count - 1) rest
  return (← Scalar.charOf? number, rest)

/-- A run of characters of some kind, of which a percent sign begins an escaped one. -/
def takeRun? (p : Char → Bool) (cs : List Char) : Nat → Option (List Char × List Char)
  | 0 => some ([], cs)
  | fuel + 1 =>
    match cs with
    | [] => some ([], [])
    | c :: rest =>
      if !p c then some ([], c :: rest)
      else do
        let (x, rest) ← if c == '%' then takeEscape? (c :: rest) else some (c, rest)
        let (xs, rest) ← takeRun? p rest fuel
        return (x :: xs, rest)

/-- The rest of a tag that is written in full, behind its first angle bracket. -/
def takeFull? (cs : List Char) : Option (String × List Char) := do
  let (xs, rest) ← takeRun? isUriChar cs cs.length
  match rest with
  | '>' :: rest => return (String.ofList xs, rest)
  | _ => none

/-- The handle and the suffix of a tag behind its first exclamation mark. -/
def take? (cs : List Char) : Option (String × String × List Char) := do
  match cs with
  | '<' :: rest =>
    let (suffix, rest) ← takeFull? rest
    return ("", suffix, rest)
  | _ =>
    let word := cs.takeWhile isWordChar
    match cs.drop word.length with
    | '!' :: rest =>
      let (xs, rest) ← takeRun? isSuffixChar rest rest.length
      guard !xs.isEmpty
      return (String.ofList ('!' :: (word ++ ['!'])), String.ofList xs, rest)
    | rest =>
      let (xs, rest) ← takeRun? isSuffixChar rest rest.length
      if word.isEmpty && xs.isEmpty then return ("", "!", rest)
      else return ("!", String.ofList (word ++ xs), rest)

/-- The handle that a directive declares: a single exclamation mark, or one at either end. -/
def takeDeclaredHandle? (cs : List Char) : Option (String × List Char) :=
  match cs with
  | '!' :: rest =>
    let word := rest.takeWhile isWordChar
    match word, rest.drop word.length with
    | word, '!' :: rest => some (String.ofList ('!' :: (word ++ ['!'])), rest)
    | [], rest => some ("!", rest)
    | _ :: _, _ => none
  | _ => none

/-- The namespace that a directive declares; it may begin with an exclamation mark. -/
def takeSpace? (cs : List Char) : Option (String × List Char) := do
  let (mark, rest) := match cs with
    | '!' :: rest => (['!'], rest)
    | cs => ([], cs)
  guard (!mark.isEmpty || rest.head?.any isSuffixChar)
  let (xs, rest) ← takeRun? isUriChar rest rest.length
  return (String.ofList (mark ++ xs), rest)

end Courier.Yaml.Tag
