/-!
# Reading a YAML text

A text that is being read: what is left of it, where it stands, and whether only blanks were seen so
far on its line.  Layout carries meaning in YAML, so every step keeps track of the column.
-/

namespace Courier.Yaml

/-- A line break. -/
def isBreak (c : Char) : Bool := c == '\n' || c == '\r'

/-- A space or a tab. -/
def isBlank (c : Char) : Bool := c == ' ' || c == '\t'

/-- A character that has a meaning inside of brackets. -/
def isFlowMark (c : Char) : Bool := c == ',' || c == '[' || c == ']' || c == '\x7b' || c == '\x7d'

/-- A line break or the end of the text. -/
def endsLine : Option Char → Bool
  | none => true
  | some c => isBreak c

/-- A blank, a line break or the end of the text. -/
def endsWord : Option Char → Bool
  | none => true
  | some c => isBreak c || isBlank c

/-- A place in a text. -/
structure Place where
  column : Nat := 0
  line : Nat := 0
  index : Nat := 0
deriving DecidableEq, Repr, Inhabited

/-- A text that is being read. -/
structure Reading where
  rest : List Char
  place : Place := {}
  /-- Whether only blanks were seen so far on the line. -/
  leading : Bool := true
deriving Inhabited

namespace Reading

/-- The character that comes so many places further on. -/
def peek (r : Reading) (n : Nat) : Option Char := r.rest[n]?

/-- The next character. -/
def next (r : Reading) : Option Char := r.rest.head?

/-- The column of the next character. -/
def column (r : Reading) : Nat := r.place.column

/-- Whether the next character is this one. -/
def isAt (r : Reading) (c : Char) : Bool := r.next == some c

/-- Whether the next character is a blank. -/
def isAtBlank (r : Reading) : Bool := r.next.any isBlank

/-- Whether the next character is a line break. -/
def isAtBreak (r : Reading) : Bool := r.next.any isBreak

/-- Go past so many characters of one line. -/
def skip (r : Reading) (n : Nat) : Reading :=
  { r with
    rest := r.rest.drop n
    place := { r.place with column := r.place.column + n, index := r.place.index + n } }

/-- Go past so many characters that are not blank. -/
def skipMark (r : Reading) (n : Nat) : Reading := { r.skip n with leading := false }

/-- Go past a line break; carriage return and line feed together are one. -/
def skipBreak (r : Reading) : Reading :=
  let n := match r.rest with
    | '\r' :: '\n' :: _ => 2
    | _ => 1
  { rest := r.rest.drop n
    place := { column := 0, line := r.place.line + 1, index := r.place.index + n }
    leading := true }

/-- Whether three equal marks stand here, alone or in front of a blank. -/
def isAtTriple (r : Reading) (c : Char) : Bool :=
  r.peek 0 == some c && r.peek 1 == some c && r.peek 2 == some c && endsWord (r.peek 3)

/-- Whether a document begins or ends here. -/
def isAtDocumentMark (r : Reading) : Bool :=
  r.column == 0 && (r.isAtTriple '-' || r.isAtTriple '.')

/-- Go past everything up to the end of the line. -/
def skipLine (r : Reading) : Reading :=
  r.skip (r.rest.takeWhile fun c => !isBreak c).length

/-- The blanks that were passed on the way to the end of a line. -/
structure Passed where
  tabs : Bool := false
  spaces : Bool := false

/-- Go past blanks and a comment; a comment needs a blank before it.  Tabs may be excluded. -/
def skipBlanks (tabs : Bool) (r : Reading) (passed : Passed) : Nat → Option (Reading × Passed)
  | 0 => some (r, passed)
  | fuel + 1 =>
    match r.next with
    | some ' ' => skipBlanks tabs (r.skip 1) { passed with spaces := true } fuel
    | some '\t' =>
      if tabs then skipBlanks tabs (r.skip 1) { passed with tabs := true } fuel
      else some (r, passed)
    | some '#' => if passed.tabs || passed.spaces then some (r.skipLine, passed) else none
    | _ => some (r, passed)

/-- Go past blanks and a comment to the end of the line or to what else there is on it. -/
def toEndOfLine (r : Reading) (tabs : Bool) : Option (Reading × Passed) :=
  skipBlanks tabs r {} (r.rest.length + 1)

end Reading
end Courier.Yaml
