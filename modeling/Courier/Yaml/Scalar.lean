import Courier.Yaml.Reading

/-!
# Scalars

A scalar is written plainly, in quotes or as a block of lines.  Within a plain or quoted scalar a
line break counts as a space and an empty line as a break.  A block keeps its breaks, or folds them
in the same way, and says what becomes of those at its end.

Each function reads one scalar and gives its text, or nothing if it is not written correctly.
-/

namespace Courier.Yaml.Scalar

/-! ## Text that is put together -/

/-- A scalar as far as it has been read. -/
structure Draft where
  /-- The characters so far, last one first. -/
  text : List Char := []
  /-- Blanks that belong to the text only if more follows on the line, last one first. -/
  blanks : List Char := []
  /-- Whether a line has ended since the last character. -/
  broken : Bool := false
  /-- How many empty lines followed. -/
  empties : Nat := 0

namespace Draft

/-- Add a character. -/
def push (d : Draft) (c : Char) : Draft := { d with text := c :: d.text }

/-- A line ends. -/
def breakLine (d : Draft) : Draft :=
  if d.broken then { d with empties := d.empties + 1 }
  else { d with blanks := [], broken := true }

/-- More follows: take up what stands between. -/
def join (d : Draft) : Draft :=
  if d.broken then
    let between := if d.empties = 0 then [' '] else List.replicate d.empties '\n'
    { text := between ++ d.text }
  else { d with text := d.blanks ++ d.text, blanks := [] }

/-- The text. -/
def toText (d : Draft) : String := String.ofList d.text.reverse

end Draft

/-! ## Plain scalars -/

/-- Whether a plain scalar can go on with the next character. -/
def goesOn (inFlow : Bool) (r : Reading) : Bool :=
  match r.next with
  | none => false
  | some c =>
    if isBlank c || isBreak c then false
    else if c == ':' then !(endsWord (r.peek 1) || (inFlow && (r.peek 1).any isFlowMark))
    else !(inFlow && isFlowMark c)

/-- The rest of a word. -/
def plainWord (inFlow : Bool) (r : Reading) (d : Draft) : Nat → Reading × Draft
  | 0 => (r, d)
  | fuel + 1 =>
    match r.next with
    | some c =>
      if goesOn inFlow r then plainWord inFlow (r.skipMark 1) (d.push c) fuel else (r, d)
    | none => (r, d)

/-- Blanks and breaks between words.  A tab does not indent a line. -/
def plainGap (indent : Int) (r : Reading) (d : Draft) : Nat → Option (Reading × Draft)
  | 0 => some (r, d)
  | fuel + 1 =>
    match r.next with
    | some c =>
      if isBlank c then
        if !r.leading then plainGap indent (r.skip 1) { d with blanks := c :: d.blanks } fuel
        else if c == '\t' && (r.column : Int) < indent then do
          let (r, _) ← r.toEndOfLine true
          if endsLine r.next then plainGap indent r d fuel else none
        else plainGap indent (r.skip 1) d fuel
      else if isBreak c then plainGap indent r.skipBreak d.breakLine fuel
      else some (r, d)
    | none => some (r, d)

/-- Words and gaps. -/
def plainWords (inFlow : Bool) (indent : Int) (r : Reading) (d : Draft) :
    Nat → Option (Reading × Draft)
  | 0 => some (r, d)
  | fuel + 1 =>
    if r.isAtDocumentMark || r.isAt '#' then some (r, d)
    else if inFlow && r.isAt '-' && (r.peek 1).any isFlowMark then none
    else
      let (r, d) :=
        if goesOn inFlow r then plainWord inFlow r d.join (r.rest.length + 1) else (r, d)
      if r.isAtBlank || r.isAtBreak then
        match plainGap indent r d (r.rest.length + 1) with
        | none => none
        | some (r, d) =>
          if !inFlow && (r.column : Int) < indent then some (r, d)
          else plainWords inFlow indent r d fuel
      else some (r, d)

/-- A plain scalar whose further lines are indented at least so far. -/
def plain (inFlow : Bool) (indent : Int) (r : Reading) : Option (Reading × String) := do
  guard !(inFlow && (r.column : Int) < indent)
  let (r, d) ← plainWords inFlow indent r {} (r.rest.length + 1)
  guard !d.text.isEmpty
  return (r, d.toText)

/-! ## Quoted scalars -/

/-- The value of a hexadecimal digit. -/
def hexValue? (c : Char) : Option Nat :=
  if '0' ≤ c ∧ c ≤ '9' then some (c.toNat - 48)
  else if 'a' ≤ c ∧ c ≤ 'f' then some (c.toNat - 87)
  else if 'A' ≤ c ∧ c ≤ 'F' then some (c.toNat - 55)
  else none

/-- The character of a code point, if there is one. -/
def charOf? (n : Nat) : Option Char := if n.isValidChar then some (Char.ofNat n) else none

/-- The character that so many hexadecimal digits stand for. -/
def hexChar? (ds : List Char) (width : Nat) : Option Char := do
  guard (ds.length = width)
  let values ← ds.mapM hexValue?
  charOf? (values.foldl (fun n d => n * 16 + d) 0)

/-- The character that a letter after a backslash stands for. -/
def shortEscape? : Char → Option Char
  | '0' => some '\x00'
  | 'a' => some '\x07'
  | 'b' => some '\x08'
  | 't' | '\t' => some '\t'
  | 'n' => some '\n'
  | 'v' => some '\x0b'
  | 'f' => some '\x0c'
  | 'r' => some '\r'
  | 'e' => some '\x1b'
  | ' ' => some ' '
  | '"' => some '"'
  | '/' => some '/'
  | '\\' => some '\\'
  | 'N' => some '\u0085'
  | '_' => some '\u00a0'
  | 'L' => some '\u2028'
  | 'P' => some '\u2029'
  | _ => none

/-- A character after a backslash. -/
def escape (r : Reading) : Option (Reading × Char) := do
  let c ← r.peek 1
  let hex (width : Nat) : Option (Reading × Char) := do
    let x ← hexChar? ((r.rest.drop 2).take width) width
    return (r.skipMark (2 + width), x)
  match c with
  | 'x' => hex 2
  | 'u' => hex 4
  | 'U' => hex 8
  | c => return (r.skipMark 2, ← shortEscape? c)

/-- A run of characters without blanks; says whether it ended with an escaped line break. -/
def quotedWord (single : Bool) (r : Reading) (d : Draft) : Nat → Option (Reading × Draft × Bool)
  | 0 => some (r, d, false)
  | fuel + 1 =>
    match r.next with
    | none => some (r, d, false)
    | some c =>
      if isBlank c || isBreak c then some (r, d, false)
      else if single then
        if c == '\'' then
          if r.peek 1 == some '\'' then quotedWord single (r.skipMark 2) (d.push '\'') fuel
          else some (r, d, false)
        else quotedWord single (r.skipMark 1) (d.push c) fuel
      else if c == '"' then some (r, d, false)
      else if c == '\\' then
        if (r.peek 1).any isBreak then some ((r.skipMark 1).skipBreak, d, true)
        else match escape r with
          | none => none
          | some (r, x) => quotedWord single r (d.push x) fuel
      else quotedWord single (r.skipMark 1) (d.push c) fuel

/-- Blanks and breaks between runs; `lineBegun` says whether a line has ended before. -/
def quotedGap (indent : Int) (lineBegun : Bool) (r : Reading) (d : Draft) :
    Nat → Option (Reading × Draft × Bool)
  | 0 => some (r, d, lineBegun)
  | fuel + 1 =>
    match r.next with
    | none => some (r, d, lineBegun)
    | some c =>
      if isBlank c then
        if lineBegun then
          if c == '\t' && (r.column : Int) < indent then none
          else quotedGap indent lineBegun (r.skip 1) d fuel
        else quotedGap indent lineBegun (r.skip 1) { d with blanks := c :: d.blanks } fuel
      else if isBreak c then
        if lineBegun then
          quotedGap indent true r.skipBreak { d with empties := d.empties + 1 } fuel
        else quotedGap indent true r.skipBreak { d with blanks := [], broken := true } fuel
      else some (r, d, lineBegun)

/-- Take up what stands between two runs.  After an escaped break the empty lines count as
they are. -/
def joinQuoted (lineBegun : Bool) (d : Draft) : Draft :=
  if lineBegun && !d.broken then { text := List.replicate d.empties '\n' ++ d.text }
  else d.join

/-- Runs and gaps up to the closing quote. -/
def quotedRuns (single : Bool) (indent : Int) (r : Reading) (d : Draft) :
    Nat → Option (Reading × Draft)
  | 0 => none
  | fuel + 1 =>
    if r.isAtDocumentMark || r.next.isNone || (r.column : Int) < indent then none
    else match quotedWord single r d (r.rest.length + 1) with
      | none => none
      | some (r, d, escaped) =>
        if r.isAt (if single then '\'' else '"') then some (r.skipMark 1, d)
        else match quotedGap indent escaped r d (r.rest.length + 1) with
          | none => none
          | some (r, d, lineBegun) =>
            quotedRuns single indent r (joinQuoted lineBegun d) fuel

/-- A scalar in single or double quotes.  Behind it the line has to end, or else a key or a
bracketed collection has to go on. -/
def quoted (single inFlow : Bool) (indent : Int) (r : Reading) : Option (Reading × String) := do
  let start := r.place.line
  let (r, d) ← quotedRuns single indent (r.skipMark 1) {} (r.rest.length + 1)
  let (r, _) ← r.toEndOfLine true
  let fits := match r.next with
    | none => true
    | some c =>
      isBreak c || (inFlow && (c == ',' || c == '\x7d' || c == ']' || c == ':')) ||
        (!inFlow && c == ':' && start == r.place.line)
  if fits then return (r, d.toText) else none

/-! ## Blocks -/

/-- What becomes of the line breaks at the end of a block. -/
inductive Chomping
  | strip | clip | keep
deriving DecidableEq, Repr

/-- The way of chomping that a sign stands for. -/
def chomping? : Option Char → Option Chomping
  | some '+' => some .keep
  | some '-' => some .strip
  | _ => none

/-- A digit that says how far a block is indented. -/
def indentDigit? : Option Char → Option Nat
  | some c => if '1' ≤ c ∧ c ≤ '9' then some (c.toNat - 48) else none
  | none => none

/-- The signs after the mark of a block: chomping and indentation in either order. -/
def header (r : Reading) : Option (Reading × Chomping × Nat) :=
  match chomping? r.next with
  | some chomping =>
    let r := r.skipMark 1
    match indentDigit? r.next with
    | some n => some (r.skipMark 1, chomping, n)
    | none => if r.isAt '0' then none else some (r, chomping, 0)
  | none =>
    match indentDigit? r.next with
    | some n =>
      let r := r.skipMark 1
      match chomping? r.next with
      | some chomping => some (r.skipMark 1, chomping, n)
      | none => some (r, .clip, n)
    | none => if r.isAt '0' then none else some (r, .clip, 0)

/-- Go past spaces, at most up to a column. -/
def skipSpaces (limit : Option Nat) (r : Reading) : Nat → Reading
  | 0 => r
  | fuel + 1 =>
    if r.isAt ' ' && limit.all (fun n => decide (r.column < n)) then
      skipSpaces limit (r.skip 1) fuel
    else r

/-- Go past empty lines and the indentation of the next one; counts the lines. -/
def skipEmpties (indent : Nat) (r : Reading) (count : Nat) : Nat → Reading × Nat
  | 0 => (r, count)
  | fuel + 1 =>
    let r := skipSpaces (some indent) r (r.rest.length + 1)
    if r.isAtBreak then skipEmpties indent r.skipBreak (count + 1) fuel else (r, count)

/-- Go past empty lines to the first line with content; gives the widest indentation as well. -/
def findIndent (widest : Nat) (r : Reading) (count : Nat) : Nat → Reading × Nat × Nat
  | 0 => (r, count, widest)
  | fuel + 1 =>
    let r := skipSpaces none r (r.rest.length + 1)
    let widest := max widest r.column
    if r.isAtBreak then findIndent widest r.skipBreak (count + 1) fuel else (r, count, widest)

/-- The lines of a block as far as they have been read. -/
structure Lines where
  text : List Char := []
  /-- Whether a line has ended since the last character. -/
  broken : Bool := false
  /-- How many empty lines followed. -/
  empties : Nat := 0
  /-- Whether the last line began with a blank. -/
  blankStart : Bool := false

/-- Take up a line of a block. -/
def takeLine (literal : Bool) (r : Reading) (ls : Lines) : Reading × Lines :=
  let blank := r.isAtBlank
  let between :=
    if !literal && ls.broken && !ls.blankStart && !blank then
      if ls.empties = 0 then [' '] else List.replicate ls.empties '\n'
    else List.replicate (ls.empties + (if ls.broken then 1 else 0)) '\n'
  let line := r.rest.takeWhile fun c => !isBreak c
  (r.skipMark line.length,
    { text := line.reverse ++ (between ++ ls.text), blankStart := blank })

/-- The lines of a block that are indented so far. -/
def blockLines (literal : Bool) (indent : Nat) (r : Reading) (ls : Lines) : Nat → Reading × Lines
  | 0 => (r, ls)
  | fuel + 1 =>
    if r.column != indent || r.next.isNone || (indent == 0 && r.isAtDocumentMark) then (r, ls)
    else
      let (r, ls) := takeLine literal r ls
      if r.next.isNone then (r, ls)
      else
        let r := r.skipBreak
        let (r, empties) := skipEmpties indent r 0 (r.rest.length + 1)
        blockLines literal indent r { ls with broken := true, empties } fuel

/-- The end of a block. -/
def chomp (chomping : Chomping) (indent : Nat) (r : Reading) (ls : Lines) : String :=
  let tail := match chomping with
    | .strip => 0
    | c =>
      (if ls.broken then 1 else 0) +
        (if r.next.isNone && max indent 1 ≤ r.column then 1 else 0) +
        (if c = .keep then ls.empties else 0)
  String.ofList (ls.text.reverse ++ List.replicate tail '\n')

/-- A block without any line. -/
def emptyBlock (chomping : Chomping) (sameLine : Bool) (broken : Bool) (empties : Nat) : String :=
  let breaks := match chomping with
    | .strip => 0
    | .clip => if sameLine || !broken then 0 else 1
    | .keep => if sameLine then 0 else if empties = 0 then (if broken then 1 else 0) else empties
  String.ofList (List.replicate breaks '\n')

/-- A block of lines, indented further than its surroundings. -/
def block (literal : Bool) (around : Int) (r : Reading) : Option (Reading × String) := do
  let start := r.place.line
  let (r, chomping, increment) ← header (r.skipMark 1)
  let (r, _) ← r.toEndOfLine true
  guard (endsLine r.next)
  let broken := r.isAtBreak
  let r := if broken then r.skipBreak else r
  guard !(r.isAt '\t')
  let fuel := r.rest.length + 1
  let (r, empties, indent) :=
    if increment = 0 then
      let (r, empties, widest) := findIndent 0 r 0 fuel
      (r, empties, max widest (around + 1).toNat)
    else
      let indent := (max around 0).toNat + increment
      let (r, empties) := skipEmpties indent r 0 fuel
      (r, empties, indent)
  if r.next.isNone then
    return (r, emptyBlock chomping (r.place.line == start) broken empties)
  guard !(r.column < indent && around < (r.column : Int))
  let (r, ls) := blockLines literal indent r { empties } fuel
  return (r, chomp chomping indent r ls)

end Courier.Yaml.Scalar
