import Courier.Yaml.Scalar
import Courier.Yaml.Tag

/-!
# Tokens

A YAML text as a list of tokens.  What is implied by indentation becomes a token of its own: the
start and the end of a block collection, and the mark of a key, which is known only when the colon
behind it is found.

`scan` reads a whole text, or gives nothing if the text is not well-formed at this level.
-/

namespace Courier.Yaml

/-- A part of a text. -/
inductive Token
  | documentStart
  | documentEnd
  /-- The directive that names the version of the language. -/
  | versionDirective
  /-- A directive that gives a meaning to a tag handle; a directive of any other kind counts as one
  for the empty handle. -/
  | tagDirective (handle space : String)
  | blockSequenceStart
  | blockMappingStart
  | blockEnd
  | flowSequenceStart
  | flowSequenceEnd
  | flowMappingStart
  | flowMappingEnd
  | blockEntry
  | flowEntry
  | key
  | value
  | alias (name : String)
  | anchor (name : String)
  | tag (handle suffix : String)
  | scalar (plain : Bool) (text : String)
deriving DecidableEq, Repr, Inhabited

namespace Layout

/-- Where a key may turn out to begin. -/
structure Candidate where
  possible : Bool := false
  /-- Whether there has to be a key. -/
  required : Bool := false
  /-- The number of the token that would follow the mark of the key. -/
  number : Nat := 0
  place : Place := {}
deriving Inhabited

/-- An indentation to come back to. -/
structure Indent where
  column : Int
  /-- Whether a block collection ends with it. -/
  closes : Bool
deriving Inhabited

end Layout

/-- What is known about the layout of a text that is being read. -/
structure Layout where
  reading : Reading
  tokens : List Token := []
  /-- Whether a key may begin here. -/
  keyAllowed : Bool := true
  /-- The candidates for keys, one for each open bracket and one for the blocks, innermost first. -/
  candidates : List Layout.Candidate := [{}]
  /-- How many brackets are open. -/
  depth : Nat := 0
  /-- Whether a mapping has begun within brackets, so that a colon there belongs to it. -/
  mappingBegun : Bool := false
  /-- Whether the last colon began a mapping that has no brackets of its own. -/
  bare : Bool := false
  indent : Int := -1
  indents : List Layout.Indent := []
  /-- Where a colon may follow without a blank behind it. -/
  adjacentAt : Option Nat := none

namespace Layout

/-- Whether a bracket is open. -/
def inFlow (l : Layout) : Bool := l.depth != 0

/-- The column of the next character. -/
def column (l : Layout) : Int := l.reading.column

/-- Add a token. -/
def push (l : Layout) (t : Token) : Layout := { l with tokens := l.tokens ++ [t] }

/-- Put a token in front of another one. -/
def insert (l : Layout) (number : Nat) (t : Token) : Layout :=
  { l with tokens := l.tokens.take number ++ t :: l.tokens.drop number }

/-- Go on reading from here. -/
def at_ (l : Layout) (r : Reading) : Layout := { l with reading := r }

/-- Go past so many characters that are not blank. -/
def skipMark (l : Layout) (n : Nat) : Layout := l.at_ (l.reading.skipMark n)

/-- Go past blanks and a comment. -/
def toEndOfLine (l : Layout) (tabs : Bool) : Option (Layout × Reading.Passed) :=
  (l.reading.toEndOfLine tabs).map fun (r, passed) => (l.at_ r, passed)

/-! ## Indentation -/

/-- Come back from all indentations beyond a column. -/
def unroll (column : Int) (l : Layout) : Nat → Layout
  | 0 => l
  | fuel + 1 =>
    if l.indent ≤ column then l
    else match l.indents with
      | [] => l
      | i :: rest =>
        let l := { l with indent := i.column, indents := rest }
        unroll column (if i.closes then l.push .blockEnd else l) fuel

/-- Come back from all indentations beyond a column, outside of brackets. -/
def unrollTo (l : Layout) (column : Int) : Layout :=
  if l.inFlow then l else unroll column l (l.indents.length + 1)

/-- Forget the indentations with which no collection ends. -/
def dropLoose (l : Layout) : Nat → Layout
  | 0 => l
  | fuel + 1 =>
    match l.indents with
    | i :: rest =>
      if i.closes then l else dropLoose { l with indent := i.column, indents := rest } fuel
    | [] => l

/-- Forget the indentations with which no collection ends. -/
def unrollLoose (l : Layout) : Layout := dropLoose l (l.indents.length + 1)

/-- Begin a block collection at a column, unless one has begun there. -/
def roll (l : Layout) (column : Int) (number : Nat) (t : Token) : Layout :=
  if l.inFlow then l
  else
    let l := match l.indents with
      | i :: rest =>
        if l.indent ≤ column && !i.closes then { l with indent := i.column, indents := rest } else l
      | [] => l
    if l.indent < column then
      { l with indents := ⟨l.indent, true⟩ :: l.indents, indent := column }.insert number t
    else l

/-- What follows has to be indented by one more column. -/
def rollOne (l : Layout) : Layout :=
  if !l.inFlow && l.indents.head?.any (·.closes) then
    { l with indents := ⟨l.indent, false⟩ :: l.indents, indent := l.indent + 1 }
  else l

/-! ## Candidates for keys -/

/-- Set the innermost candidate. -/
def setCandidate (l : Layout) (c : Candidate) : Layout :=
  { l with candidates := c :: l.candidates.drop 1 }

/-- A key may begin here. -/
def saveCandidate (l : Layout) : Layout :=
  if l.keyAllowed then
    let required := !l.inFlow && l.indent == l.column && l.indents.head?.any (·.closes)
    l.setCandidate ⟨true, required, l.tokens.length, l.reading.place⟩
  else l

/-- The innermost candidate is none; this is wrong if it is required. -/
def removeCandidate (l : Layout) : Option Layout :=
  match l.candidates with
  | [] => some l
  | c :: rest =>
    if c.possible && c.required then none
    else some { l with candidates := { c with possible := false } :: rest }

/-- How far a key of a block may reach. -/
def keyReach : Nat := 1024

/-- Candidates that are left behind by now are none; this is wrong for one that is required. -/
def dropStale (l : Layout) : Option Layout :=
  if l.inFlow then some l
  else
    let here := l.reading.place
    let stale (c : Candidate) : Bool :=
      c.possible && (c.place.line < here.line || c.place.index + keyReach < here.index)
    if l.candidates.any fun c => stale c && c.required then none
    else some { l with
      candidates := l.candidates.map fun c => if stale c then { c with possible := false } else c }

/-! ## Between tokens -/

/-- Go past blanks, comments and line breaks.  A tab does not indent a block. -/
def skipBetween (l : Layout) : Nat → Option Layout
  | 0 => some l
  | fuel + 1 =>
    match l.reading.next with
    | some c =>
      if c == '\t' && !l.indents.isEmpty && l.reading.leading && l.column < l.indent then do
        let (l, _) ← l.toEndOfLine true
        if endsLine l.reading.next then skipBetween l fuel else none
      else if isBlank c then skipBetween (l.at_ (l.reading.skip 1)) fuel
      else if isBreak c then
        let l := l.at_ l.reading.skipBreak
        skipBetween { l with keyAllowed := l.keyAllowed || !l.inFlow } fuel
      else if c == '#' then skipBetween (l.at_ l.reading.skipLine) fuel
      else some l
    | none => some l

/-! ## Single tokens -/

/-- The mark of a document. -/
def documentMark (l : Layout) (t : Token) : Option Layout := do
  let l ← (l.unrollTo (-1)).removeCandidate
  return { (l.skipMark 3).push t with keyAllowed := false }

/-- The digits of a number in a version, at least one and at most nine, and what follows them. -/
def takeNumber? (cs : List Char) : Option (List Char) :=
  let digits := cs.takeWhile Char.isDigit
  if digits.isEmpty || 9 < digits.length then none else some (cs.drop digits.length)

/-- What follows the version of the language. -/
def takeVersion? (cs : List Char) : Option (List Char) := do
  match ← takeNumber? cs with
  | '.' :: rest => takeNumber? rest
  | _ => none

/-- A directive, from its name up to what follows its content. -/
def directiveContent? (cs : List Char) : Option (Token × List Char) := do
  let name := cs.takeWhile Tag.isWordChar
  guard (!name.isEmpty && endsWord (cs.drop name.length).head?)
  let rest := (cs.drop name.length).dropWhile isBlank
  match String.ofList name with
  | "YAML" => return (.versionDirective, ← takeVersion? rest)
  | "TAG" =>
    let (handle, rest) ← Tag.takeDeclaredHandle? rest
    let (space, rest) ← Tag.takeSpace? (rest.dropWhile isBlank)
    guard (endsWord rest.head?)
    return (.tagDirective handle space, rest)
  | _ => return (.tagDirective "" "", rest.dropWhile fun c => !isBreak c)

/-- A directive, with the end of its line. -/
def directive (l : Layout) : Option Layout := do
  let l ← (l.unrollTo (-1)).removeCandidate
  let (t, rest) ← directiveContent? (l.reading.rest.drop 1)
  let (l, _) ← (l.skipMark (l.reading.rest.length - rest.length)).toEndOfLine true
  guard (endsLine l.reading.next)
  let r := if l.reading.isAtBreak then l.reading.skipBreak else l.reading
  return { (l.at_ r).push t with keyAllowed := false }

/-- The deepest that brackets may be nested. -/
def maxBrackets : Nat := 255

/-- An opening bracket. -/
def openBracket (l : Layout) (mapping : Bool) : Option Layout := do
  let l := l.saveCandidate.rollOne
  guard (l.depth < maxBrackets)
  let l := { l with
    candidates := {} :: l.candidates
    depth := l.depth + 1
    keyAllowed := true
    mappingBegun := l.mappingBegun || mapping }
  let (l, _) ← (l.skipMark 1).toEndOfLine true
  return l.push (if mapping then .flowMappingStart else .flowSequenceStart)

/-- A mapping without brackets of its own ends. -/
def endBare (l : Layout) : Layout :=
  if l.bare then { l with bare := false, mappingBegun := false }.push .flowMappingEnd else l

/-- A closing bracket. -/
def closeBracket (l : Layout) (mapping : Bool) : Option Layout := do
  let l ← l.removeCandidate
  let l := if l.inFlow then { l with candidates := l.candidates.drop 1 } else l
  let l := { l with depth := l.depth - 1, keyAllowed := false }.endBare
  let (l, _) ← (l.skipMark 1).toEndOfLine true
  let l := if l.inFlow then { l with adjacentAt := some l.reading.place.index } else l
  return l.push (if mapping then .flowMappingEnd else .flowSequenceEnd)

/-- A comma. -/
def comma (l : Layout) : Option Layout := do
  let l ← l.removeCandidate
  let (l, _) ← ({ l with keyAllowed := true }.endBare.skipMark 1).toEndOfLine true
  return l.push .flowEntry

/-- A dash in front of an entry. -/
def dash (l : Layout) : Option Layout := do
  guard (!l.inFlow && l.keyAllowed)
  let column := l.column
  let l := (l.skipMark 1).roll column l.tokens.length .blockSequenceStart
  let (l, passed) ← l.toEndOfLine true
  guard !(passed.tabs && l.reading.isAt '-' && endsWord (l.reading.peek 1))
  let l := if l.reading.isAtBreak || l.reading.next.any isFlowMark then l.rollOne else l
  let l ← l.removeCandidate
  return { l.push .blockEntry with keyAllowed := true }

/-- Go past spaces, comments and line breaks behind a question mark; says whether there was a space
or a break. -/
def skipToKey (l : Layout) (found : Bool) : Nat → Layout × Bool
  | 0 => (l, found)
  | fuel + 1 =>
    match l.reading.next with
    | some c =>
      if c == ' ' then skipToKey (l.at_ (l.reading.skip 1)) true fuel
      else if isBreak c then
        let l := l.at_ l.reading.skipBreak
        skipToKey { l with keyAllowed := l.keyAllowed || !l.inFlow } true fuel
      else if c == '#' then skipToKey (l.at_ l.reading.skipLine) found fuel
      else (l, found)
    | none => (l, found)

/-- A question mark in front of a key. -/
def question (l : Layout) : Option Layout := do
  guard (l.inFlow || l.keyAllowed)
  let l := if l.inFlow then { l with mappingBegun := true }
    else l.roll l.column l.tokens.length .blockMappingStart
  let l ← l.removeCandidate
  let l := { l with keyAllowed := !l.inFlow }.skipMark 1
  let (l, found) := l.skipToKey false (l.reading.rest.length + 1)
  guard (found && !l.reading.isAt '\t')
  return l.push .key

/-- Behind a colon a tab is no blank for what could be taken for a key. -/
def tabAfterColon (l : Layout) : Option Layout :=
  if l.reading.isAt '\t' then do
    let (l, passed) ← l.toEndOfLine true
    guard !(!passed.spaces &&
      (l.reading.isAt '-' || l.reading.next.any fun c => c.isAlphanum || c == '_'))
    return l
  else some l

/-- The key of a colon is the innermost candidate. -/
def colonAfterCandidate (l : Layout) (c : Candidate) (line : Nat) : Option Layout := do
  guard !(l.bare && c.place.line < line)
  let l := l.insert c.number .key
  let l := if l.bare then l.insert c.number .flowMappingStart else l
  let l := (l.roll c.place.column c.number .blockMappingStart).rollOne
  let l := l.setCandidate { c with possible := false }
  return { l.push .value with keyAllowed := false }

/-- The key of a colon is given otherwise, or there is none. -/
def colonAlone (l : Layout) (column : Int) : Option Layout := do
  let l := if l.bare then l.push .flowMappingStart else l
  guard (l.inFlow || l.keyAllowed)
  let l := if l.inFlow then l else l.roll column l.tokens.length .blockMappingStart
  return { l.rollOne.push .value with keyAllowed := !l.inFlow }

/-- A colon behind a key. -/
def colon (l : Layout) : Option Layout := do
  let column := l.column
  let line := l.reading.place.line
  let l := { l with bare := l.inFlow && !l.mappingBegun }
  let l ← (l.skipMark 1).tabAfterColon
  match l.candidates with
  | c :: _ => if c.possible then l.colonAfterCandidate c line else l.colonAlone column
  | [] => l.colonAlone column

/-- A character of the name of an anchor. -/
def isNameChar (c : Char) : Bool :=
  !(isBlank c || isBreak c || isFlowMark c || c == '\uFEFF')

/-- An anchor or an alias. -/
def named (l : Layout) (t : String → Token) : Option Layout := do
  let l := { l.saveCandidate with keyAllowed := false }.skipMark 1
  let name := l.reading.rest.takeWhile isNameChar
  guard !name.isEmpty
  return (l.skipMark name.length).push (t (String.ofList name))

/-- A tag. -/
def tag (l : Layout) : Option Layout := do
  let l := { l.saveCandidate with keyAllowed := false }
  let (handle, suffix, rest) ← Tag.take? (l.reading.rest.drop 1)
  let l := l.skipMark (l.reading.rest.length - rest.length)
  guard (endsWord l.reading.next || (l.inFlow && l.reading.next.any isFlowMark))
  return l.push (.tag handle suffix)

/-- A block of lines. -/
def block (l : Layout) (literal : Bool) : Option Layout := do
  let l := { l.saveCandidate with keyAllowed := true }.unrollLoose
  let (r, text) ← Scalar.block literal l.indent l.reading
  return (l.at_ r).push (.scalar false text)

/-- A scalar in quotes. -/
def quoted (l : Layout) (single : Bool) : Option Layout := do
  let l := { l.saveCandidate with keyAllowed := false }
  let (r, text) ← Scalar.quoted single l.inFlow l.indent l.reading
  let l ← (l.at_ r).skipBetween (r.rest.length + 1)
  return { l with adjacentAt := some l.reading.place.index }.push (.scalar false text)

/-- A plain scalar. -/
def plain (l : Layout) : Option Layout := do
  let l := { l.saveCandidate with keyAllowed := false }.unrollLoose
  let (r, text) ← Scalar.plain l.inFlow (l.indent + 1) l.reading
  let l := l.at_ r
  return { l with keyAllowed := l.keyAllowed || r.leading }.push (.scalar true text)

/-! ## All tokens -/

/-- The end of the text. -/
def finish (l : Layout) : Option Layout := do
  guard (!l.inFlow && !l.candidates.any fun c => c.possible && c.required)
  return l.unrollTo (-1)

/-- The token that begins with a character. -/
def tokenAt (l : Layout) (c : Char) : Option Layout :=
  let wordEnds := endsWord (l.reading.peek 1)
  match c with
  | '[' => l.openBracket false
  | '\x7b' => l.openBracket true
  | ']' => l.closeBracket false
  | '\x7d' => l.closeBracket true
  | ',' => l.comma
  | '-' => if wordEnds then l.dash else l.plain
  | '?' => if wordEnds then l.question else l.plain
  | ':' =>
    if wordEnds || (l.inFlow && ((l.reading.peek 1).any isFlowMark ||
        l.adjacentAt == some l.reading.place.index)) then l.colon
    else l.plain
  | '*' => l.named .alias
  | '&' => l.named .anchor
  | '!' => l.tag
  | '|' => if l.inFlow then l.plain else l.block true
  | '>' => if l.inFlow then l.plain else l.block false
  | '\'' => l.quoted true
  | '"' => l.quoted false
  | '%' | '@' | '\x60' => none
  | _ => l.plain

/-- Read the next token; says whether the text is at its end. -/
def nextToken (l : Layout) : Option (Layout × Bool) := do
  let l ← l.skipBetween (l.reading.rest.length + 1)
  let l ← l.dropStale
  let l := l.unrollTo l.column
  match l.reading.next with
  | none => return (← l.finish, true)
  | some c =>
    if l.reading.column == 0 && c == '%' then return (← l.directive, false)
    else if l.reading.column == 0 && l.reading.isAtTriple '-' then
      return (← l.documentMark .documentStart, false)
    else if l.reading.column == 0 && l.reading.isAtTriple '.' then
      let l ← l.documentMark .documentEnd
      let (l, _) ← l.toEndOfLine true
      guard (endsLine l.reading.next)
      return (l, false)
    else
      guard (l.indent ≤ l.column)
      return (← l.tokenAt c, false)

/-- Read tokens up to the end of the text. -/
def allTokens (l : Layout) : Nat → Option (List Token)
  | 0 => none
  | fuel + 1 =>
    match l.nextToken with
    | none => none
    | some (l, true) => some l.tokens
    | some (l, false) => allTokens l fuel

end Layout

/-- The tokens of a text.  A null character ends the text. -/
def Token.scan (text : List Char) : Option (List Token) :=
  let text := text.takeWhile fun c => c != '\x00'
  Layout.allTokens { reading := { rest := text } } (text.length + 1)

end Courier.Yaml
