import Courier.Json.Reader

/-!
# Reading values of a known shape

A record is written as an object with named members or as a list with one item per field.  Unknown
members are passed over, and a member that comes twice is refused.  A value of the wrong kind is a
mismatch, but a fault inside a text or a number is reported as that fault.
-/

namespace Courier.Json

/-- The fault of a value that is not of the wanted kind: texts, numbers and words are read first,
so their own faults come before the mismatch. -/
def mismatch {α : Type} (s : Bytes) : Outcome α :=
  match s with
  | [] => .error .truncated
  | b :: rest =>
    if b = byte '[' ∨ b = byte '{' then .error .mismatched
    else match scalar b rest with
      | .error f => .error f
      | .ok _ => .error .mismatched

/-- A natural number below a bound. -/
def natural (bound : Nat) : Reader Nat := fun s =>
  match skipBlanks s with
  | [] => .error .truncated
  | b :: rest =>
    let number :=
      if b = byte '-' then some (unsignedNumber true rest)
      else if isDigit b then some (unsignedNumber false (b :: rest))
      else none
    match number with
    | none => mismatch (b :: rest)
    | some (.error f) => .error f
    | some (.ok (.whole n, rest)) =>
      if 0 ≤ n ∧ n < bound then .ok (n.toNat, rest) else .error .mismatched
    | some (.ok (.double _, _)) => .error .mismatched

/-- A truth value. -/
def truth : Reader Bool := fun s =>
  match skipBlanks s with
  | [] => .error .truncated
  | b :: rest =>
    if b = byte 't' then (word [114, 117, 101] rest).map fun s => (true, s)
    else if b = byte 'f' then (word [97, 108, 115, 101] rest).map fun s => (false, s)
    else mismatch (b :: rest)

/-- A text. -/
def textValue : Reader String := fun s =>
  match skipBlanks s with
  | [] => .error .truncated
  | b :: rest => if b = byte '"' then textAfterQuote rest else mismatch (b :: rest)

/-- A text that has to be the written form of something. -/
def textOf {α : Type} (read : String → Option α) : Reader α := fun s =>
  match textValue s with
  | .error f => .error f
  | .ok (t, rest) =>
    match read t with
    | some x => .ok (x, rest)
    | none => .error .mismatched

/-- A value or nothing. -/
def optional {α : Type} (read : Reader α) : Reader (Option α) := fun s =>
  match skipBlanks s with
  | [] => .error .truncated
  | b :: rest =>
    if b = byte 'n' then (word [117, 108, 108] rest).map fun s => (none, s)
    else match read (b :: rest) with
      | .error f => .error f
      | .ok (x, rest) => .ok (some x, rest)

/-- An object whose members are all texts. -/
def texts : Reader (Dictionary String) := fun s =>
  match skipBlanks s with
  | [] => .error .truncated
  | b :: rest =>
    if b = byte '{' then
      let member (k : String) (d : Dictionary String) : Reader (Dictionary String) := fun s =>
        match colon s with
        | .error f => .error f
        | .ok s =>
          match textValue s with
          | .error f => .error f
          | .ok (t, s) => .ok (d.insert k t, s)
      foldMembers member true [] rest (rest.length + 1)
    else mismatch (b :: rest)

/-- A list of byte values, or a text that stands for its bytes. -/
def byteList : Reader Bytes := fun s =>
  match skipBlanks s with
  | [] => .error .truncated
  | b :: rest =>
    if b = byte '"' then rawBody [] none rest
    else if b = byte '[' then
      match items (natural 256) true rest (rest.length + 1) with
      | .error f => .error f
      | .ok (ns, rest) => .ok (ns.map UInt8.ofNat, rest)
    else mismatch (b :: rest)

/-- A field of a record: how its value is read into the record built so far, and whether a list
that ends before it leaves it at its default. -/
structure Field (σ : Type) where
  name : String
  read : σ → Reader σ
  defaulted : Bool

/-- Read the members of a record written as an object. -/
def namedFields {σ : Type} (fields : List (Field σ)) (start : σ) (s : Bytes) : Outcome σ :=
  let member (k : String) (state : σ × List String) : Reader (σ × List String) := fun s =>
    match fields.find? (fun f => f.name == k) with
    | none =>
      match colon s with
      | .error f => .error f
      | .ok s =>
        match skip s (s.length + 1) with
        | .error f => .error f
        | .ok s => .ok (state, s)
    | some field =>
      if state.2.contains k then .error .mismatched
      else match colon s with
        | .error f => .error f
        | .ok s =>
          match field.read state.1 s with
          | .error f => .error f
          | .ok (x, s) => .ok ((x, k :: state.2), s)
  match foldMembers member true (start, []) s (s.length + 1) with
  | .error f => .error f
  | .ok (state, s) => .ok (state.1, s)

/-- Read the fields of a record written as a list, one item per field. -/
def listedFields {σ : Type} (first : Bool) (state : σ) (s : Bytes) :
    List (Field σ) → Outcome σ
  | [] =>
    match skipBlanks s with
    | [] => .error .truncated
    | b :: rest => if b = byte ']' then .ok (state, rest) else .error .malformed
  | field :: fields =>
    let continue_ (s : Bytes) : Outcome σ :=
      match field.read state s with
      | .error f => .error f
      | .ok (state, s) => listedFields false state s fields
    match skipBlanks s with
    | [] => .error .truncated
    | b :: rest =>
      if b = byte ']' then
        if (field :: fields).all (·.defaulted) then .ok (state, rest) else .error .mismatched
      else if first then continue_ (b :: rest)
      else if b = byte ',' then
        match skipBlanks rest with
        | [] => .error .truncated
        | c :: rest => if c = byte ']' then .error .malformed else continue_ (c :: rest)
      else .error .malformed

/-- A record: its fields, what it starts from, and what is made of the result.  A result that is
nothing means that a field is missing. -/
def record {σ α : Type} (fields : List (Field σ)) (start : σ) (result : σ → Option α) :
    Reader α := fun s =>
  let read : Outcome σ :=
    match skipBlanks s with
    | [] => .error .truncated
    | b :: rest =>
      if b = byte '{' then namedFields fields start rest
      else if b = byte '[' then listedFields true start rest fields
      else mismatch (b :: rest)
  match read with
  | .error f => .error f
  | .ok (state, rest) =>
    match result state with
    | some x => .ok (x, rest)
    | none => .error .mismatched

/-- A whole document of a known shape. -/
def parseAs {α : Type} (read : Reader α) (s : Bytes) : Except Fault α := finish (read s)

end Courier.Json
