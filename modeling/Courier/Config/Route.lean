import Courier.Config.Tree

/-!
# Routes

A route leads to a part of a configuration: the key of the root, and then further keys and places in
lists, as in `outbox.message_cleanup` or `paths[2]`.  `Tree.set` lays a tree over that part.  What
is on the way there is made: a table where there is a key to follow, and a list, long enough, where
there is a place.
-/

namespace Courier.Config

/-- A step from a part of a configuration to a part of this part. -/
inductive Step
  | key (name : String)
  /-- A place in a list; a negative one counts from the end. -/
  | place (index : Int)
deriving DecidableEq, Repr, Inhabited

/-- The way to a part of a configuration. -/
structure Route where
  root : String
  steps : List Step := []
deriving DecidableEq, Repr, Inhabited

namespace Route

/-- A character of a key in a route. -/
def isKeyChar (c : Char) : Bool :=
  ('a' ≤ c && c ≤ 'z') || ('A' ≤ c && c ≤ 'Z') || Decimal.isDigit c || c == '_' || c == '-'

/-- A key, and what follows it. -/
def takeKey? (cs : List Char) : Option (String × List Char) :=
  let key := cs.takeWhile isKeyChar
  if key.isEmpty then none else some (String.ofList key, cs.drop key.length)

/-- A space or a tab. -/
def isSpace (c : Char) : Bool := c == ' ' || c == '\t'

/-- The number of a place, up to the closing bracket, and what follows it.  There may be spaces
around the number. -/
def takePlace? (cs : List Char) : Option (Int × List Char) :=
  let cs := cs.dropWhile isSpace
  let body := cs.takeWhile fun c => c == '-' || Decimal.isDigit c
  match (cs.drop body.length).dropWhile isSpace with
  | ']' :: rest => (Decimal.whole? body).map fun n => (n, rest)
  | _ => none

/-- The steps behind the root. -/
def steps? (cs : List Char) : Nat → Option (List Step)
  | 0 => none
  | fuel + 1 =>
    match cs with
    | [] => some []
    | '.' :: rest => do
      let (key, rest) ← takeKey? rest
      return .key key :: (← steps? rest fuel)
    | '[' :: rest => do
      let (index, rest) ← takePlace? rest
      return .place index :: (← steps? rest fuel)
    | _ => none

/-- The route that a text describes. -/
def ofText? (text : String) : Option Route := do
  let (root, rest) ← takeKey? text.toList
  return ⟨root, ← steps? rest (rest.length + 1)⟩

/-- The route that a text describes; any other text is the key of the root as it is. -/
def ofText (text : String) : Route := (ofText? text).getD ⟨text, []⟩

end Route

namespace Tree

/-- Change the entry of a key. -/
def updateKey (key : String) (f : Tree → Tree) (t : Tree) : Tree :=
  table (t.entries.insert key (f ((t.entries.find? key).getD nothing)))

/-- Change the item at a place; the list is filled up so far that it has the place. -/
def updatePlace (index : Int) (f : Tree → Tree) (t : Tree) : Tree :=
  let xs := t.items
  let (xs, i) :=
    if 0 ≤ index then (xs ++ List.replicate (index.toNat + 1 - xs.length) nothing, index.toNat)
    else if index.natAbs ≤ xs.length then (xs, xs.length - index.natAbs)
    else (List.replicate (index.natAbs - xs.length) nothing ++ xs, 0)
  list (xs.modify i f)

/-- Change what some steps lead to. -/
def updateAt : List Step → (Tree → Tree) → Tree → Tree
  | [], f => f
  | .key k :: rest, f => updateKey k (updateAt rest f)
  | .place i :: rest, f => updatePlace i (updateAt rest f)

/-- Lay a tree over what a route leads to. -/
def set (route : Route) (value : Tree) (t : Tree) : Tree :=
  updateAt (.key route.root :: route.steps) (laidOver value) t

/-- Lay the entries of a source over a configuration; their keys are routes. -/
def setAll (entries : Dictionary Tree) (t : Tree) : Tree :=
  entries.foldl (fun t e => set (Route.ofText e.1) e.2 t) t

end Tree
end Courier.Config
