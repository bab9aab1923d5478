import Courier.Decimal.Literal
import Courier.Decimal.Shortest
import Courier.Dictionary
import Courier.Yaml.Value

/-!
# Configuration trees

What all sources of a configuration have in common: tables, lists and single values.  A tree is laid
over another one by `laidOver`: tables are merged entry by entry, and anything else takes the place
of what was there.

A single value is read as what is asked for, whatever it was written as, so far as that makes sense:
`natural?`, `truth?` and `text?`.

Main statement: `find?_mergeEntries_of_notMem` (an entry whose key the upper table does not have
stays as it is).
-/

namespace Courier.Config

/-- A configuration, or a part of one. -/
inductive Tree
  | nothing
  | bool (b : Bool)
  | whole (n : Int)
  | number (x : Decimal.Setting)
  | text (s : String)
  | list (items : List Tree)
  | table (entries : List (String × Tree))
deriving Repr, Inhabited

namespace Tree

/-! ## Tables -/

/-- The entries of a table; anything else has none. -/
def entries : Tree → Dictionary Tree
  | table es => es
  | _ => []

/-- The items of a list; anything else has none. -/
def items : Tree → List Tree
  | list xs => xs
  | _ => []

mutual

/-- Lay a tree over another one. -/
def laidOver : Tree → Tree → Tree
  | table upper, lower => table (mergeEntries upper lower.entries)
  | nothing, _ => nothing
  | bool b, _ => bool b
  | whole n, _ => whole n
  | number x, _ => number x
  | text s, _ => text s
  | list xs, _ => list xs

/-- Lay each entry over the one with its key. -/
def mergeEntries : List (String × Tree) → Dictionary Tree → Dictionary Tree
  | [], lower => lower
  | (k, t) :: upper, lower =>
    mergeEntries upper (lower.insert k (laidOver t ((lower.find? k).getD nothing)))

end

/-- An entry whose key the upper table does not have stays as it is. -/
theorem find?_mergeEntries_of_notMem {key : String} (upper : List (String × Tree))
    (lower : Dictionary Tree) (h : key ∉ upper.map (·.1)) :
    (mergeEntries upper lower).find? key = lower.find? key := by
  induction upper generalizing lower with
  | nil => simp [mergeEntries]
  | cons e rest ih =>
    obtain ⟨k, t⟩ := e
    simp only [List.map_cons, List.mem_cons, not_or] at h
    rw [mergeEntries, ih _ h.2, Dictionary.find?_insert_of_ne _ _ h.1]

/-! ## Trees of documents -/

/-- The text of a key. -/
def keyText? : Yaml.Value → Option String
  | .text s => some s
  | .whole n => some (toString n)
  | .bool b => some (if b then "true" else "false")
  | .real s => some s
  | _ => none

mutual

/-- The tree of a YAML value; nothing, if a number or a key is of a kind that trees do not have. -/
def ofYaml? : Yaml.Value → Option Tree
  | .null | .missing => some nothing
  | .bool b => some (bool b)
  | .whole n => some (whole n)
  | .real s => (Decimal.setting? s.toList).map number
  | .text s => some (text s)
  | .list xs => (ofItems? xs).map list
  | .mapping es => (ofEntries? es []).map table

/-- The trees of the items of a list. -/
def ofItems? : List Yaml.Value → Option (List Tree)
  | [] => some []
  | v :: rest =>
    match ofYaml? v with
    | none => none
    | some t => (ofItems? rest).map (t :: ·)

/-- The entries of a mapping, added to others. -/
def ofEntries? : List (Yaml.Value × Yaml.Value) → Dictionary Tree → Option (Dictionary Tree)
  | [], entries => some entries
  | (k, v) :: rest, entries =>
    match keyText? k, ofYaml? v with
    | some key, some t => ofEntries? rest (entries.insert key t)
    | _, _ => none

end

/-! ## Single values -/

/-- A text in lower case.  The Kelvin sign is the only character beyond ASCII whose lower case is
within ASCII; the others do not matter here. -/
def lowered (s : String) : String :=
  String.ofList (s.toList.map fun c => if c == '\u212A' then 'k' else c.toLower)

/-- A word that says yes or no. -/
def word? (s : String) : Option Bool :=
  match lowered s with
  | "true" | "on" | "yes" => some true
  | "false" | "off" | "no" => some false
  | _ => none

/-- One past the greatest natural number of a setting. -/
def naturalBound : Nat := Nat.pow 2 64

/-- A number as a natural number: the nearest one, a half away from zero, within range. -/
def nearest : Decimal.Setting → Nat
  | .finite x => if x.negative then 0 else min x.roundedSize (naturalBound - 1)
  | .infinite negative => if negative then 0 else naturalBound - 1
  | .undefined => 0

/-- The value as a natural number. -/
def natural? : Tree → Option Nat
  | whole n => if 0 ≤ n then some n.toNat else none
  | number x => some (nearest x)
  | bool b => some b.toNat
  | text s =>
    match word? s with
    | some b => some b.toNat
    | none => (Decimal.natural? s.toList).filter fun n => decide (n < naturalBound)
  | _ => none

/-- The value as a yes or no; of numbers only zero says no. -/
def truth? : Tree → Option Bool
  | bool b => some b
  | whole n => some (n != 0)
  | number (.finite x) => some !x.isZero
  | number _ => some true
  | text s => if s == "1" then some true else if s == "0" then some false else word? s
  | _ => none

/-- The value as a text. -/
def text? : Tree → Option String
  | text s => some s
  | bool b => some (if b then "true" else "false")
  | whole n => some (toString n)
  | number (.finite x) => some (String.ofList (Decimal.plainText x))
  | number (.infinite negative) => some (if negative then "-inf" else "inf")
  | number .undefined => some "NaN"
  | _ => none

end Tree
end Courier.Config
