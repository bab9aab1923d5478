import Courier.Decimal.Double
import Courier.Dictionary

/-!
# JSON values

A number keeps the kind it was written in: whole numbers of at most 64 bits stay whole and every
other number is a double.  The members of an object are listed in the order in which they are
written; objects that come out of a reader are dictionaries, in the order of their keys.
-/

namespace Courier

/-- A number of a document. -/
inductive JsonNumber
  /-- A whole number from `-2 ^ 63` up to `2 ^ 64 - 1`. -/
  | whole (n : Int)
  /-- Any other number. -/
  | double (x : Double)
deriving DecidableEq, Repr, Inhabited

/-- A JSON value. -/
inductive Json
  | null
  | bool (b : Bool)
  | number (n : JsonNumber)
  | text (s : String)
  | list (items : List Json)
  | object (members : List (String × Json))
deriving Repr, Inhabited, BEq

namespace Json

/-- A whole number as a value. -/
def whole (n : Int) : Json := .number (.whole n)

/-- A natural number as a value. -/
def nat (n : Nat) : Json := whole (Int.ofNat n)

/-- A text or nothing. -/
def optionalText : Option String → Json
  | none => .null
  | some s => .text s

/-- A dictionary of texts as an object. -/
def ofTexts (d : Dictionary String) : Json := .object (d.map fun e => (e.1, .text e.2))

/-- The member of an object with this name. -/
def member? (name : String) : Json → Option Json
  | .object members => Dictionary.find? name members
  | _ => none

end Json
end Courier
