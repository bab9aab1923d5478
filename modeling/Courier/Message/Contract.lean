import Courier.Json.Basic
import Courier.Message.Basic

/-!
# Message contracts

Typed operations work with messages of a known shape.  A contract names the message type and the
shape; reading a value by its shape gives the value in the form in which the type writes itself.

Any type that reads and writes itself may be a message type.  The shapes below are the ones that are
told apart here; what is said of requests depends on no shape in particular.
-/

namespace Courier

/-- The shape of the messages of one type. -/
inductive Shape
  /-- Any value. -/
  | any
  /-- A text. -/
  | text
  /-- A natural number below a bound. -/
  | natural (bound : Nat)
  /-- Named fields, all of them required. -/
  | record (fields : List (String × Shape))
  | list (item : Shape)
  | optional (item : Shape)
  /-- A type whose messages can never be written. -/
  | unwritable
deriving Repr, Inhabited

namespace Shape

mutual

/-- The value as a message of this shape writes itself, if it is one. -/
def read : Shape → Json → Option Json
  | any, v => some v
  | text, .text s => some (.text s)
  | natural bound, .number (.whole n) => if 0 ≤ n ∧ n < bound then some (.whole n) else none
  | record fields, .object members => do
    let values ← readNamed fields members
    some (.object (Dictionary.ofList values))
  | record fields, .list items => do
    let values ← readListed fields items
    some (.object (Dictionary.ofList values))
  | list item, .list items => do
    let values ← items.mapM (read item)
    some (.list values)
  | optional _, .null => some .null
  | optional item, v => read item v
  | _, _ => none

/-- The fields of a record among the members of an object; others are passed over. -/
def readNamed : List (String × Shape) → List (String × Json) → Option (List (String × Json))
  | [], _ => some []
  | (name, shape) :: rest, members => do
    let v ← Dictionary.find? name members
    let w ← read shape v
    let values ← readNamed rest members
    some ((name, w) :: values)

/-- The fields of a record from the items of a list, exactly one each. -/
def readListed : List (String × Shape) → List Json → Option (List (String × Json))
  | [], [] => some []
  | (name, shape) :: rest, v :: items => do
    let w ← read shape v
    let values ← readListed rest items
    some ((name, w) :: values)
  | _, _ => none

end

end Shape

/-- A message type together with the shape of its messages. -/
structure Contract where
  type : MessageType
  shape : Shape
deriving Repr, Inhabited

namespace Contract

/-- A typed message as a value. -/
def write (c : Contract) (v : Json) : Except SerializationFailure Json :=
  match c.shape with
  | .unwritable => .error (.json .mismatched)
  | _ => .ok v

/-- A value as a typed message. -/
def read (c : Contract) (v : Json) : Except SerializationFailure Json :=
  match c.shape.read v with
  | some w => .ok w
  | none => .error (.json .mismatched)

/-- A value as its type writes it; one that is none of its messages stays as it is. -/
def canonical (c : Contract) (v : Json) : Json := (c.shape.read v).getD v

end Contract
end Courier
