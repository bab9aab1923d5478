import Courier.Dictionary
import Courier.Failure
import Courier.Message.Basic
import Courier.Text.Described

/-!
# Composite buses

A composite bus groups buses under their names, in the order of these.  Its children are started and
stopped one after the other, and a message goes out through the first child that declares its type.
The parameter stands for a way to refer to a bus.
-/

namespace Courier

/-- Buses by name. -/
structure Composite (β : Type) where
  children : Dictionary β := []
deriving Repr, Inhabited

namespace Composite

variable {β : Type}

/-- Add a bus, which needs a name that no other child has. -/
def add (c : Composite β) (name : Option String) (bus : β) : Except Failure (Composite β) :=
  match name with
  | none => .error (.configuration (.missing "bus name"))
  | some name =>
    if c.children.contains name then
      .error (.invalid ("child bus '" ++ name ++ "' was added more than once"))
    else .ok { children := c.children.insert name bus }

/-- The child of a name. -/
def child? (c : Composite β) (name : String) : Option β := c.children.find? name

/-- The children in order. -/
def buses (c : Composite β) : List β := c.children.map (·.2)

/-- The first child that declares a message type. -/
def producerOf? (c : Composite β) (declares : β → MessageType → Bool) (type : MessageType) :
    Option β :=
  c.buses.find? fun b => declares b type

/-- Do the same with every child until one fails. -/
def eachUntilFailure {f : Type → Type} [Monad f] (act : β → f (Except Failure Unit)) :
    List β → f (Except Failure Unit)
  | [] => pure (.ok ())
  | b :: rest => do
    match ← act b with
    | .ok () => eachUntilFailure act rest
    | .error cause => pure (.error cause)

/-- The composite in words, given those of its children. -/
def describe (c : Composite β) (child : β → String) : String :=
  let entries := c.children.map fun e => Text.described e.1 ++ ": " ++ child e.2
  Text.describedRecord "CompositeMessageBus"
    [("children", "\x7b" ++ ", ".intercalate entries ++ "\x7d")]

end Composite
end Courier
