import Courier.Dictionary

/-!
# Named things

Things in the order in which they came to be, some of them under a name.  A thing keeps its number
for ever, also when its name is forgotten or goes to another thing.
-/

namespace Courier.Simulation

/-- Things by number, and numbers by name. -/
structure Named (α : Type) where
  items : List α := []
  names : Dictionary Nat := []
deriving Inhabited

namespace Named

variable {α : Type}

/-- The number of the thing with this name. -/
def number? (n : Named α) (name : String) : Option Nat := n.names.find? name

/-- Add a thing; gives its number. -/
def add (n : Named α) (x : α) : Named α × Nat :=
  ({ n with items := n.items ++ [x] }, n.items.length)

/-- Give a name to a thing. -/
def name (n : Named α) (name : String) (i : Nat) : Named α :=
  { n with names := n.names.insert name i }

/-- Take a name away. -/
def forget (n : Named α) (name : String) : Named α := { n with names := n.names.erase name }

/-- The thing with this number. -/
def get? (n : Named α) (i : Nat) : Option α := n.items[i]?

/-- Replace the thing with this number. -/
def set (n : Named α) (i : Nat) (x : α) : Named α := { n with items := n.items.set i x }

/-- Change the thing with this number. -/
def modify (n : Named α) (i : Nat) (f : α → α) : Named α := { n with items := n.items.modify i f }

theorem get?_add (n : Named α) (x : α) : (n.add x).1.get? (n.add x).2 = some x := by
  simp [add, get?]

end Named
end Courier.Simulation
