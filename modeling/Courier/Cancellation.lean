/-!
# Cancellation

A token is cancelled once and stays cancelled.  Whoever works under a token asks for it at the
points where stopping is possible.
-/

namespace Courier

/-- A cancellation token. -/
structure Token where
  number : Nat
deriving DecidableEq, Repr, Inhabited

/-- The tokens handed out so far and those of them that have been cancelled. -/
structure Tokens where
  issued : Nat := 0
  cancelled : List Token := []
deriving Repr, Inhabited

namespace Tokens

/-- A token that nobody has seen yet. -/
def fresh (t : Tokens) : Token × Tokens := (⟨t.issued⟩, { t with issued := t.issued + 1 })

/-- Whether a token has been cancelled. -/
def isCancelled (t : Tokens) (k : Token) : Bool := t.cancelled.contains k

/-- Cancel a token. -/
def cancel (t : Tokens) (k : Token) : Tokens := { t with cancelled := k :: t.cancelled }

@[simp] theorem isCancelled_cancel_self (t : Tokens) (k : Token) :
    (t.cancel k).isCancelled k = true := by
  simp [isCancelled, cancel]

/-- A cancelled token stays cancelled. -/
theorem isCancelled_cancel_of_isCancelled {t : Tokens} {k : Token} (j : Token)
    (h : t.isCancelled k = true) : (t.cancel j).isCancelled k = true := by
  simp_all [isCancelled, cancel]

end Tokens
end Courier
