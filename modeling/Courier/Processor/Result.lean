import Courier.Failure

/-!
# Results of processing

What a processor reports about a message: a failure, or nothing so far, and the consumer whose
settings were in effect.
-/

namespace Courier

/-- The result of handing one message to a processor. -/
structure ProcessResult where
  error : Option Failure := none
  /-- The consumer whose settings were in effect. -/
  consumer : Option String := none
deriving DecidableEq, Repr, Inhabited

namespace ProcessResult

/-- No failure has been seen; processing may go on in the background. -/
def pending : ProcessResult := {}

/-- Processing failed. -/
def failed (cause : Failure) : ProcessResult := { error := some cause }

/-- The result of an operation that succeeds or fails. -/
def ofExcept : Except Failure Unit → ProcessResult
  | .ok () => pending
  | .error cause => failed cause

/-- The result with a consumer. -/
def withConsumer (r : ProcessResult) (consumer : String) : ProcessResult :=
  { r with consumer := some consumer }

/-- Whether no failure has been seen. -/
def isOk (r : ProcessResult) : Bool := r.error.isNone

/-- The result without its consumer. -/
def toExcept (r : ProcessResult) : Except Failure Unit :=
  match r.error with
  | none => .ok ()
  | some cause => .error cause

/-- A result says nothing more than the operation it stands for. -/
@[simp] theorem toExcept_ofExcept (r : Except Failure Unit) : (ofExcept r).toExcept = r := by
  cases r <;> rfl

end ProcessResult
end Courier
