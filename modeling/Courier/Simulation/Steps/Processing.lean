import Courier.Simulation.Steps.Time

/-!
# Steps: processors

Steps that hand scripted messages to a processor of bounded concurrency and look at what became of
them.
-/

namespace Courier.Simulation

/-- Make a processor of scripted messages. -/
def makeProcessor (name : String) (concurrency : Nat) (pollInterval : Option Span) :
    Sim (Except Failure Unit) := do
  match Bounded.create concurrency with
  | .error cause => return .error cause
  | .ok p =>
    let processor := { p with pollInterval := pollInterval.getD p.pollInterval }
    modify fun w =>
      let (processors, i) := w.processors.add { processor }
      { w with processors := processors.name name i }
    return .ok ()

/-- The number of a processor. -/
def processorNumber (name : String) : Sim Nat := return ((← get).processors.number? name).getD 0

/-- A processor as it is. -/
def processorOf (name : String) : Sim ProcessorObject := do
  return ((← get).processors.get? (← processorNumber name)).getD default

/-- Hand a message to a processor. -/
def submit (name call : String) (k : Token) (errand : Errand) (headers : Headers) : Sim Unit := do
  beginCall call (.submitting call (← processorNumber name) k errand headers false)

/-- Wait until the background of a processor is empty. -/
def awaitBackground (name call : String) : Sim Unit := do
  let since := (← get).timer
  beginCall call (.draining call (← processorNumber name) since)

/-- Take the message whose processing failed. -/
def takeFailure (name : String) : Sim (Option (FailedMessage Errand)) := do
  let (p, failed) := (← processorOf name).processor.takeFailure
  modifyProcessor (← processorNumber name) fun _ => p
  return failed

end Courier.Simulation
