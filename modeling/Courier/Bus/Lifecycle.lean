import Courier.Bus.Basic

/-!
# The lifecycle of a bus

A bus is started and stopped any number of times and disposed once.  A start or a stop first sets
the mark of the bus and then tells every observer in turn, and the first observer that fails ends
it. A start of a started bus and a stop of one that is not started tell nobody.

`Change` says what a start or stop under way waits for, so that others may begin in between;
`Change.run` carries one to its end.

Main statement: `run_telling` (a run is made of the answers of the observers one by one).
-/

namespace Courier

/-- A start or stop of a bus under way; `κ` stands for a way to refer to an observer. -/
inductive Change (κ : Type)
  /-- It waits for an observer; others follow. -/
  | telling (event : LifecycleEvent) (next : κ) (rest : List κ)
  | ended (result : Except Failure Unit)

namespace Change

variable {κ : Type}

/-- Tell observers of an event. -/
def tell (event : LifecycleEvent) : List κ → Change κ
  | [] => .ended (.ok ())
  | o :: rest => .telling event o rest

/-- An observer has answered. -/
def told (event : LifecycleEvent) (rest : List κ) : Except Failure Unit → Change κ
  | .ok () => tell event rest
  | .error cause => .ended (.error cause)

/-- Tell observers of an event until one fails. -/
def tellAll {f : Type → Type} [Monad f] (notify : LifecycleEvent → κ → f (Except Failure Unit))
    (event : LifecycleEvent) : List κ → f (Except Failure Unit)
  | [] => pure (.ok ())
  | o :: rest => do
    match ← notify event o with
    | .ok () => tellAll notify event rest
    | .error cause => pure (.error cause)

/-- Carry a start or stop to its end. -/
def run {f : Type → Type} [Monad f] (notify : LifecycleEvent → κ → f (Except Failure Unit)) :
    Change κ → f (Except Failure Unit)
  | .ended result => pure result
  | .telling event next rest => tellAll notify event (next :: rest)

/-- A change that waits for an observer goes on with its answer. -/
theorem run_telling {f : Type → Type} [Monad f]
    (notify : LifecycleEvent → κ → f (Except Failure Unit)) (event : LifecycleEvent) (next : κ)
    (rest : List κ) :
    run notify (.telling event next rest) = (do
      let answer ← notify event next
      run notify (told event rest answer)) := by
  rw [run, tellAll]
  congr 1
  funext answer
  match answer, rest with
  | .ok (), [] => rfl
  | .ok (), _ :: _ => rfl
  | .error _, _ => rfl

end Change

namespace Bus

variable {τ ι κ : Type}

/-- Start the sweeper of a bus that awaits responses; says whether its task starts now. -/
def startSweeper (b : Bus τ ι κ) (tasksAvailable : Bool) : Bus τ ι κ × Bool :=
  if b.requestResponse.isSome then
    let (sweeper, starts) := b.sweeper.start tasksAvailable
    ({ b with sweeper }, starts)
  else (b, false)

/-- Set the mark of a bus that is started; its observers have to be told. -/
def markStarted (b : Bus τ ι κ) : Bus τ ι κ × Change κ :=
  if b.started then (b, .ended (.ok ()))
  else ({ b with started := true }, .tell .started b.observers)

/-- Begin to start the bus, its sweeper included; says whether the task of the sweeper starts
now. -/
def start (b : Bus τ ι κ) : (Bus τ ι κ × Change κ) × Bool :=
  match b.requireActive with
  | .error cause => ((b, .ended (.error cause)), false)
  | .ok () =>
    let (b, sweeps) := b.startSweeper true
    (b.markStarted, sweeps)

/-- Begin to stop the bus. -/
def stop (b : Bus τ ι κ) : Bus τ ι κ × Change κ :=
  if b.started then ({ b with started := false }, .tell .stopping b.observers)
  else (b, .ended (.ok ()))

/-- Begin to dispose the bus: from now on it refuses to work, and it has to be stopped.  Only the
first attempt does anything. -/
def beginDisposal (b : Bus τ ι κ) : Option (Bus τ ι κ × Change κ) :=
  if b.disposing then none else some (stop { b with disposing := true })

/-- The bus has been stopped for good, with or without a failure. -/
def endDisposal (b : Bus τ ι κ) : Bus τ ι κ :=
  { b with sweeper := b.sweeper.dispose, disposed := true }

end Bus
end Courier
