import Courier.Pending.Sweep
import Courier.Text.Described

/-!
# Sweepers

A sweeper owns the periodic sweeps of one store.  Its task is started at most once; it ends when the
sweeper is disposed or when the owner that it tells fails.  Sweeps may also be asked for directly.

Main statement: `start_of_disposed` (a disposed sweeper starts no task).
-/

namespace Courier

/-- Whether the task of a sweeper still runs. -/
inductive SweepTask
  | alive
  | ended
deriving DecidableEq, Repr, Inhabited

/-- The periodic sweeps of one store. -/
structure Sweeper where
  interval : Span
  guard : Sweep.Guard := {}
  /-- The periodic task, once it was started. -/
  task : Option SweepTask := none
deriving Repr, Inhabited

namespace Sweeper

/-- Start the task unless there was one already, the sweeper is disposed or tasks cannot be run;
says whether it starts now. -/
def start (s : Sweeper) (tasksAvailable : Bool) : Sweeper × Bool :=
  if s.task.isSome || s.guard.disposed || !tasksAvailable then (s, false)
  else ({ s with task := some .alive }, true)

/-- No sweep starts any more, and the task is gone. -/
def dispose (s : Sweeper) : Sweeper :=
  { s with guard := { s.guard with disposed := true }, task := none }

/-- The sweeper after a sweep that left the guard like this; if the owner failed inside the task,
the task ends. -/
def swept (s : Sweeper) (guard : Sweep.Guard) (taskFailed : Bool) : Sweeper :=
  let task :=
    if guard.disposed then none
    else if taskFailed then s.task.map fun _ => .ended
    else s.task
  { s with guard, task }

/-- Whether the task is alive. -/
def isRunning (s : Sweeper) : Bool := s.task == some .alive

/-- Whether the sweeper has been disposed. -/
def isDisposed (s : Sweeper) : Bool := s.guard.disposed

/-- The sweeper in words, with the number of requests in its store. -/
def describe (s : Sweeper) (pending : Nat) : String :=
  Text.describedRecord "PendingRequestManager"
    [("interval", s.interval.describe), ("pending", toString pending)]

theorem start_of_disposed {s : Sweeper} (tasksAvailable : Bool) (h : s.isDisposed = true) :
    s.start tasksAvailable = (s, false) := by
  have h : s.guard.disposed = true := h
  simp [start, h]

end Sweeper
end Courier
