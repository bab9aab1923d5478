import Courier.Simulation.Activities

/-!
# The course of a simulation

After every step the woken activities run, one after the other, until none is awake.  The timer
moves only in a sleep: it goes from alarm to alarm, and after each the activities that were woken
run to rest before it moves on.

A thing that nobody refers to any more is given up: the sweeper of such a bus is disposed, and the
forwarder of such a sending task is cancelled.
-/

namespace Courier.Simulation

/-! ## Things that nobody refers to -/

/-- Give up the buses that are no longer alive. -/
def giveUpBuses : Sim Unit := do
  let w ← get
  for i in List.range w.buses.items.length do
    match w.buses.get? i with
    | some b => if !w.isBusAlive i && !b.bus.sweeper.isDisposed then disposeSweeper (.ofBus i)
    | none => pure ()

/-- End the forwarder of a task without waiting for it. -/
def dropForwarder (task : Nat) : Sim Unit := do
  match (← get).tasks.get? task with
  | none => pure ()
  | some o =>
    let (t, number) := o.task.takeCurrent
    modifyTask task fun _ => t
    match number.bind t.forwarder? with
    | some f => cancelToken f.token
    | none => pure ()

/-- Give up the sending tasks that are no longer alive. -/
def giveUpTasks : Sim Unit := do
  let w ← get
  for i in List.range w.tasks.items.length do
    match w.tasks.get? i with
    | some o => if o.task.current.isSome && !w.isTaskAlive i then dropForwarder i
    | none => pure ()

/-- Give up whatever nobody refers to. -/
def giveUp : Sim Unit := do
  giveUpBuses
  giveUpTasks

/-! ## Running to rest -/

/-- The activity that has been awake longest. -/
def nextReady : Sim (Option Nat) :=
  modifyGet fun w =>
    match w.ready with
    | [] => (none, w)
    | i :: rest => (some i, { w with ready := rest })

/-- Run woken activities, at most so many times. -/
def runReady : Nat → Sim Unit
  | 0 => pure ()
  | fuel + 1 => do
    match ← nextReady with
    | none => pure ()
    | some i =>
      poll i
      giveUp
      runReady fuel

/-- Run until nothing is awake. -/
def settle : Sim Unit := do
  giveUp
  runReady longRun

/-! ## The timer -/

/-- The earliest alarm up to a time. -/
def earliestAlarm (upTo : Nat) (alarms : List (Nat × Nat)) : Option Nat :=
  alarms.foldl (fun earliest a =>
    if a.1 ≤ upTo && (earliest.all fun e => decide (a.1 < e)) then some a.1 else earliest) none

/-- Move the timer to a time and wake what was to be woken then. -/
def ring (due : Nat) : Sim Unit := do
  let w ← get
  set { w with timer := max w.timer due, alarms := w.alarms.filter fun a => due < a.1 }
  for a in w.alarms do
    if a.1 ≤ due then wake a.2

/-- Let alarms ring up to a time, at most so many. -/
def ringUntil (upTo : Nat) : Nat → Sim Unit
  | 0 => pure ()
  | fuel + 1 => do
    match earliestAlarm upTo (← get).alarms with
    | none => pure ()
    | some due =>
      ring due
      settle
      ringUntil upTo fuel

/-- Let so many milliseconds pass. -/
def sleep (milliseconds : Nat) : Sim Unit := do
  let upTo := (← get).timer + milliseconds
  settle
  ringUntil upTo longRun
  modify fun w => { w with timer := upTo }

/-! ## Steps -/

/-- Perform a step and run to rest; gives its result and what was seen. -/
def performStep {α : Type} (step : Sim α) (w : World) : (α × Report) × World :=
  let (x, w) := (do let x ← step; settle; return x : Sim α).run { w with report := {} }
  let report : Report := {
    events := w.report.events.reverse
    completions := w.report.completions.reverse
    timeouts := w.report.timeouts.reverse }
  ((x, report), w)

end Courier.Simulation
