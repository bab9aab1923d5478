import Courier.Simulation.Steps.Time

/-!
# Steps: transports, repositories and sending tasks

Steps that use a transport or a repository directly, arrange what happens to the next messages and
calls, and drive sending tasks.
-/

namespace Courier.Simulation

/-! ## Transports -/

/-- Make a transport. -/
def makeTransport (name : String) (nativeHeaders : Bool) : Sim Unit :=
  modify fun w =>
    let (transports, i) := w.transports.add { name, transport := { nativeHeaders } }
    { w with transports := transports.name name i }

/-- The number of a transport. -/
def transportNumber (name : String) : Sim Nat := return ((← get).transports.number? name).getD 0

/-- A transport as it is. -/
def transportOf (name : String) : Sim TransportObject := do
  return ((← get).transports.get? (← transportNumber name)).getD default

/-- Change a transport. -/
def modifyTransport (name : String) (f : TransportObject → TransportObject) : Sim Unit := do
  let i ← transportNumber name
  modify fun w => { w with transports := w.transports.modify i f }

/-- Arrange whether the next message fails. -/
def injectTransport (name : String) (fails : Option Failure) : Sim Unit :=
  modifyTransport name fun o => { o with effects := o.effects ++ [fails] }

/-- Give a message to a transport. -/
def produceTo (name : String) (k : Token) (m : TransportMessage) : Sim (Except Failure Unit) := do
  produce (← transportNumber name) k m

/-- Make a path of a transport fail. -/
def failPath (name path : String) : Sim Unit :=
  modifyTransport name fun o => { o with transport := o.transport.failPath path }

/-- Let all paths of a transport work again. -/
def clearFailures (name : String) : Sim Unit :=
  modifyTransport name fun o => { o with transport := o.transport.clearFailures }

/-- Set the handler of a path. -/
def handlePath (name path : String) (h : Handler) : Sim Unit :=
  modifyTransport name fun o => { o with handlers := o.handlers.insert path h }

/-! ## Repositories -/

/-- Make a repository. -/
def makeRepository (name : String) (batchSize : Nat) : Sim Unit :=
  modify fun w =>
    let (repositories, i) := w.repositories.add { name, repository := .empty batchSize }
    { w with repositories := repositories.name name i }

/-- The number of a repository. -/
def repositoryNumber (name : String) : Sim Nat :=
  return ((← get).repositories.number? name).getD 0

/-- A repository as it is. -/
def repositoryOf (name : String) : Sim Repository := do
  return ((← get).repositories.get? (← repositoryNumber name)).getD default |>.repository

/-- Call a repository past its effects; gives the answer and the rows after it. -/
def callNamed (name : String) (k : Token) (call : RepositoryCall) :
    Sim (RepositoryAnswer × List Row) := do
  let answer ← callDirectly (← repositoryNumber name) k call
  return (answer, (← repositoryOf name).rows)

/-- Arrange what happens to the next call of a kind. -/
def injectRepository (name : String) (e : CallEffect) : Sim Unit := do
  let i ← repositoryNumber name
  modify fun w =>
    { w with repositories := w.repositories.modify i fun o =>
        { o with effects := o.effects ++ [e] } }

/-! ## Sending tasks -/

/-- A sending task is not referred to by itself any more. -/
def dropTask (name : String) : Sim Unit :=
  modify fun w =>
    match w.tasks.number? name with
    | none => w
    | some i =>
      { w with tasks := (w.tasks.modify i fun o => { o with held := false }).forget name }

/-- Make a sending task over a repository.  Only a task that comes to be draws a name for its
instance. -/
def makeTask (name repository : String) (inst : Option String) (settings : OutboxSettings) :
    Sim (Except Failure Unit) := do
  match SendingTask.create settings "" with
  | .error cause => return .error cause
  | .ok task =>
    let inst ← match inst with
      | some inst => pure inst
      | none => drawInstance
    let task := { task with inst }
    let repository ← repositoryNumber repository
    dropTask name
    modify fun w =>
      let (tasks, i) := w.tasks.add { task, repository }
      { w with tasks := tasks.name name i }
    return .ok ()

/-- The number of a sending task. -/
def taskNumber (name : String) : Sim Nat := return ((← get).tasks.number? name).getD 0

/-- A sending task as it is. -/
def taskOf (task : Nat) : Sim (SendingTask Nat) :=
  return ((← get).tasks.get? task).getD default |>.task

/-- Start the loop of a task. -/
def startTask (task : Nat) : Sim Unit := do
  let k ← freshToken
  let (t, number) := (← taskOf task).start k
  modifyTask task fun _ => t
  match number with
  | some number => discard <| spawn (.forwarding task number k none)
  | none => pure ()

/-- Stop the loop of a task and wait for its end. -/
def stopTask (task : Nat) : Sim Unit := do
  dropForwarder task
  settle

/-- A task is told about a bus. -/
def tellTask (task : Nat) (event : LifecycleEvent) (name : Option String) (bus : Nat) :
    Sim Unit := do
  let t ← taskOf task
  match event with
  | .started =>
    let (t, starts) := t.busStarted name bus
    modifyTask task fun _ => t
    if starts then startTask task
  | .stopping =>
    let (t, stops) := t.busStopping name
    modifyTask task fun _ => t
    if stops then stopTask task

end Courier.Simulation
