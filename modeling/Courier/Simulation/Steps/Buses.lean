import Courier.Simulation.Steps.Delivery
import Courier.Simulation.Steps.Pending

/-!
# Steps: buses and composites

Steps that build, start, stop and dispose buses, publish and request through them, bring responses
to them, and group them.
-/

namespace Courier.Simulation

/-! ## Buses by name -/

/-- The number of a bus. -/
def busNumber (name : String) : Sim Nat := return ((← get).buses.number? name).getD 0

/-- A bus as it is. -/
def busOf (bus : Nat) : Sim BusObject := return ((← get).buses.get? bus).getD default

/-- Change a bus. -/
def setBus (bus : Nat) (b : Bus Nat Interceptor Observer) : Sim Unit :=
  modify fun w => { w with buses := w.buses.modify bus fun o => { o with bus := b } }

/-- A bus is not referred to by its name any more. -/
def dropBus (name : String) : Sim Unit :=
  modify fun w =>
    match w.buses.number? name with
    | none => w
    | some i =>
      { w with buses := (w.buses.modify i fun o => { o with held := false }).forget name }

/-- What is to be built. -/
structure NewBus where
  plan : BusPlan Nat Interceptor Observer
  /-- The store of its pending requests, if it is to use an existing one. -/
  store : Option String := none
  /-- Whether somebody is told of requests that are given up. -/
  told : Bool := false
  /-- Whether tasks can be run where it is built. -/
  tasksAvailable : Bool := true

/-- The number of the store that a bus is to use. -/
def chooseStore (store : Option String) : Sim Nat :=
  match store with
  | some name => storeNumber name
  | none => modifyGet fun w => let (stores, i) := w.stores.add {}; (i, { w with stores })

/-- Build a bus. -/
def makeBus (name : String) (n : NewBus) : Sim (Except Failure Unit) := do
  match n.plan.build with
  | .error cause => return .error cause
  | .ok bus =>
    let store ← chooseStore n.store
    let (bus, starts) := bus.startSweeper n.tasksAvailable
    dropBus name
    let (buses, i) := (← get).buses.add { bus, store, owner := if n.told then some [] else none }
    modify fun w => { w with buses := buses.name name i }
    beginSweeping (.ofBus i) starts
    return .ok ()

/-! ## Sending tasks and buses -/

/-- Make a bus reachable for a sending task. -/
def registerBus (task bus : Nat) : Sim Unit := do
  let name := (← busOf bus).bus.name
  modifyTask task fun t => t.register name bus

/-- Make the bus of the same name unreachable for a sending task. -/
def unregisterBus (task bus : Nat) : Sim Unit := do
  let name := (← busOf bus).bus.name
  modifyTask task fun t => t.unregister name

/-- Tell a sending task about a bus. -/
def tellTaskOf (task : Nat) (event : LifecycleEvent) (bus : Nat) : Sim Unit := do
  tellTask task event (← busOf bus).bus.name bus

/-! ## Lifecycle -/

/-- Tell an observer about a bus. -/
def notify (bus : Nat) (event : LifecycleEvent) (o : Observer) : Sim (Except Failure Unit) := do
  let name := (← busOf bus).bus.name
  match o with
  | .task task =>
    tellTaskOf task event bus
    return .ok ()
  | .scripted observer fails =>
    record (.told observer event name)
    match fails with
    | some (at_, cause) => return if at_ = event then .error cause else .ok ()
    | none => return .ok ()

/-- Start a bus. -/
def startBus (bus : Nat) : Sim (Except Failure Unit) := do
  let ((b, change), sweeps) := (← busOf bus).bus.start
  setBus bus b
  beginSweeping (.ofBus bus) sweeps
  change.run (notify bus)

/-- Stop a bus. -/
def stopBus (bus : Nat) : Sim (Except Failure Unit) := do
  let (b, change) := (← busOf bus).bus.stop
  setBus bus b
  change.run (notify bus)

/-- Dispose a bus; a failure to stop it is passed over. -/
def disposeBus (bus : Nat) : Sim Unit := do
  match (← busOf bus).bus.beginDisposal with
  | none => pure ()
  | some (b, change) =>
    setBus bus b
    discard <| change.run (notify bus)
    setBus bus (← busOf bus).bus.endDisposal
    endSweeping (.ofBus bus)

/-- Sweep the pending requests of a bus. -/
def sweepBus (bus : Nat) : Sim SweepResult := sweep (.ofBus bus) true false

/-- How many requests a bus waits for. -/
def countRequests (bus : Nat) : Sim Nat := do
  let store := (← busOf bus).store
  return (((← get).stores.get? store).getD default).count

/-! ## Messages -/

/-- Publish a typed message. -/
def publishTyped (bus : Nat) (k : Token) (contract : Contract) (message : Json)
    (path : Option String) : Sim (Except Failure Unit) := do
  let b := (← busOf bus).bus
  let nativeHeaders := (← get).nativeHeaders b.transport
  runPublish b.transport k (b.publishTyped nativeHeaders (← isCancelled k) contract message path)

/-- Publish a message that is given as a value. -/
def publish (bus : Nat) (k : Token) (type : MessageType) (message : Json) (path : Option String)
    (headers : Headers) : Sim (Except Failure Unit) := do
  let b := (← busOf bus).bus
  let nativeHeaders := (← get).nativeHeaders b.transport
  runPublish b.transport k
    (b.publish nativeHeaders (← isCancelled k) type message path headers)

/-- Begin a request. -/
def request (bus : Nat) (call : String) (draft : RequestDraft) : Sim Unit :=
  beginCall call (.opening call bus draft)

/-- Answer a request by its headers. -/
def respond (bus : Nat) (k : Token) (headers : Headers) (type : MessageType)
    (response : Except String Json) : Sim (Except Failure Unit) := do
  let b := (← busOf bus).bus
  let nativeHeaders := (← get).nativeHeaders b.transport
  match b.responseTo nativeHeaders headers type response with
  | .error cause => return .error cause
  | .ok m => return (← produce b.transport k m).mapError m.reported

/-- A response for a request arrives. -/
def bringResponse (bus : Nat) (id : RequestId) (payload : Bytes) (error : Option String) :
    Sim Unit := do
  let o ← busOf bus
  updateStore o.store fun s => o.bus.onResponse s id payload error

/-! ## Composites -/

/-- Make a composite. -/
def makeComposite (name : String) : Sim Unit :=
  modify fun w => { w with composites := w.composites.insert name {} }

/-- A composite as it is. -/
def compositeOf (name : String) : Sim (Composite Nat) :=
  return ((← get).composites.find? name).getD {}

/-- Add a bus to a composite. -/
def addChild (name : String) (bus : Nat) : Sim (Except Failure Unit) := do
  match (← compositeOf name).add (← busOf bus).bus.name bus with
  | .error cause => return .error cause
  | .ok c =>
    modify fun w => { w with composites := w.composites.insert name c }
    return .ok ()

/-- Replace a composite by itself with one more bus; it is lost if the bus is refused. -/
def withChild (name : String) (bus : Nat) : Sim (Except Failure Unit) := do
  match ← addChild name bus with
  | .ok () => return .ok ()
  | .error cause =>
    modify fun w => { w with composites := w.composites.erase name }
    return .error cause

/-- Start the children of a composite until one fails. -/
def startComposite (name : String) : Sim (Except Failure Unit) := do
  Composite.eachUntilFailure startBus (← compositeOf name).buses

/-- Stop the children of a composite until one fails. -/
def stopComposite (name : String) : Sim (Except Failure Unit) := do
  Composite.eachUntilFailure stopBus (← compositeOf name).buses

/-- Dispose all children of a composite. -/
def disposeComposite (name : String) : Sim Unit := do
  for bus in (← compositeOf name).buses do disposeBus bus

/-- The child of a composite that declares a message type. -/
def producerOf (name : String) (type : MessageType) : Sim (Option Nat) := do
  let w ← get
  return (← compositeOf name).producerOf?
    (fun bus type => (w.buses.get? bus).any fun b => b.bus.declares type) type

/-- Publish a typed message through the child that declares its type. -/
def publishComposite (name : String) (k : Token) (contract : Contract) (message : Json)
    (path : Option String) : Sim (Except Failure Unit) := do
  match ← producerOf name contract.type with
  | none => return .error (.configuration (.unknownProducer contract.type.name))
  | some bus => publishTyped bus k contract message path

/-- A composite in words. -/
def describeComposite (name : String) : Sim String := do
  let w ← get
  return (← compositeOf name).describe fun bus => ((w.buses.get? bus).getD default).bus.describe

end Courier.Simulation
