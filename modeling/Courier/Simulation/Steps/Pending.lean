import Courier.Simulation.Steps.Time

/-!
# Steps: pending stores and sweepers

Steps that use a pending store directly, and steps of sweepers that no bus owns.
-/

namespace Courier.Simulation

/-! ## Stores -/

/-- Make a store. -/
def makeStore (name : String) : Sim Unit :=
  modify fun w =>
    let (stores, i) := w.stores.add {}
    { w with stores := stores.name name i }

/-- The number of a store. -/
def storeNumber (name : String) : Sim Nat := return ((← get).stores.number? name).getD 0

/-- A store as it is. -/
def storeOf (name : String) : Sim PendingStore := do
  return ((← get).stores.get? (← storeNumber name)).getD default

/-- The slot of the request that was added last under an id. -/
def awaitedSlot? (name : String) (id : RequestId) : Sim (Option SlotPlace) :=
  return ((← get).awaited.find? name).bind fun slots => slots.find? id.text

/-- Keep the slot of the request that was added last under an id. -/
def keepSlot (name : String) (id : RequestId) (place : SlotPlace) : Sim Unit :=
  modify fun w =>
    let slots := (w.awaited.find? name).getD []
    { w with awaited := w.awaited.insert name (slots.insert id.text place) }

/-- What is to be added to a store. -/
structure NewRequest where
  id : RequestId
  request : Json
  requestType : MessageType
  responseType : MessageType
  created : Instant
  expires : Instant
  token : Token

/-- Add a request to a store. -/
def addPending (name : String) (r : NewRequest) : Sim (Except Failure Unit) := do
  let i ← storeNumber name
  let (store, slot) := (← storeOf name).newSlot
  let pending : PendingRequest := {
    id := r.id, request := r.request, requestType := r.requestType
    responseType := r.responseType, created := r.created, expires := r.expires
    token := r.token, slot }
  match store.add pending with
  | .error cause => return .error cause
  | .ok store =>
    modify fun w => { w with stores := w.stores.set i store }
    keepSlot name r.id { store := i, slot }
    return .ok ()

/-- The request of an id, and whether its slot is resolved and its token cancelled. -/
def findPending (name : String) (id : RequestId) : Sim (Option (PendingRequest × Bool × Bool)) := do
  let store ← storeOf name
  match store.find? id with
  | none => return none
  | some r => return some (r, (store.slot r.slot).isResolved, ← isCancelled r.token)

/-- Remove a request; says whether it was there. -/
def removePending (name : String) (id : RequestId) : Sim Bool := do
  let found := ((← storeOf name).find? id).isSome
  updateStore (← storeNumber name) fun s => s.remove id
  return found

/-- Remove requests; gives how many are left. -/
def removeAllPending (name : String) (ids : List RequestId) : Sim Nat := do
  updateStore (← storeNumber name) fun s => s.removeAll ids
  return (← storeOf name).count

/-- The ids of the requests that a sweep at a time would give up. -/
def duePending (name : String) (at_ : Instant) : Sim (List RequestId) := do
  let due := (← storeOf name).due (← get).tokens.isCancelled at_
  return due.map (·.id)

/-- Whether a sweep at a time would give up a request. -/
def isPendingDue (name : String) (id : RequestId) (at_ : Instant) : Sim (Option Bool) := do
  let w ← get
  return ((← storeOf name).find? id).map fun r => r.isDue w.tokens.isCancelled at_

/-- How many requests are pending. -/
def countPending (name : String) : Sim Nat := return (← storeOf name).count

/-- Resolve a request; says whether this outcome won, if the request is there. -/
def resolvePending (name : String) (id : RequestId) (o : Outcome) : Sim (Option Bool) := do
  let store ← storeOf name
  match store.find? id with
  | none => return none
  | some r =>
    let (store, won) := store.resolve r.slot o
    updateStore (← storeNumber name) fun _ => store
    return some won

/-- Take the outcome of the request that was added last under an id.  Nobody can resolve it once its
store is given up. -/
def receivePending (name : String) (id : RequestId) : Sim Received := do
  match ← awaitedSlot? name id with
  | none => return .dropped
  | some place =>
    let w ← get
    let store := (w.stores.get? place.store).getD default
    let store := if w.isStoreAlive place.store then store
      else store.setSlot place.slot (store.slot place.slot).close
    let (store, received) := store.receive place.slot
    updateStore place.store fun _ => store
    return received

/-- Nobody waits any longer for the request that was added last under an id. -/
def abandonPending (name : String) (id : RequestId) : Sim Unit := do
  match ← awaitedSlot? name id with
  | none => pure ()
  | some place => updateStore place.store fun s => s.abandon place.slot

/-! ## Sweepers -/

/-- The place of a sweeper that no bus owns. -/
def managerPlace (name : String) : Sim SweeperPlace :=
  return .ofManager (((← get).managers.number? name).getD 0)

/-- A sweeper goes away. -/
def dropManager (name : String) : Sim Unit := do
  if ((← get).managers.number? name).isSome then disposeSweeper (← managerPlace name)
  modify fun w => { w with managers := w.managers.forget name }

/-- Make a sweeper for a store. -/
def makeManager (name store : String) (interval : Span) (owner : Owner) : Sim Unit := do
  let store ← storeNumber store
  dropManager name
  modify fun w =>
    let (managers, i) := w.managers.add { sweeper := { interval }, store, owner }
    { w with managers := managers.name name i }

/-- A sweeper as it is. -/
def managerOf (name : String) : Sim Manager := do
  let w ← get
  return ((w.managers.number? name).bind w.managers.get?).getD default

/-- Start a sweeper; says whether its task is alive. -/
def startManager (name : String) (tasksAvailable : Bool) : Sim Bool := do
  let place ← managerPlace name
  let (s, starts) := (← managerOf name).sweeper.start tasksAvailable
  setSweeper place s
  beginSweeping place starts
  return s.isRunning

/-- Sweep the store of a sweeper. -/
def sweepManager (name : String) (guarded : Bool) : Sim SweepResult := do
  sweep (← managerPlace name) guarded false

/-- Dispose a sweeper. -/
def disposeManager (name : String) : Sim Unit := do
  disposeSweeper (← managerPlace name)

/-- How many requests the store of a sweeper holds. -/
def countManaged (name : String) : Sim Nat := do
  let w ← get
  return ((w.stores.get? (← managerOf name).store).getD default).count

end Courier.Simulation
