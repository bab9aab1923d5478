import Courier.Simulation.World

/-!
# What parts do to one another

The effects that the parts of a simulation have on each other: calls of repositories, sweeps of
pending stores, messages given to transports and what their handlers do with them, and whole
publishes.  None of them has to wait for anything.
-/

namespace Courier.Simulation

/-! ## Repositories -/

/-- The kind of a call. -/
def CallKind.ofCall : RepositoryCall → CallKind
  | .migrate => .migrate
  | .save _ => .save
  | .tryToLock .. => .tryToLock
  | .findNextToSend _ => .findNextToSend
  | .updateToSent _ => .updateToSent
  | .release .. => .release
  | .deleteSent _ => .deleteSent

/-- The first effect for a kind of call, and the others. -/
def takeEffect (kind : CallKind) : List CallEffect → Option CallEffect × List CallEffect
  | [] => (none, [])
  | e :: rest =>
    if e.kind = kind then (some e, rest)
    else let (found, rest) := takeEffect kind rest; (found, e :: rest)

/-- Call a repository. -/
def callDirectly (repository : Nat) (token : Token) (call : RepositoryCall) :
    Sim RepositoryAnswer := do
  let w ← get
  match w.repositories.get? repository with
  | none => return .done
  | some o =>
    let (repo, answer) := o.repository.perform (w.tokens.isCancelled token) w.clock call
    set { w with repositories := w.repositories.set repository { o with repository := repo } }
    return answer

/-- Call a repository on behalf of an outbox: effects apply, and the call is recorded. -/
def callRepository (repository : Nat) (token : Token) (call : RepositoryCall) :
    Sim RepositoryAnswer := do
  let w ← get
  match w.repositories.get? repository with
  | none => return .done
  | some o =>
    let (effect, effects) := takeEffect (.ofCall call) o.effects
    set { w with repositories := w.repositories.set repository { o with effects } }
    let answer ← match effect.bind (·.fails) with
      | some cause => pure (RepositoryAnswer.failed cause)
      | none => callDirectly repository token call
    match effect.bind (·.advances) with
    | some d => modify fun w => { w with clock := w.clock.add d }
    | none => pure ()
    record (.called o.name call answer)
    return answer

/-! ## Pending stores -/

/-- Change a pending store, and wake the requests whose outcome is there. -/
def updateStore (store : Nat) (f : PendingStore → PendingStore) : Sim Unit := do
  modify fun w =>
    { w with stores := w.stores.modify store f }
  let w ← get
  let pending := (w.stores.get? store).getD default
  wakeAll fun
    | .requesting _ bus request =>
      (w.buses.get? bus).any (fun b => b.store == store) && (pending.slot request.slot).isResolved
    | _ => false

/-- The sweeper at a place, with its store and its owner. -/
def World.sweeper? (w : World) : SweeperPlace → Option (Sweeper × Nat × Owner)
  | .ofBus i => (w.buses.get? i).map fun b => (b.bus.sweeper, b.store, b.owner)
  | .ofManager i => (w.managers.get? i).map fun m => (m.sweeper, m.store, m.owner)

/-- Replace the sweeper at a place. -/
def setSweeper (place : SweeperPlace) (s : Sweeper) : Sim Unit :=
  modify fun w =>
    match place with
    | .ofBus i =>
      { w with buses := w.buses.modify i fun b => { b with bus := { b.bus with sweeper := s } } }
    | .ofManager i =>
      { w with managers := w.managers.modify i fun m => { m with sweeper := s } }

/-- The task of a sweeper is gone. -/
def endSweeping (place : SweeperPlace) : Sim Unit :=
  modify fun w =>
    { w with
      activities := { w.activities with
        items := w.activities.items.map fun
          | .sweeping p due => if p = place then .over else .sweeping p due
          | a => a } }

/-- Dispose a sweeper. -/
def disposeSweeper (place : SweeperPlace) : Sim Unit := do
  match (← get).sweeper? place with
  | none => pure ()
  | some (s, _, _) =>
    setSweeper place s.dispose
    endSweeping place

/-- Start the task of a sweeper that has just been marked as started. -/
def beginSweeping (place : SweeperPlace) (starts : Bool) : Sim Unit := do
  if starts then discard <| spawn (.sweeping place none)

/-- What a sweep shows. -/
def recordNotice : Sweep.Notice → Sim Unit
  | .timeout request => tellTimeout request
  | .tickReturned ran => record (.swept ran)

/-- How a sweep went. -/
inductive SweepResult
  /-- It was not due to run. -/
  | skipped
  | ran
  /-- The owner failed in it. -/
  | failed
deriving DecidableEq, Inhabited

/-- Sweep a store; `inTask` says whether the periodic task does it. -/
def sweep (place : SweeperPlace) (guarded inTask : Bool) : Sim SweepResult := do
  let w ← get
  match w.sweeper? place with
  | none => return .skipped
  | some (s, store, owner) =>
    let setting : Sweep.Setting := {
      now := w.clock, isCancelled := w.tokens.isCancelled
      owner := owner.getD [], told := owner.isSome }
    let pending := (w.stores.get? store).getD default
    let (state, ran) :=
      if guarded then Sweep.tick setting s.guard pending
      else (Sweep.clean setting s.guard pending, true)
    for notice in state.notices.reverse do recordNotice notice
    setSweeper place (s.swept state.guard (state.failed && inTask))
    if state.guard.disposed then endSweeping place
    updateStore store fun _ => state.store
    return if state.failed then .failed else if ran then .ran else .skipped

/-! ## Responses -/

/-- A response with headers has arrived at a bus. -/
def respondToBus (bus : Nat) (payload : Bytes) (headers : Headers) : Sim Unit := do
  match (← get).buses.get? bus with
  | none => pure ()
  | some b => updateStore b.store fun s => b.bus.onResponseMessage s payload headers

/-- A response in an envelope has arrived at a bus. -/
def respondToBusByEnvelope (bus : Nat) (envelope : Bytes) : Sim (Except Failure Unit) := do
  let w ← get
  match w.buses.get? bus with
  | none => return .ok ()
  | some b =>
    let pending := (w.stores.get? b.store).getD default
    match b.bus.onResponseEnvelope pending envelope with
    | .error cause => return .error cause
    | .ok pending =>
      updateStore b.store fun _ => pending
      return .ok ()

/-! ## Transports -/

/-- Whether a transport carries headers. -/
def World.nativeHeaders (w : World) (transport : Nat) : Bool :=
  ((w.transports.get? transport).map (·.transport.nativeHeaders)).getD true

/-- The headers of a message, wherever they travel. -/
def headersOf (nativeHeaders : Bool) (m : TransportMessage) : Headers :=
  if nativeHeaders then m.headers
  else match Envelope.ofBytes m.payload with
    | .ok e => e.headers
    | .error _ => []

/-- Whether a text has the form of a drawn request id. -/
def isRequestIdForm (text : String) : Bool :=
  text.length == 32 && text.toList.all fun c => (RowId.digitValue? c).isSome

/-- Take notice of the request id of a message. -/
def noteRequestId (nativeHeaders : Bool) (m : TransportMessage) : Sim Unit := do
  match (headersOf nativeHeaders m).find? requestIdHeader with
  | none => pure ()
  | some text =>
    modify fun w =>
      if isRequestIdForm text && !w.requestIds.contains text then
        { w with requestIds := w.requestIds ++ [text] }
      else w

/-- What the handler of a path does with a message. -/
def handle (nativeHeaders : Bool) (m : TransportMessage) (h : Handler) : Sim Unit := do
  record (.handled h.kind m.path)
  match h.reaction with
  | .nothing => pure ()
  | .cancel token => cancelToken token
  | .route bus =>
    if (← get).isBusAlive bus then
      if nativeHeaders then respondToBus bus m.payload m.headers
      else match ← respondToBusByEnvelope bus m.payload with
        | .ok () => pure ()
        | .error cause => record (.unroutable cause)
  | .respond bus type response =>
    if (← get).isBusAlive bus then
      discard <| spawn (.responding bus (headersOf nativeHeaders m) type response)

/-- Give a message to a transport, past its effects. -/
def produceDirectly (transport : Nat) (token : Token) (m : TransportMessage) :
    Sim (Except Failure Unit) := do
  let w ← get
  match w.transports.get? transport with
  | none => return .ok ()
  | some o =>
    match o.transport.produce (w.tokens.isCancelled token) m with
    | .error cause => return .error cause
    | .ok t =>
      set { w with transports := w.transports.set transport { o with transport := t } }
      match o.handlers.find? m.path with
      | some h => handle t.nativeHeaders m h
      | none => pure ()
      return .ok ()

/-- Give a message to a transport: effects apply, and the outcome is recorded. -/
def produce (transport : Nat) (token : Token) (m : TransportMessage) :
    Sim (Except Failure Unit) := do
  let w ← get
  match w.transports.get? transport with
  | none => return .ok ()
  | some o =>
    noteRequestId o.transport.nativeHeaders m
    modify fun w =>
      { w with transports := w.transports.set transport { o with effects := o.effects.drop 1 } }
    let result ← match o.effects.head? with
      | some (some cause) => pure (.error cause)
      | _ => produceDirectly transport token m
    record (.produced o.name m.messageType m.path result)
    return result

/-! ## Publishing -/

/-- What a script does with a publication. -/
def Script.onPublish (s : Script) (p : Publication) : Except Failure Decision × Publication :=
  match s.fails with
  | some cause => (.error cause, p)
  | none =>
    let set := match s.setsHeader with
      | some (key, value) => p.headers.insert key value
      | none => p.headers
    let headers := match s.dropsHeader with
      | some key => set.erase key
      | none => set
    (.ok s.decision, { p with headers, path := s.setsPath.getD p.path })

/-- Store a row on behalf of an outbox. -/
def saveRow (token : Token) (repository : Nat) (row : Row) : Sim (Except Failure Unit) := do
  match ← callRepository repository token (.save row) with
  | .failed cause => return .error cause
  | _ => return .ok ()

/-- Offer a publication to an interceptor. -/
def intercept (token : Token) (i : Interceptor) (p : Publication) :
    Sim (Except Failure Decision × Publication) := do
  match i with
  | .scripted s =>
    record (.offered s.name p)
    match s.cancels with
    | some k => cancelToken k
    | none => pure ()
    return s.onPublish p
  | .outbox c => c.ask (saveRow token) drawRowId (return (← get).clock) p

/-- Carry a publish of a bus to its end. -/
def runPublish (transport : Nat) (token : Token) (p : Publish Interceptor) :
    Sim (Except Failure Unit) := do
  let nativeHeaders := (← get).nativeHeaders transport
  Publish.run (intercept token) (produce transport token) nativeHeaders p

/-- Forward a row through a bus. -/
def forwardRow (bus : Nat) (token : Token) (row : Row) : Sim (Except Failure Unit) := do
  let w ← get
  match w.buses.get? bus with
  | none => return .ok ()
  | some b =>
    runPublish b.bus.transport token
      (b.bus.forward (w.nativeHeaders b.bus.transport) (w.tokens.isCancelled token) row)

end Courier.Simulation
