import Courier.Simulation.Effects

/-!
# How activities go on

Each function takes one woken activity as far as it gets without waiting.  An activity that was
woken for nothing waits on.
-/

namespace Courier.Simulation

/-! ## Forwarders -/

/-- Change a sending task. -/
def modifyTask (task : Nat) (f : SendingTask Nat → SendingTask Nat) : Sim Unit :=
  modify fun w => { w with tasks := w.tasks.modify task fun o => { o with task := f o.task } }

/-- A forwarder after a step. -/
def setForwarder (task number : Nat) (f : Forwarder Nat) : Sim Unit :=
  modifyTask task fun t => t.setForwarder number f

/-- Let a forwarder pause; with a cancelled token the pause is over at once. -/
def beginPause (i task number : Nat) (token : Token) (d : Span) : Sim Unit := do
  let due := (← get).timer + ceilMilliseconds d
  setAlarm due i
  become i (.forwarding task number token (some due))
  if ← isCancelled token then wake i

/-- One step of a forwarder that is not in a pause; says whether it can go on at once. -/
def stepForwarder (i task number : Nat) (token : Token) : Sim Bool := do
  let w ← get
  match w.tasks.get? task with
  | none => return false
  | some o =>
    match o.task.forwarder? number with
    | none => return false
    | some f =>
      match f.stage with
      | .ended =>
        become i .over
        return false
      | .pausing =>
        beginPause i task number token o.task.settings.pollIdleSleep
        return false
      | .forwarding idle bus row rest =>
        let result ← forwardRow bus token row
        setForwarder task number (f.forwarded idle row rest result)
        return true
      | _ =>
        match f.call? o.task.inst with
        | some call =>
          let answer ← callRepository o.repository token call
          setForwarder task number (f.answered answer)
          return true
        | none =>
          let view : Forwarder.View Nat := {
            settings := o.task.settings, now := w.clock, isCancelled := w.tokens.isCancelled token
            route := o.task.route w.isBusAlive }
          let (f, cleanupNext) := f.decide view o.task.cleanupNext
          modifyTask task fun t => { t.setForwarder number f with cleanupNext }
          return true

/-- Steps of a forwarder until it has to wait, at most so many. -/
def runForwarder (i task number : Nat) (token : Token) : Nat → Sim Unit
  | 0 => pure ()
  | fuel + 1 => do
    if ← stepForwarder i task number token then runForwarder i task number token fuel

/-- The most steps that are taken without waiting; only rows that are leased and given back for ever
at a clock that stands still could take more. -/
def longRun : Nat := 1000000

/-- A forwarder was woken. -/
def pollForwarder (i task number : Nat) (token : Token) (pauseEnd : Option Nat) : Sim Unit := do
  match pauseEnd with
  | none => runForwarder i task number token longRun
  | some due =>
    let w ← get
    let elapsed := decide (due ≤ w.timer)
    if elapsed || w.tokens.isCancelled token then
      modifyTask task fun t =>
        match t.forwarder? number with
        | some f => t.setForwarder number (f.resumed (!elapsed))
        | none => t
      become i (.forwarding task number token none)
      runForwarder i task number token longRun

/-! ## Requests -/

/-- A request waits on or has come to its end. -/
def settleRequest (i : Nat) (call : String) (bus : Nat) (r : Request) : Sim Unit := do
  match r.stage with
  | .ended result =>
    complete call (.response result)
    become i .over
  | _ => become i (.requesting call bus r)

/-- Look at the outcome of a request. -/
def pollRequest (i : Nat) (call : String) (bus : Nat) (r : Request) : Sim Unit := do
  let w ← get
  match w.buses.get? bus with
  | none => become i .over
  | some b =>
    let store := (w.stores.get? b.store).getD default
    let (store, r) := r.poll store (w.tokens.isCancelled r.token)
    updateStore b.store fun _ => store
    settleRequest i call bus r

/-- A request that could not be made. -/
def refuseRequest (i : Nat) (call : String) (cause : Failure) : Sim Unit := do
  complete call (.response (.error cause))
  become i .over

/-- The transport takes or refuses a request. -/
def produceRequest (i : Nat) (call : String) (bus store transport : Nat) (r : Request)
    (message : TransportMessage) : Sim Unit := do
  let result ← produce transport r.token message
  let pending := ((← get).stores.get? store).getD default
  let (pending, r) := r.produced pending message result
  updateStore store fun _ => pending
  match r.stage with
  | .ended _ => settleRequest i call bus r
  | _ => pollRequest i call bus r

/-- Make a request. -/
def openRequest (i : Nat) (call : String) (bus : Nat) (draft : RequestDraft) : Sim Unit := do
  let w ← get
  match w.buses.get? bus with
  | none => become i .over
  | some b =>
    match b.bus.admitRequest (w.tokens.isCancelled draft.token) with
    | .error cause => refuseRequest i call cause
    | .ok settings =>
      let (sweeper, starts) := b.bus.sweeper.start true
      setSweeper (.ofBus bus) sweeper
      beginSweeping (.ofBus bus) starts
      let id ← drawRequestId
      let pending := (w.stores.get? b.store).getD default
      let nativeHeaders := w.nativeHeaders b.bus.transport
      match b.bus.openRequest nativeHeaders settings pending id w.clock draft with
      | .error cause => refuseRequest i call cause
      | .ok (pending, r) =>
        updateStore b.store fun _ => pending
        match r.stage with
        | .producing message => produceRequest i call bus b.store b.bus.transport r message
        | _ => settleRequest i call bus r

/-! ## Processors -/

/-- Change a processor. -/
def modifyProcessor (processor : Nat) (f : Bounded Errand → Bounded Errand) : Sim Unit :=
  modify fun w =>
    { w with processors := w.processors.modify processor fun o =>
        { o with processor := f o.processor } }

/-- Wake the calls that have got a permit. -/
def wakeGranted (processor : Nat) : Sim Unit := do
  match (← get).processors.get? processor with
  | none => pure ()
  | some o => for i in o.processor.granted do wake i

/-- A call of a processor: it waits for its permit or its token, and uses the permit. -/
def pollSubmission (i : Nat) (call : String) (processor : Nat) (token : Token) (errand : Errand)
    (headers : Headers) (asked : Bool) : Sim Unit := do
  if !asked then
    modifyProcessor processor fun p => p.ask i
    become i (.submitting call processor token errand headers true)
  let w ← get
  match w.processors.get? processor with
  | none => become i .over
  | some o =>
    if o.processor.isGranted i then
      let (p, result) := o.processor.decide i errand headers
      modifyProcessor processor fun _ => p
      if result.isOk then
        discard <| spawn (.carrying processor token ⟨i, errand, headers⟩ false none)
      else wakeGranted processor
      complete call (.processed result)
      become i .over
    else if w.tokens.isCancelled token then
      modifyProcessor processor fun p => p.withdraw i
      complete call (.processed (.failed .cancelled))
      become i .over

/-- A message in the background: its work is begun, and its ending recorded. -/
def pollCarrier (i processor : Nat) (token : Token) (job : Background Errand) (begun : Bool)
    (ending : Option Ending) : Sim Unit := do
  match begun, ending with
  | false, _ =>
    become i (.carrying processor token job true none)
    discard <| spawn (.working processor token job i .fresh)
  | true, none => pure ()
  | true, some ending =>
    modifyProcessor processor fun p => p.complete job ending
    wakeGranted processor
    become i .over

/-- What a scripted processor reports about a message. -/
def endingOf (e : Errand) : Ending :=
  let result (r : ProcessResult) : ProcessResult := { r with consumer := e.consumer }
  match e.ending with
  | .succeeds => .returned (result .pending)
  | .fails cause => .returned (result (.failed cause))
  | .awaitsCancellation => .returned (result (.failed .cancelled))
  | .breaksOff =>
    .brokeOff ("task # panicked with message " ++ Text.described ("boom " ++ e.name))

/-- The work on a message is over. -/
def endWork (i processor : Nat) (job : Background Errand) (carrier : Nat) : Sim Unit := do
  record (.finished job.message.name)
  modify fun w =>
    { w with processors := w.processors.modify processor fun o =>
        { o with active := o.active - 1 } }
  become i .over
  match (← get).activities.get? carrier with
  | some (.carrying processor token job begun _) =>
    become carrier (.carrying processor token job begun (some (endingOf job.message)))
    wake carrier
  | _ => pure ()

/-- The work on a message that need not be delayed any longer. -/
def workOn (i processor : Nat) (token : Token) (job : Background Errand) (carrier : Nat) :
    Sim Unit := do
  match job.message.ending with
  | .awaitsCancellation =>
    if ← isCancelled token then endWork i processor job carrier
    else become i (.working processor token job carrier .awaiting)
  | _ => endWork i processor job carrier

/-- The work on a message: it takes its time, and then may wait for its token. -/
def pollWork (i processor : Nat) (token : Token) (job : Background Errand) (carrier : Nat)
    (stage : WorkStage) : Sim Unit := do
  match stage with
  | .fresh =>
    record (.began job.message.name job.headers)
    modify fun w =>
      { w with processors := w.processors.modify processor fun o =>
          { o with active := o.active + 1, maxActive := max o.maxActive (o.active + 1) } }
    match job.message.delay with
    | some (n + 1) =>
      let due := (← get).timer + (n + 1)
      setAlarm due i
      become i (.working processor token job carrier (.delayed due))
    | _ => workOn i processor token job carrier
  | .delayed due => if due ≤ (← get).timer then workOn i processor token job carrier
  | .awaiting => if ← isCancelled token then endWork i processor job carrier

/-- A call that waits until the background is empty. -/
def pollDraining (i : Nat) (call : String) (processor since : Nat) : Sim Unit := do
  let w ← get
  match w.processors.get? processor with
  | none => become i .over
  | some o =>
    match o.processor.pause? with
    | none =>
      complete call (.waited (w.timer - since))
      become i .over
    | some pause => setAlarm (w.timer + ceilMilliseconds pause) i

/-! ## Sweepers -/

/-- Sweep as often as it is due, at most so often; gives the nanosecond of the next sweep, if the
task is still alive. -/
def sweepWhileDue (place : SweeperPlace) (interval due : Nat) : Nat → Sim (Option Nat)
  | 0 => return some due
  | fuel + 1 => do
    let w ← get
    if due ≤ w.timer * 1000000 then
      match ← sweep place true true with
      | .failed => return none
      | _ =>
        match (← get).sweeper? place with
        | some (s, _, _) =>
          if s.isRunning then sweepWhileDue place interval (due + interval) fuel else return none
        | none => return none
    else return some due

/-- Intervals from this length on are too long to be counted. -/
def intervalBound : Nat := Nat.pow 2 63 * 1000000000

/-- The task of a sweeper.  An interval of no length, or of one that cannot be counted, makes it
fail at once. -/
def pollSweeping (i : Nat) (place : SweeperPlace) (due : Option Nat) : Sim Unit := do
  let w ← get
  match w.sweeper? place with
  | none => become i .over
  | some (s, _, _) =>
    let interval := s.interval.nanoseconds
    if interval = 0 ∨ intervalBound ≤ interval then
      setSweeper place (s.swept s.guard true)
      become i .over
    else
      let next ← sweepWhileDue place interval (due.getD (w.timer * 1000000 + interval)) longRun
      match next with
      | none => become i .over
      | some due =>
        setAlarm ((due + 999999) / 1000000) i
        become i (.sweeping place (some due))

/-! ## Responders -/

/-- A responder answers a request. -/
def pollResponding (i bus : Nat) (headers : Headers) (type : MessageType)
    (response : Except String Json) : Sim Unit := do
  let w ← get
  match w.buses.get? bus with
  | none => become i .over
  | some b =>
    let nativeHeaders := w.nativeHeaders b.bus.transport
    let result ← match b.bus.responseTo nativeHeaders headers type response with
      | .error cause => pure (.error cause)
      | .ok m => do
        let result ← produce b.bus.transport (← freshToken) m
        pure (result.mapError m.reported)
    record (.responded result)
    become i .over

/-! ## All activities -/

/-- An activity was woken. -/
def poll (i : Nat) : Sim Unit := do
  match (← get).activities.get? i with
  | none | some .over => pure ()
  | some (.forwarding task number token pauseEnd) => pollForwarder i task number token pauseEnd
  | some (.opening call bus draft) => openRequest i call bus draft
  | some (.requesting call bus r) => pollRequest i call bus r
  | some (.watching call token) =>
    if ← isCancelled token then
      complete call .cancelled
      become i .over
  | some (.submitting call processor token errand headers asked) =>
    pollSubmission i call processor token errand headers asked
  | some (.carrying processor token job begun ending) =>
    pollCarrier i processor token job begun ending
  | some (.working processor token job carrier stage) =>
    pollWork i processor token job carrier stage
  | some (.draining call processor since) => pollDraining i call processor since
  | some (.sweeping place due) => pollSweeping i place due
  | some (.responding bus headers type response) => pollResponding i bus headers type response

end Courier.Simulation
