import Courier.Bus.Composite
import Courier.Bus.Lifecycle
import Courier.Bus.Request
import Courier.Bus.Response
import Courier.Outbox.Capture
import Courier.Processor.Bounded
import Courier.Simulation.Event
import Courier.Simulation.Named

/-!
# The state of a simulation

A simulation runs buses, outboxes, sweepers and processors together, on one thread and under two
clocks.  The clock says what time it is for everything that asks; it moves only when it is told to.
The timer counts milliseconds and drives pauses, periodic sweeps and delays.

What goes on beside the steps are activities.  An activity runs until it has to wait, and waits
until something wakes it; those that were woken run in the order in which they were.

Things refer to one another by their numbers.
-/

namespace Courier.Simulation

/-! ## Scripted partners -/

/-- A scripted publish interceptor: what it does with a publication, in the order of its fields. -/
structure Script where
  name : String
  /-- A token that it cancels. -/
  cancels : Option Token := none
  /-- A failure that it answers. -/
  fails : Option Failure := none
  setsHeader : Option (String × String) := none
  dropsHeader : Option String := none
  setsPath : Option String := none
  decision : Decision := .proceed
deriving Inhabited

/-- A publish interceptor: an outbox or a script. -/
inductive Interceptor
  | outbox (capture : Capture Nat)
  | scripted (script : Script)
deriving Inhabited

/-- An observer of a bus: a sending task or a script that may fail at an event. -/
inductive Observer
  | task (task : Nat)
  | scripted (name : String) (fails : Option (LifecycleEvent × Failure))
deriving Inhabited

/-- What happens when a transport has taken a message to a path. -/
inductive Reaction
  | nothing
  | cancel (token : Token)
  /-- The message is handed to a bus as a response. -/
  | route (bus : Nat)
  /-- The message is answered by a bus. -/
  | respond (bus : Nat) (type : MessageType) (response : Except String Json)
deriving Inhabited

/-- The handler of a path, with the word by which it is recorded. -/
structure Handler where
  kind : String
  reaction : Reaction
deriving Inhabited

/-- How a scripted message ends. -/
inductive Errand.Ending
  | succeeds
  | fails (cause : Failure)
  | breaksOff
  /-- It waits for its token and then fails as cancelled. -/
  | awaitsCancellation
deriving Inhabited

/-- A message for a scripted processor. -/
structure Errand where
  name : String
  /-- How long the work takes, in milliseconds. -/
  delay : Option Nat := none
  ending : Errand.Ending := .succeeds
  consumer : Option String := none
deriving Inhabited

/-! ## Things -/

/-- A slot in one of the stores. -/
structure SlotPlace where
  store : Nat
  slot : SlotIndex
deriving Inhabited

/-- What the owner of a sweeper does when it is told of a request; nobody is told if there
is none. -/
abbrev Owner := Option (List Sweep.Reaction)

/-- A sweeper that no bus owns. -/
structure Manager where
  sweeper : Sweeper
  store : Nat
  owner : Owner
deriving Inhabited

/-- A transport with its handlers and with what happens to the next messages. -/
structure TransportObject where
  name : String
  transport : MemoryTransport
  handlers : Dictionary Handler := []
  /-- For each of the next messages the failure, if it is to fail. -/
  effects : List (Option Failure) := []
deriving Inhabited

/-- The calls of a repository by kind. -/
inductive CallKind
  | migrate | save | tryToLock | findNextToSend | updateToSent | release | deleteSent
deriving DecidableEq, Inhabited

/-- What happens to the next call of a kind: it fails, or the clock moves after it. -/
structure CallEffect where
  kind : CallKind
  fails : Option Failure := none
  advances : Option Span := none
deriving Inhabited

/-- A repository with what happens to the next calls. -/
structure RepositoryObject where
  name : String
  repository : Repository
  effects : List CallEffect := []
deriving Inhabited

/-- A sending task over a repository. -/
structure TaskObject where
  task : SendingTask Nat
  repository : Nat
  /-- Whether it is referred to beside the buses that it observes. -/
  held : Bool := true

instance : Inhabited TaskObject := ⟨{ task := { settings := {}, inst := "" }, repository := 0 }⟩

/-- A bus over a store of pending requests. -/
structure BusObject where
  bus : Bus Nat Interceptor Observer
  store : Nat
  owner : Owner := none
  /-- Whether it is referred to beside its work in progress. -/
  held : Bool := true

instance : Inhabited BusObject :=
  ⟨{ bus := { name := none, transport := 0, serializer := .json, producers := [],
              requestResponse := none, publishInterceptors := [], observers := [],
              sweeper := default }
     store := 0 }⟩

/-- A processor of scripted messages, with how many of them are worked on and how many were
at most. -/
structure ProcessorObject where
  processor : Bounded Errand
  active : Nat := 0
  maxActive : Nat := 0

instance : Inhabited ProcessorObject :=
  ⟨{ processor := { concurrency := 2, concurrency_gt := Nat.one_lt_two, free := 2 } }⟩

/-- Refers to a sweeper. -/
inductive SweeperPlace
  | ofBus (bus : Nat)
  | ofManager (manager : Nat)
deriving DecidableEq, Inhabited

/-! ## Activities -/

/-- Where the work on a scripted message stands. -/
inductive WorkStage
  | fresh
  /-- It takes until this time of the timer. -/
  | delayed (due : Nat)
  /-- It waits for its token. -/
  | awaiting
deriving DecidableEq, Inhabited

/-- What goes on beside the steps. -/
inductive Activity
  /-- A forwarder of a sending task; in a pause, with the end of the pause. -/
  | forwarding (task number : Nat) (token : Token) (pauseEnd : Option Nat)
  /-- A request that has not been looked at yet. -/
  | opening (call : String) (bus : Nat) (draft : RequestDraft)
  /-- A request that waits for its outcome. -/
  | requesting (call : String) (bus : Nat) (request : Request)
  /-- A call that waits for a token. -/
  | watching (call : String) (token : Token)
  /-- A call of a processor, and whether it has asked for its permit. -/
  | submitting (call : String) (processor : Nat) (token : Token) (errand : Errand)
    (headers : Headers) (asked : Bool)
  /-- A message in the background; its ending, once the work is over. -/
  | carrying (processor : Nat) (token : Token) (job : Background Errand) (begun : Bool)
    (ending : Option Ending)
  /-- The work on a message in the background, for the activity that carries it. -/
  | working (processor : Nat) (token : Token) (job : Background Errand) (carrier : Nat)
    (stage : WorkStage)
  /-- A call that waits until a processor has an empty background, since this time of the timer. -/
  | draining (call : String) (processor : Nat) (since : Nat)
  /-- The task of a sweeper; with the nanosecond of the next sweep, once it has begun. -/
  | sweeping (place : SweeperPlace) (due : Option Nat)
  /-- A responder that answers a request. -/
  | responding (bus : Nat) (headers : Headers) (type : MessageType)
    (response : Except String Json)
  | over
deriving Inhabited

namespace Activity

/-- Whether the activity goes on when a token is cancelled. -/
def waitsForToken (k : Token) : Activity → Bool
  | forwarding _ _ token (some _) => token == k
  | requesting _ _ request => request.token == k
  | watching _ token => token == k
  | submitting _ _ token _ _ _ => token == k
  | working _ token _ _ .awaiting => token == k
  | _ => false

/-- The bus that the activity keeps alive. -/
def bus? : Activity → Option Nat
  | opening _ bus _ => some bus
  | requesting _ bus _ => some bus
  | responding bus .. => some bus
  | _ => none

end Activity

/-! ## The world -/

/-- Everything that a simulation consists of. -/
structure World where
  /-- What time it is. -/
  clock : Instant
  /-- How many milliseconds the timer has run. -/
  timer : Nat := 0
  tokens : Tokens := {}
  tokenNames : Dictionary Token := []
  slots : Named Slot := {}
  stores : Named PendingStore := {}
  /-- For every name of a store and every id the slot of the request that was added last. -/
  awaited : Dictionary (Dictionary SlotPlace) := []
  managers : Named Manager := {}
  transports : Named TransportObject := {}
  repositories : Named RepositoryObject := {}
  tasks : Named TaskObject := {}
  buses : Named BusObject := {}
  composites : Dictionary (Composite Nat) := []
  processors : Named ProcessorObject := {}
  /-- All activities so far; the calls among them have names. -/
  activities : Named Activity := {}
  /-- The activities that have been woken, in order. -/
  ready : List Nat := []
  /-- Times of the timer at which activities are woken. -/
  alarms : List (Nat × Nat) := []
  /-- What has been seen during the present step, last first. -/
  report : Report := {}
  /-- Ids of requests that a transport was given, oldest first. -/
  requestIds : List String := []
  /-- Ids of rows that were drawn, oldest first. -/
  rowIds : List RowId := []
  /-- Names of instances that were drawn, oldest first. -/
  instances : List String := []
  /-- How many ids have been drawn. -/
  drawn : Nat := 0

/-- A computation in a simulation. -/
abbrev Sim := StateM World

namespace World

/-- A simulation in which nothing has happened yet. -/
def initial (clock : Instant) : World := { clock }

/-- Whether a bus is alive: something refers to it. -/
def isBusAlive (w : World) (i : Nat) : Bool :=
  ((w.buses.get? i).any (·.held)) || w.composites.any (fun c => c.2.buses.contains i) ||
    w.activities.items.any fun a => a.bus? == some i

/-- Whether a store is alive: it has a name, or a sweeper or a bus that is alive uses it. -/
def isStoreAlive (w : World) (i : Nat) : Bool :=
  (w.stores.names.any fun n => n.2 == i) ||
    (w.managers.names.any fun n => (w.managers.get? n.2).any fun m => m.store == i) ||
    (List.range w.buses.items.length).any fun b =>
      (w.buses.get? b).any (fun o => o.store == i) && w.isBusAlive b

/-- Whether a bus tells a sending task about itself. -/
def observes (task : Nat) (b : BusObject) : Bool :=
  b.bus.observers.any fun
    | .task t => t == task
    | .scripted .. => false

/-- Whether a sending task is alive: it is referred to, by itself or by a bus that is alive. -/
def isTaskAlive (w : World) (i : Nat) : Bool :=
  ((w.tasks.get? i).any (·.held)) ||
    (List.range w.buses.items.length).any fun b =>
      (w.buses.get? b).any (observes i) && w.isBusAlive b

end World

/-! ## Small steps -/

/-- Record an event. -/
def record (e : Event) : Sim Unit :=
  modify fun w => { w with report := { w.report with events := e :: w.report.events } }

/-- Record that a call has ended. -/
def complete (call : String) (c : Completion) : Sim Unit :=
  modify fun w =>
    { w with report := { w.report with completions := (call, c) :: w.report.completions } }

/-- Record that the owner of a sweeper was told of a request. -/
def tellTimeout (request : Json) : Sim Unit :=
  modify fun w => { w with report := { w.report with timeouts := request :: w.report.timeouts } }

/-- Whether a token is cancelled. -/
def isCancelled (k : Token) : Sim Bool := return (← get).tokens.isCancelled k

/-- A token that nobody else knows. -/
def freshToken : Sim Token :=
  modifyGet fun w => let (k, tokens) := w.tokens.fresh; (k, { w with tokens })

/-- The bits of a new id. -/
def drawId : Sim RowId :=
  modifyGet fun w =>
    (⟨BitVec.ofNat 128 (0x7d3a91c45e0f4b6ea2c8f10000000000 + w.drawn)⟩,
      { w with drawn := w.drawn + 1 })

/-- The id of a new request. -/
def drawRequestId : Sim RequestId := return ⟨String.ofList (← drawId).digits⟩

/-- The id of a new row. -/
def drawRowId : Sim RowId := do
  let id ← drawId
  modify fun w => { w with rowIds := w.rowIds ++ [id] }
  return id

/-- The name of a new instance. -/
def drawInstance : Sim String := do
  let name := String.ofList (← drawId).digits
  modify fun w => { w with instances := w.instances ++ [name] }
  return name

/-! ## Waking -/

/-- Wake an activity, unless it is awake already. -/
def wake (i : Nat) : Sim Unit :=
  modify fun w => if w.ready.contains i then w else { w with ready := w.ready ++ [i] }

/-- Wake all activities of a kind. -/
def wakeAll (p : Activity → Bool) : Sim Unit := do
  let activities := (← get).activities.items
  for i in List.range activities.length do
    if activities[i]?.any p then wake i

/-- Begin an activity; gives its number. -/
def spawn (a : Activity) : Sim Nat := do
  let (activities, i) := (← get).activities.add a
  modify fun w => { w with activities }
  wake i
  return i

/-- An activity goes on like this. -/
def become (i : Nat) (a : Activity) : Sim Unit :=
  modify fun w => { w with activities := w.activities.set i a }

/-- Wake an activity at a time of the timer. -/
def setAlarm (due i : Nat) : Sim Unit :=
  modify fun w => { w with alarms := w.alarms ++ [(due, i)] }

/-- Whole milliseconds that last at least as long as a span. -/
def ceilMilliseconds (d : Span) : Nat := (d.nanoseconds + 999999) / 1000000

/-- Cancel a token. -/
def cancelToken (k : Token) : Sim Unit := do
  modify fun w => { w with tokens := w.tokens.cancel k }
  wakeAll (Activity.waitsForToken k)

end Courier.Simulation
