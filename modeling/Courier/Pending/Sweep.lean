import Courier.Pending.Store

/-!
# Sweeps

A sweep gives up every request that has expired or whose token is cancelled: it resolves the slot,
tells the owner about each request whose outcome it won, and removes all of them from the store at
the end.  What the owner does when told may start further sweeps, so sweeps nest, and they are kept
on a stack.

A guarded sweep runs only if no other guarded sweep is active and the sweeper is not disposed.  A
sweep without the guard always runs.  An owner that fails ends all active sweeps at once: guards are
lifted, and what had been given up so far stays in the store.

`step` performs one action.  Every sweep visits the entries it found at its start, and an owner is
told only about outcomes that were won, so `fuel` steps always suffice.
-/

namespace Courier.Sweep

/-- What an owner does when it is told of a request that was given up. -/
inductive Reaction
  /-- Start a guarded sweep. -/
  | tick
  /-- Start a sweep without the guard. -/
  | clean
  /-- Dispose the sweeper. -/
  | dispose
  /-- Fail. -/
  | fail
deriving DecidableEq, Repr, Inhabited

/-- What is seen of a sweep from outside. -/
inductive Notice
  /-- The owner is told of a request. -/
  | timeout (request : Json)
  /-- A guarded sweep that the owner started has returned, and whether it ran. -/
  | tickReturned (ran : Bool)
deriving Repr, Inhabited

/-- The state that all sweeps of one sweeper share. -/
structure Guard where
  inProgress : Bool := false
  disposed : Bool := false
deriving DecidableEq, Repr, Inhabited

/-- An active sweep. -/
structure Frame where
  guarded : Bool
  /-- Whether an owner started it and will see its return. -/
  nested : Bool
  /-- What the owner has still to do about the request that was given up last. -/
  reactions : List Reaction := []
  remaining : List PendingRequest
  /-- The requests dealt with so far, last one first. -/
  processed : List RequestId := []

/-- Sweeps under way, innermost first, with everything they touch. -/
structure State where
  guard : Guard := {}
  store : PendingStore
  frames : List Frame := []
  /-- What has been seen so far, last first. -/
  notices : List Notice := []
  /-- Whether an owner failed. -/
  failed : Bool := false

/-- What a sweep reads and does not change. -/
structure Setting where
  now : Instant
  isCancelled : Token → Bool
  /-- What the owner does when told. -/
  owner : List Reaction
  /-- Whether there is an owner to be told. -/
  told : Bool

/-- A frame for the requests that are due now. -/
def frame (c : Setting) (guarded nested : Bool) (s : PendingStore) : Frame :=
  { guarded, nested, remaining := s.due c.isCancelled c.now }

/-- Start a guarded sweep, if one may run; says whether it does. -/
def startGuarded (c : Setting) (nested : Bool) (s : State) : State × Bool :=
  if s.guard.disposed || s.guard.inProgress then (s, false)
  else ({ s with guard := { s.guard with inProgress := true },
                 frames := frame c true nested s.store :: s.frames }, true)

/-- Start a sweep without the guard. -/
def startUnguarded (c : Setting) (nested : Bool) (s : State) : State :=
  { s with frames := frame c false nested s.store :: s.frames }

/-- One reaction of an owner. -/
def react (c : Setting) (s : State) : Reaction → State
  | .tick =>
    match startGuarded c true s with
    | (s, true) => s
    | (s, false) => { s with notices := .tickReturned false :: s.notices }
  | .clean => startUnguarded c true s
  | .dispose => { s with guard := { s.guard with disposed := true } }
  | .fail =>
    { s with
      failed := true
      guard := { s.guard with
        inProgress := s.guard.inProgress && !s.frames.any (·.guarded) }
      frames := [] }

/-- Why a request is given up. -/
def reason (c : Setting) (r : PendingRequest) : CancelReason :=
  if c.isCancelled r.token then .cancelled else .timedOut

/-- Give up one request. -/
def giveUp (c : Setting) (s : State) (f : Frame) (r : PendingRequest)
    (remaining : List PendingRequest) (below : List Frame) : State :=
  let (store, won) := s.store.resolve r.slot (.cancelled (reason c r))
  let tells := won && c.told
  { s with
    store
    notices := if tells then .timeout r.request :: s.notices else s.notices
    frames := { f with remaining, processed := r.id :: f.processed,
                       reactions := if tells then c.owner else [] } :: below }

/-- End a sweep whose requests have all been dealt with. -/
def close (s : State) (f : Frame) (below : List Frame) : State :=
  { s with
    store := s.store.removeAll f.processed.reverse
    guard := if f.guarded then { s.guard with inProgress := false } else s.guard
    notices := if f.guarded && f.nested then .tickReturned true :: s.notices else s.notices
    frames := below }

/-- One action of the innermost sweep, unless none is active. -/
def step (c : Setting) (s : State) : Option State :=
  match s.frames with
  | [] => none
  | f :: below =>
    match f.reactions with
    | a :: rest => some (react c { s with frames := { f with reactions := rest } :: below } a)
    | [] =>
      match f.remaining with
      | r :: rest => some (giveUp c s f r rest below)
      | [] => some (close s f below)

/-- Actions until no sweep is active, at most as many as given. -/
def run (c : Setting) (s : State) : Nat → State
  | 0 => s
  | fuel + 1 =>
    match step c s with
    | none => s
    | some s => run c s fuel

/-- Steps that suffice: an owner is told at most once for each unresolved slot, and every sweep that
it starts visits at most all entries. -/
def fuel (c : Setting) (s : PendingStore) : Nat :=
  let told := s.entries.length * c.owner.length
  (s.entries.length + 1) * (told + 1) + told + 1

/-- A guarded sweep from start to end; says whether it ran. -/
def tick (c : Setting) (g : Guard) (store : PendingStore) : State × Bool :=
  match startGuarded c false { guard := g, store } with
  | (s, true) => (run c s (fuel c store), true)
  | (s, false) => (s, false)

/-- A sweep without the guard from start to end. -/
def clean (c : Setting) (g : Guard) (store : PendingStore) : State :=
  run c (startUnguarded c false { guard := g, store }) (fuel c store)

end Courier.Sweep
