import Courier.Simulation.Schedule

/-!
# Steps: clock, tokens and slots

Steps that move the clock, use tokens and slots, and begin and drop calls that run beside the steps.
-/

namespace Courier.Simulation

/-! ## Clock -/

/-- Move the clock forward; gives the new time. -/
def advance (d : Span) : Sim Instant :=
  modifyGet fun w => let clock := w.clock.add d; (clock, { w with clock })

/-- Set the clock; gives the new time. -/
def setClock (t : Instant) : Sim Instant := modifyGet fun w => (t, { w with clock := t })

/-- What time it is. -/
def now : Sim Instant := return (← get).clock

/-! ## Tokens -/

/-- The token of a name; it comes to be when it is first named. -/
def tokenNamed (name : String) : Sim Token := do
  match (← get).tokenNames.find? name with
  | some k => return k
  | none =>
    let k ← freshToken
    modify fun w => { w with tokenNames := w.tokenNames.insert name k }
    return k

/-- The token of a name, or one that nobody knows. -/
def tokenOr (name : Option String) : Sim Token :=
  match name with
  | some name => tokenNamed name
  | none => freshToken

/-- The token of a name, if it has come to be. -/
def token? (name : String) : Sim (Option Token) := return (← get).tokenNames.find? name

/-- Give a token a second name. -/
def renameToken (name other : String) : Sim Unit := do
  let k ← tokenNamed name
  modify fun w => { w with tokenNames := w.tokenNames.insert other k }

/-! ## Calls -/

/-- Begin a call that runs beside the steps. -/
def beginCall (name : String) (a : Activity) : Sim Unit := do
  let i ← spawn a
  modify fun w => { w with activities := w.activities.name name i }

/-- Wait for a token. -/
def watchToken (call : String) (k : Token) : Sim Unit := beginCall call (.watching call k)

/-- Drop a call; it will not end. -/
def abort (call : String) : Sim Unit := do
  let w ← get
  match w.activities.number? call with
  | none => pure ()
  | some i =>
    match w.activities.get? i with
    | some (.requesting _ bus r) =>
      match w.buses.get? bus with
      | some b => updateStore b.store fun s => s.abandon r.slot
      | none => pure ()
    | some (.submitting _ processor _ _ _ true) =>
      modifyProcessor processor fun p => p.withdraw i
      wakeGranted processor
    | _ => pure ()
    become i .over

/-! ## Slots -/

/-- Make a slot. -/
def makeSlot (name : String) : Sim Unit :=
  modify fun w =>
    let (slots, i) := w.slots.add {}
    { w with slots := slots.name name i }

/-- Work with the slot of a name. -/
def withSlot {α : Type} (name : String) (default : α) (f : Slot → Slot × α) : Sim α :=
  modifyGet fun w =>
    match w.slots.number? name with
    | none => (default, w)
    | some i =>
      let (s, x) := f ((w.slots.get? i).getD {})
      (x, { w with slots := w.slots.set i s })

/-- Resolve a slot; says whether this outcome won. -/
def resolveSlot (name : String) (o : Outcome) : Sim Bool :=
  withSlot name false fun s => s.resolve o

/-- Whether a slot is resolved. -/
def isSlotResolved (name : String) : Sim Bool :=
  withSlot name false fun s => (s, s.isResolved)

/-- Take the outcome of a slot. -/
def receiveSlot (name : String) : Sim Received :=
  withSlot name .dropped Slot.receive

/-- The waiting side of a slot goes away. -/
def abandonSlot (name : String) : Sim Unit :=
  withSlot name () fun s => (s.abandon, ())

end Courier.Simulation
