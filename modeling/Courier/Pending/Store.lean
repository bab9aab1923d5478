import Courier.Cancellation
import Courier.Message.Basic
import Courier.Pending.Slot
import Courier.Time.Instant

/-!
# Pending requests

A store holds the requests that await a response, each with its expiry, its token and its slot.
Slots outlive their entries: whoever waits for an outcome may take it after the entry is gone.
-/

namespace Courier

/-- The place of a slot in a store. -/
abbrev SlotIndex := Nat

/-- A request that awaits its response. -/
structure PendingRequest where
  id : RequestId
  request : Json
  requestType : MessageType
  responseType : MessageType
  created : Instant
  expires : Instant
  token : Token
  slot : SlotIndex
  /-- Whether the sender keeps the slot open while it waits. -/
  keptBySender : Bool := false

/-- The pending requests, oldest first, and all slots ever made for them. -/
structure PendingStore where
  entries : List PendingRequest := []
  slots : List Slot := []

instance : Inhabited PendingStore := ⟨{}⟩

namespace PendingRequest

/-- Whether a sweep has to give up the request: it has expired, or its token is cancelled. -/
def isDue (r : PendingRequest) (isCancelled : Token → Bool) (now : Instant) : Bool :=
  decide (r.expires ≤ now) || isCancelled r.token

end PendingRequest

namespace PendingStore

/-- The slot at a place. -/
def slot (s : PendingStore) (i : SlotIndex) : Slot := s.slots.getD i default

/-- Change the slot at a place. -/
def setSlot (s : PendingStore) (i : SlotIndex) (x : Slot) : PendingStore :=
  { s with slots := s.slots.set i x }

/-- A new slot. -/
def newSlot (s : PendingStore) : PendingStore × SlotIndex :=
  ({ s with slots := s.slots ++ [{}] }, s.slots.length)

/-- The request with this id. -/
def find? (s : PendingStore) (id : RequestId) : Option PendingRequest :=
  s.entries.find? fun r => r.id == id

/-- How many requests are pending. -/
def count (s : PendingStore) : Nat := s.entries.length

/-- Add a request; an id can be pending only once. -/
def add (s : PendingStore) (r : PendingRequest) : Except Failure PendingStore :=
  match s.find? r.id with
  | some _ => .error (.duplicateRequest r.id.text)
  | none => .ok { s with entries := s.entries ++ [r] }

/-- What becomes of a slot when its entry leaves the store: unless the sender keeps it open nobody
can resolve it any more. -/
def release (s : PendingStore) (r : PendingRequest) : PendingStore :=
  if r.keptBySender then s else s.setSlot r.slot (s.slot r.slot).close

/-- Remove the request with this id, if it is there. -/
def remove (s : PendingStore) (id : RequestId) : PendingStore :=
  match s.find? id with
  | none => s
  | some r => { s.release r with entries := s.entries.filter fun e => e.id != id }

/-- Remove all requests with these ids. -/
def removeAll (s : PendingStore) (ids : List RequestId) : PendingStore := ids.foldl remove s

/-- The requests that a sweep has to give up. -/
def due (s : PendingStore) (isCancelled : Token → Bool) (now : Instant) : List PendingRequest :=
  s.entries.filter fun r => r.isDue isCancelled now

/-- Resolve a slot; says whether this outcome won. -/
def resolve (s : PendingStore) (i : SlotIndex) (o : Outcome) : PendingStore × Bool :=
  let (x, won) := (s.slot i).resolve o
  (s.setSlot i x, won)

/-- Take the outcome of a slot. -/
def receive (s : PendingStore) (i : SlotIndex) : PendingStore × Received :=
  let (x, r) := (s.slot i).receive
  (s.setSlot i x, r)

/-- The waiting side of a slot goes away. -/
def abandon (s : PendingStore) (i : SlotIndex) : PendingStore :=
  s.setSlot i (s.slot i).abandon

end PendingStore
end Courier
