import Courier.Message.Basic
import Courier.Text.Described

/-!
# Transports

A transport takes messages to paths.  The one kept in memory records what it is given; paths can be
made to fail, and a path can have a handler that is told of every message recorded for it.
-/

namespace Courier

/-- A message on its way to a path. -/
structure TransportMessage where
  messageType : MessageType
  path : String
  payload : Bytes
  headers : Headers := []
deriving DecidableEq, Repr, Inhabited

/-- A transport that records its messages, oldest first. -/
structure MemoryTransport where
  /-- Whether headers travel beside the payload. -/
  nativeHeaders : Bool := true
  produced : List TransportMessage := []
  failingPaths : List String := []
deriving Repr, Inhabited

namespace MemoryTransport

/-- Take a message, unless the operation is cancelled or the path is made to fail. -/
def produce (t : MemoryTransport) (isCancelled : Bool) (m : TransportMessage) :
    Except Failure MemoryTransport :=
  if isCancelled then .error .cancelled
  else if t.failingPaths.contains m.path then
    .error (.produceFailed m.path m.messageType.name "path is configured to fail")
  else .ok { t with produced := t.produced ++ [m] }

/-- Make a path fail. -/
def failPath (t : MemoryTransport) (path : String) : MemoryTransport :=
  { t with failingPaths := path :: t.failingPaths }

/-- Let all paths work again. -/
def clearFailures (t : MemoryTransport) : MemoryTransport := { t with failingPaths := [] }

/-- The messages of a path. -/
def producedTo (t : MemoryTransport) (path : String) : List TransportMessage :=
  t.produced.filter fun m => m.path == path

/-- The transport in words. -/
def describe (t : MemoryTransport) : String :=
  Text.describedRecord "InMemoryTransport"
    [("produced", toString t.produced.length), ("native_headers", toString t.nativeHeaders)]

end MemoryTransport
end Courier
