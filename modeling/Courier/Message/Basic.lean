import Courier.Bytes
import Courier.Dictionary
import Courier.Failure

/-!
# Messages

A message has a type, which is a name, and headers, which are texts under names.  A few header
names belong to the bus itself.
-/

namespace Courier

/-- The type of a message, by name. -/
structure MessageType where
  name : String
deriving DecidableEq, Repr, Inhabited

namespace MessageType

/-- The characters before the first double colon. -/
def beforeColons : List Char → List Char
  | ':' :: ':' :: _ => []
  | c :: rest => c :: beforeColons rest
  | [] => []

/-- The name after its last double colon. -/
def shortName (t : MessageType) : String :=
  String.ofList (beforeColons t.name.toList.reverse).reverse

end MessageType

/-- What identifies a request while its response is awaited. -/
structure RequestId where
  text : String
deriving DecidableEq, Repr, Inhabited

/-- The request id with this text; the empty text is none. -/
def RequestId.ofText (text : String) : Except ValidationFailure RequestId :=
  if text.isEmpty then .error (.required "request_id") else .ok ⟨text⟩

/-- The headers of a message. -/
abbrev Headers := Dictionary String

/-! ## Header names of the bus -/

/-- Relates a response to its request. -/
def requestIdHeader : String := "RequestId"

/-- The instant from which on nobody awaits the response. -/
def expiresHeader : String := "Expires"

/-- Where the response has to go. -/
def replyToHeader : String := "ReplyTo"

/-- The error of a request that could not be handled. -/
def errorHeader : String := "Error"

/-- Marks a message that an outbox forwards, so that no outbox captures it. -/
def skipOutboxHeader : String := "SkipOutbox"

end Courier
