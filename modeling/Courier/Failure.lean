import Courier.Json.Reader

/-!
# Failures

Every operation of the runtime fails for one of the causes below.  The wording is one function of
the cause, and so are the two questions that callers ask: whether another attempt may succeed, and
whether the operation was cancelled rather than broken.
-/

namespace Courier

/-- Why a message cannot be turned into bytes or back. -/
inductive SerializationFailure
  /-- The JSON text is at fault. -/
  | json (fault : Json.Fault)
  /-- There is nothing to read. -/
  | emptyPayload (messageType : String)
  /-- A header does not hold what it has to. -/
  | invalidHeader (key : String)
deriving DecidableEq, Repr, Inhabited

/-- Why a bus or one of its parts cannot be set up or used as it is set up. -/
inductive ConfigurationFailure
  | invalid (message : String)
  | missing (key : String)
  /-- A configuration source cannot be read. -/
  | unreadable (message : String)
  | duplicateProducer (messageType : String)
  | unknownProducer (messageType : String)
  | missingDefaultPath (messageType : String)
  | requestResponseNotConfigured
  | busNotActive
deriving DecidableEq, Repr, Inhabited

/-- Why an argument is refused. -/
inductive ValidationFailure
  | required (field : String)
deriving DecidableEq, Repr, Inhabited

/-- The cause of a failed operation. -/
inductive Failure
  | duplicateRequest (requestId : String)
  | produceFailed (path messageType message : String)
  | requestFaulted (message : String)
  | requestTimeout (requestId : String)
  | cancelled
  | processingFailed (message : String)
  | repository (message : String)
  | serialization (cause : SerializationFailure)
  | configuration (cause : ConfigurationFailure)
  | validation (cause : ValidationFailure)
deriving DecidableEq, Repr, Inhabited

/-- What stands for the position and reason of a fault in a JSON text. -/
def Json.faultText : String := "<json>"

/-- The wording of a serialization failure. -/
def SerializationFailure.message : SerializationFailure → String
  | .json _ => "JSON serialization failed: " ++ Json.faultText
  | .emptyPayload t => "Payload for message type " ++ t ++ " is empty"
  | .invalidHeader key => "Header '" ++ key ++ "' has invalid value"

/-- The wording of a configuration failure. -/
def ConfigurationFailure.message : ConfigurationFailure → String
  | .invalid m => "Invalid configuration: " ++ m
  | .missing key => "Missing required configuration: " ++ key
  | .unreadable m => "Configuration parsing failed: " ++ m
  | .duplicateProducer t =>
    "The produced message type '" ++ t ++ "' was declared more than once"
  | .unknownProducer t =>
    "Message type '" ++ t ++ "' was not declared as a produced message on this bus"
  | .missingDefaultPath t =>
    "No path given for message type '" ++ t ++ "' and no default path is configured"
  | .requestResponseNotConfigured => "Request/response is not configured for this bus"
  | .busNotActive => "The message bus is not active (disposing or disposed)"

/-- The wording of a validation failure. -/
def ValidationFailure.message : ValidationFailure → String
  | .required field => "Required field missing: " ++ field

namespace Failure

/-- The wording of a failure. -/
def message : Failure → String
  | .duplicateRequest id => "Request '" ++ id ++ "' is already registered as pending"
  | .produceFailed path type m =>
    "Failed to produce message of type " ++ type ++ " to '" ++ path ++ "': " ++ m
  | .requestFaulted m => "Request handler faulted: " ++ m
  | .requestTimeout id => "Request '" ++ id ++ "' timed out"
  | .cancelled => "Operation was cancelled"
  | .processingFailed m => "Message processing failed: " ++ m
  | .repository m => "Outbox repository error: " ++ m
  | .serialization c => "Serialization failed: " ++ c.message
  | .configuration c => "Configuration error: " ++ c.message
  | .validation c => "Validation error: " ++ c.message

/-- Whether the operation may be attempted again. -/
def isTransient : Failure → Bool
  | .produceFailed .. | .requestTimeout _ | .processingFailed _ | .repository _ => true
  | _ => false

/-- Whether the operation was cancelled. -/
def isCancellation : Failure → Bool
  | .cancelled => true
  | _ => false

/-- A handler's error with the contexts it passed through, first cause first, is reported with the
outermost context in front. -/
def ofChain (causes : List String) : Failure :=
  .processingFailed (": ".intercalate causes.reverse)

/-- An invalid setting. -/
def invalid (message : String) : Failure := .configuration (.invalid message)

end Failure
end Courier
