import Courier.Bus.Publish
import Courier.Outbox.Call
import Courier.Processor.Result

/-!
# What a simulation shows

While buses, outboxes and processors run in a simulation, their scripted partners record what they
see.  A report holds what was recorded during one step.
-/

namespace Courier.Simulation

/-- Something that a scripted partner saw. -/
inductive Event
  /-- A transport took or refused a message. -/
  | produced (transport : String) (type : MessageType) (path : String)
    (result : Except Failure Unit)
  /-- The handler of a path was given a message. -/
  | handled (kind path : String)
  /-- A response could not be handed to its bus. -/
  | unroutable (cause : Failure)
  /-- A responder has answered a request. -/
  | responded (result : Except Failure Unit)
  /-- A repository answered a call of an outbox. -/
  | called (repository : String) (call : RepositoryCall) (answer : RepositoryAnswer)
  /-- An owner that was told of a request started a sweep. -/
  | swept (ran : Bool)
  /-- An interceptor was offered a publication. -/
  | offered (interceptor : String) (p : Publication)
  /-- An observer was told about a bus. -/
  | told (observer : String) (event : LifecycleEvent) (busName : Option String)
  /-- A processor began to work on a message. -/
  | began (name : String) (headers : Headers)
  /-- A processor has come to the end of its work on a message. -/
  | finished (name : String)

/-- What a call that runs beside the steps has come to. -/
inductive Completion
  /-- The token that it waited for was cancelled. -/
  | cancelled
  /-- The response to a request. -/
  | response (result : Except Failure Json)
  /-- A message was accepted or refused. -/
  | processed (result : ProcessResult)
  /-- The background was seen empty after so many milliseconds. -/
  | waited (milliseconds : Nat)

/-- What was seen during one step. -/
structure Report where
  /-- In order of occurrence. -/
  events : List Event := []
  /-- The calls that ended, by name. -/
  completions : List (String × Completion) := []
  /-- The requests whose owners were told that they are given up. -/
  timeouts : List Json := []
deriving Inhabited

end Courier.Simulation
