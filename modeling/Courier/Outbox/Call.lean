import Courier.Outbox.Repository

/-!
# Calls of a repository

The calls that instances make of a repository as data, so that calls of several instances can be put
into one sequence.  `perform` carries a call out; a call that fails leaves the repository as it is.
-/

namespace Courier

/-- A call of a repository. -/
inductive RepositoryCall
  | migrate
  | save (row : Row)
  | tryToLock (inst : String) (expires : Instant)
  | findNextToSend (inst : String)
  | updateToSent (ids : List RowId)
  | release (inst : String) (ids : List RowId) (retryAfter : Instant)
  | deleteSent (olderThan : Instant)

/-- The answer to a call. -/
inductive RepositoryAnswer
  | done
  | count (n : Nat)
  | rows (rows : List Row)
  | failed (cause : Failure)

namespace Repository

/-- Keep the repository if a call fails. -/
def settle {α : Type} (s : Repository) (answer : α → Repository × RepositoryAnswer) :
    Except Failure α → Repository × RepositoryAnswer
  | .ok x => answer x
  | .error cause => (s, .failed cause)

/-- Carry out a call. -/
def perform (s : Repository) (isCancelled : Bool) (now : Instant) :
    RepositoryCall → Repository × RepositoryAnswer
  | .migrate => s.settle (fun s => (s, .done)) (s.migrate isCancelled)
  | .save row => s.settle (fun s => (s, .done)) (s.save isCancelled row)
  | .tryToLock inst expires =>
    s.settle (fun r => (r.1, .count r.2)) (s.tryToLock isCancelled now inst expires)
  | .findNextToSend inst =>
    s.settle (fun rows => (s, .rows rows)) (s.findNextToSend isCancelled now inst)
  | .updateToSent ids => s.settle (fun s => (s, .done)) (s.updateToSent isCancelled now ids)
  | .release inst ids retryAfter =>
    s.settle (fun s => (s, .done)) (s.release isCancelled now inst ids retryAfter)
  | .deleteSent olderThan =>
    s.settle (fun r => (r.1, .count r.2)) (s.deleteSent isCancelled olderThan)

end Repository
end Courier
