import Courier.Failure
import Courier.Outbox.Row
import Courier.Text.Described

/-!
# The outbox repository

A repository keeps rows in the order of their capture.  Each operation is one conditional update of
all rows, so a lease is granted to at most one instance.  Operations refuse to work under a
cancelled token; what they do otherwise is said by the functions on rows alone.

`lock` and `find` take a prefix of at most one batch from the rows that qualify.
-/

namespace Courier

/-- Rows in the order of their capture. -/
structure Repository where
  rows : List Row := []
  /-- The most rows that are leased or read at once. -/
  batchSize : Nat
  batchSize_pos : 0 < batchSize

namespace Repository

/-- An empty repository; a batch has at least one row. -/
def empty (batchSize : Nat) : Repository :=
  { batchSize := max batchSize 1, batchSize_pos := by omega }

instance : Inhabited Repository := ⟨empty 1⟩

/-! ## Updates of rows -/

/-- Lease the first rows that qualify, at most `n` of them; gives the rows and how many it were. -/
def lockRows (inst : String) (expires now : Instant) : Nat → List Row → List Row × Nat
  | 0, rows => (rows, 0)
  | _, [] => ([], 0)
  | n + 1, r :: rest =>
    if r.claimableBy inst now then
      let (rest, count) := lockRows inst expires now n rest
      (r.leased inst expires :: rest, count + 1)
    else
      let (rest, count) := lockRows inst expires now (n + 1) rest
      (r :: rest, count)

/-- The first rows leased to an instance, at most `n` of them. -/
def leasedRows (inst : String) (now : Instant) (n : Nat) (rows : List Row) : List Row :=
  (rows.filter fun r => r.leasedTo inst now).take n

/-- Mark rows as delivered. -/
def deliverRows (ids : List RowId) (now : Instant) (rows : List Row) : List Row :=
  rows.map fun r => if ids.contains r.id then r.delivered now else r

/-- Give rows back that are leased to an instance. -/
def releaseRows (inst : String) (ids : List RowId) (retryAfter now : Instant) (rows : List Row) :
    List Row :=
  rows.map fun r =>
    if ids.contains r.id && r.leasedTo inst now then r.released inst retryAfter else r

/-- Whether a cleanup removes a row. -/
def isExpendable (olderThan : Instant) (r : Row) : Bool :=
  r.isSent && decide (r.timestamp < olderThan)

/-- The rows that a cleanup leaves. -/
def retainedRows (olderThan : Instant) (rows : List Row) : List Row :=
  rows.filter fun r => !isExpendable olderThan r

/-! ## Operations -/

/-- Refuse to work under a cancelled token. -/
def unlessCancelled {α : Type} (isCancelled : Bool) (x : α) : Except Failure α :=
  if isCancelled then .error .cancelled else .ok x

/-- Store a captured message behind all others. -/
def save (s : Repository) (isCancelled : Bool) (r : Row) : Except Failure Repository :=
  unlessCancelled isCancelled { s with rows := s.rows ++ [r] }

/-- Lease up to one batch to an instance; gives how many rows it were. -/
def tryToLock (s : Repository) (isCancelled : Bool) (now : Instant) (inst : String)
    (expires : Instant) : Except Failure (Repository × Nat) :=
  let (rows, count) := lockRows inst expires now s.batchSize s.rows
  unlessCancelled isCancelled ({ s with rows }, count)

/-- Up to one batch of the rows leased to an instance, oldest first. -/
def findNextToSend (s : Repository) (isCancelled : Bool) (now : Instant) (inst : String) :
    Except Failure (List Row) :=
  unlessCancelled isCancelled (leasedRows inst now s.batchSize s.rows)

/-- Mark rows as sent. -/
def updateToSent (s : Repository) (isCancelled : Bool) (now : Instant) (ids : List RowId) :
    Except Failure Repository :=
  unlessCancelled isCancelled { s with rows := deliverRows ids now s.rows }

/-- Give rows back without marking them sent. -/
def release (s : Repository) (isCancelled : Bool) (now : Instant) (inst : String)
    (ids : List RowId) (retryAfter : Instant) : Except Failure Repository :=
  unlessCancelled isCancelled { s with rows := releaseRows inst ids retryAfter now s.rows }

/-- Remove sent rows captured before a time; gives how many it were. -/
def deleteSent (s : Repository) (isCancelled : Bool) (olderThan : Instant) :
    Except Failure (Repository × Nat) :=
  let rows := retainedRows olderThan s.rows
  unlessCancelled isCancelled ({ s with rows }, s.rows.length - rows.length)

/-- Prepare the repository. -/
def migrate (s : Repository) (isCancelled : Bool) : Except Failure Repository :=
  unlessCancelled isCancelled s

/-- How many rows are not sent yet. -/
def unsentCount (s : Repository) : Nat := (s.rows.filter fun r => !r.isSent).length

/-- The repository in words. -/
def describe (s : Repository) : String :=
  Text.describedRecord "InMemoryOutboxRepository"
    [("batch_size", toString s.batchSize), ("unsent", toString s.unsentCount)]

end Repository
end Courier
