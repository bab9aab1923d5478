import Courier.Config.Tree
import Courier.Settings

/-!
# Records in configurations

The settings that a configuration tree holds.  A record is a table, whose unknown keys do not
matter, or a list of its fields from the first one on.  Fields that are left out have their default.
-/

namespace Courier.Config

/-- A field of a record: how its value is put into the record. -/
structure Field (σ : Type) where
  name : String
  read : σ → Tree → Option σ

/-- A field that is replaced when it is given. -/
def Field.of {σ α : Type} (name : String) (read : Tree → Option α) (set : σ → α → σ) : Field σ :=
  ⟨name, fun state t => (read t).map (set state)⟩

/-- Read a record. -/
def record {σ : Type} (fields : List (Field σ)) (start : σ) : Tree → Option σ
  | .table entries =>
    entries.foldlM (fun state e =>
      match fields.find? fun f => f.name == e.1 with
      | none => some state
      | some f => f.read state e.2) start
  | .list items => (fields.zip items).foldlM (fun state e => e.1.read state e.2) start
  | _ => none

/-- A span: a whole number of milliseconds. -/
def milliseconds? (t : Tree) : Option Span := t.natural?.map Span.ofMilliseconds

/-- A record that may be left out. -/
def optional? {α : Type} (read : Tree → Option α) : Tree → Option (Option α)
  | .nothing => some none
  | t => (read t).map some

/-- The settings of request/response. -/
def requestResponse? : Tree → Option RequestResponseSettings :=
  record [
    .of "path" Tree.text? fun s p => { s with path := p },
    .of "timeout_ms" milliseconds? fun s d => { s with timeout := d }] {}

/-- The settings of pending requests. -/
def pendingRequests? : Tree → Option PendingRequestSettings :=
  record [.of "sweep_interval_ms" milliseconds? fun s d => { s with sweepInterval := d }] {}

/-- The settings of the cleanup. -/
def cleanup? : Tree → Option CleanupSettings :=
  record [
    .of "enabled" Tree.truth? fun s b => { s with enabled := b },
    .of "interval_ms" milliseconds? fun s d => { s with interval := d },
    .of "age_ms" milliseconds? fun s d => { s with age := d }] {}

/-- The settings of the outbox. -/
def outbox? : Tree → Option OutboxSettings :=
  record [
    .of "poll_batch_size" Tree.natural? fun s n => { s with pollBatchSize := n },
    .of "poll_idle_sleep_ms" milliseconds? fun s d => { s with pollIdleSleep := d },
    .of "lock_expiration_ms" milliseconds? fun s d => { s with lockExpiration := d },
    .of "lock_expiration_buffer_ms" milliseconds? fun s d => { s with lockExpirationBuffer := d },
    .of "message_cleanup" cleanup? fun s c => { s with cleanup := c }] {}

/-- The settings of the runtime as a whole. -/
def runtime? : Tree → Option RuntimeConfig :=
  record [
    .of "request_response" (optional? requestResponse?) fun c s => { c with requestResponse := s },
    .of "pending_requests" pendingRequests? fun c s => { c with pendingRequests := s },
    .of "outbox" outbox? fun c s => { c with outbox := s }] {}

end Courier.Config
