import Courier.Failure
import Courier.Json.Printer
import Courier.Json.Record
import Courier.Text.Blank
import Courier.Time.Span

/-!
# Settings

The settings of request/response, of the sweeper, of the outbox loop and of its cleanup.  In
documents every span is a number of whole milliseconds, fields that are left out have their
default, and a record may also be written as a list of its fields.
-/

namespace Courier

/-- A span in a document: whole milliseconds of 64 bits. -/
def Json.milliseconds : Json.Reader Span := fun s =>
  match Json.natural (Nat.pow 2 64) s with
  | .error f => .error f
  | .ok (n, rest) => .ok (Span.ofMilliseconds n, rest)

/-- A field that is replaced when it is given. -/
def Json.setting {σ α : Type} (name : String) (read : Json.Reader α) (put : σ → α → σ) :
    Json.Field σ :=
  ⟨name, fun state s =>
    match read s with
    | .error f => .error f
    | .ok (x, rest) => .ok (put state x, rest), true⟩

/-! ## Request and response -/

/-- How a bus awaits responses. -/
structure RequestResponseSettings where
  /-- Where responses are received; it is sent along as the address to reply to. -/
  path : String := "responses"
  /-- How long a request waits for its response. -/
  timeout : Span := ⟨20000000000⟩
deriving DecidableEq, Repr, Inhabited

namespace RequestResponseSettings

def fields : List (Json.Field RequestResponseSettings) :=
  [Json.setting "path" Json.textValue fun s p => { s with path := p },
    Json.setting "timeout_ms" Json.milliseconds fun s d => { s with timeout := d }]

/-- Read the settings from a document. -/
def reader : Json.Reader RequestResponseSettings := Json.record fields {} some

/-- The settings as a document. -/
def toJson (s : RequestResponseSettings) : Json :=
  .object [("path", .text s.path), ("timeout_ms", .nat s.timeout.milliseconds)]

/-- Why the settings are refused, if they are. -/
def validate (s : RequestResponseSettings) : Except Failure Unit :=
  if Text.isAllBlank s.path then
    .error (.invalid "request_response.path must not be empty")
  else if s.timeout.isZero then
    .error (.invalid "request_response.timeout_ms must be greater than zero")
  else .ok ()

end RequestResponseSettings

/-! ## Pending requests -/

/-- How often pending requests are swept. -/
structure PendingRequestSettings where
  sweepInterval : Span := ⟨3000000000⟩
deriving DecidableEq, Repr, Inhabited

namespace PendingRequestSettings

def fields : List (Json.Field PendingRequestSettings) :=
  [Json.setting "sweep_interval_ms" Json.milliseconds fun s d => { s with sweepInterval := d }]

/-- Read the settings from a document. -/
def reader : Json.Reader PendingRequestSettings := Json.record fields {} some

/-- The settings as a document. -/
def toJson (s : PendingRequestSettings) : Json :=
  .object [("sweep_interval_ms", .nat s.sweepInterval.milliseconds)]

/-- Why the settings are refused, if they are. -/
def validate (s : PendingRequestSettings) : Except Failure Unit :=
  if s.sweepInterval.isZero then
    .error (.invalid "pending_requests.sweep_interval_ms must be greater than zero")
  else .ok ()

end PendingRequestSettings

/-! ## Outbox -/

/-- When sent rows are removed. -/
structure CleanupSettings where
  enabled : Bool := true
  /-- The least time between two cleanups. -/
  interval : Span := ⟨3600000000000⟩
  /-- Sent rows older than this are removed. -/
  age : Span := ⟨3600000000000⟩
deriving DecidableEq, Repr, Inhabited

namespace CleanupSettings

def fields : List (Json.Field CleanupSettings) :=
  [Json.setting "enabled" Json.truth fun s b => { s with enabled := b },
    Json.setting "interval_ms" Json.milliseconds fun s d => { s with interval := d },
    Json.setting "age_ms" Json.milliseconds fun s d => { s with age := d }]

/-- Read the settings from a document. -/
def reader : Json.Reader CleanupSettings := Json.record fields {} some

/-- The settings as a document. -/
def toJson (s : CleanupSettings) : Json :=
  .object [("enabled", .bool s.enabled), ("interval_ms", .nat s.interval.milliseconds),
    ("age_ms", .nat s.age.milliseconds)]

end CleanupSettings

/-- How the outbox loop polls, leases and cleans up. -/
structure OutboxSettings where
  /-- The most rows that are leased and read at once. -/
  pollBatchSize : Nat := 50
  /-- The pause after a round without work. -/
  pollIdleSleep : Span := ⟨1000000000⟩
  /-- How long a lease lasts. -/
  lockExpiration : Span := ⟨10000000000⟩
  /-- Rows whose lease has less than this left are not forwarded. -/
  lockExpirationBuffer : Span := ⟨3000000000⟩
  cleanup : CleanupSettings := {}
deriving DecidableEq, Repr, Inhabited

namespace OutboxSettings

def fields : List (Json.Field OutboxSettings) :=
  [Json.setting "poll_batch_size" (Json.natural (Nat.pow 2 64)) fun s n =>
      { s with pollBatchSize := n },
    Json.setting "poll_idle_sleep_ms" Json.milliseconds fun s d => { s with pollIdleSleep := d },
    Json.setting "lock_expiration_ms" Json.milliseconds fun s d => { s with lockExpiration := d },
    Json.setting "lock_expiration_buffer_ms" Json.milliseconds fun s d =>
      { s with lockExpirationBuffer := d },
    Json.setting "message_cleanup" CleanupSettings.reader fun s c => { s with cleanup := c }]

/-- Read the settings from a document. -/
def reader : Json.Reader OutboxSettings := Json.record fields {} some

/-- The settings as a document. -/
def toJson (s : OutboxSettings) : Json :=
  .object [("poll_batch_size", .nat s.pollBatchSize),
    ("poll_idle_sleep_ms", .nat s.pollIdleSleep.milliseconds),
    ("lock_expiration_ms", .nat s.lockExpiration.milliseconds),
    ("lock_expiration_buffer_ms", .nat s.lockExpirationBuffer.milliseconds),
    ("message_cleanup", s.cleanup.toJson)]

/-- Why the settings are refused, if they are. -/
def validate (s : OutboxSettings) : Except Failure Unit :=
  if s.pollBatchSize = 0 then
    .error (.invalid "outbox.poll_batch_size must be greater than zero")
  else if s.lockExpiration.isZero then
    .error (.invalid "outbox.lock_expiration_ms must be greater than zero")
  else if s.lockExpiration ≤ s.lockExpirationBuffer then
    .error (.invalid
      "outbox.lock_expiration_buffer_ms must be less than outbox.lock_expiration_ms")
  else if s.cleanup.enabled ∧ s.cleanup.interval.isZero then
    .error (.invalid "outbox.message_cleanup.interval_ms must be greater than zero")
  else .ok ()

end OutboxSettings

/-! ## The runtime as a whole -/

/-- All settings that a configuration holds. -/
structure RuntimeConfig where
  /-- Given when buses await responses. -/
  requestResponse : Option RequestResponseSettings := none
  pendingRequests : PendingRequestSettings := {}
  outbox : OutboxSettings := {}
deriving DecidableEq, Repr, Inhabited

namespace RuntimeConfig

def fields : List (Json.Field RuntimeConfig) :=
  [Json.setting "request_response" (Json.optional RequestResponseSettings.reader) fun c s =>
      { c with requestResponse := s },
    Json.setting "pending_requests" PendingRequestSettings.reader fun c s =>
      { c with pendingRequests := s },
    Json.setting "outbox" OutboxSettings.reader fun c s => { c with outbox := s }]

/-- Read the settings from a document. -/
def reader : Json.Reader RuntimeConfig := Json.record fields {} some

/-- The settings as a document. -/
def toJson (c : RuntimeConfig) : Json :=
  .object [
    ("request_response", match c.requestResponse with
      | none => .null
      | some s => s.toJson),
    ("pending_requests", c.pendingRequests.toJson),
    ("outbox", c.outbox.toJson)]

/-- Why the settings are refused, if they are; request/response is checked first. -/
def validate (c : RuntimeConfig) : Except Failure Unit := do
  match c.requestResponse with
  | none => pure ()
  | some s => s.validate
  c.pendingRequests.validate
  c.outbox.validate

end RuntimeConfig
end Courier
