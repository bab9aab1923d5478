import Courier.Proofs.Messages.Records
import Courier.Settings

/-!
# Settings and back

Settings are written with whole milliseconds and checked with all their nanoseconds.  So what is
read back has each span cut off to whole milliseconds, and a check that looks at such a span may
come to another result: a span below a millisecond has become none at all, and two spans less than a
millisecond apart may have become equal.  Nothing else is lost, as long as the milliseconds of each
span fit into 64 bits (`Span.Writable`).

Each record of settings has the same three parts: what it looks like when some of its names have
been read (`seen`), that every member is read into it (`Json.Reads`), and what its check says
(`validate_eq_ok_iff`).

Main statement: `Settings.accepted_again_iff`.
-/

namespace Courier

open Json (Reads Unordered byte render)

namespace Span

/-- A span without what it has beyond its whole milliseconds. -/
def wholeMilliseconds (d : Span) : Span := .ofMilliseconds (d.nanoseconds / perMillisecond)

/-- The whole milliseconds of a span fit into 64 bits. -/
def Writable (d : Span) : Prop := d.nanoseconds / perMillisecond < 2 ^ 64

/-- Something is left of a span that has a millisecond. -/
theorem isZero_wholeMilliseconds_iff (d : Span) :
    d.wholeMilliseconds.isZero = false ↔ perMillisecond ≤ d.nanoseconds := by
  simp only [isZero, wholeMilliseconds, ofMilliseconds, perMillisecond, beq_eq_false_iff_ne]
  omega

end Span

namespace Json

variable {σ : Type} {fields : List (Field σ)} {seen : List String → σ} {d : Span} {rest : Bytes}

/-- **A span is read back with its whole milliseconds.** -/
theorem milliseconds_render (hd : d.Writable) (hrest : Ends rest) :
    milliseconds (Bytes.ofChars (render (.nat d.milliseconds)) ++ rest) =
      .ok (d.wholeMilliseconds, rest) := by
  have hwhole : d.milliseconds = d.nanoseconds / Span.perMillisecond := Nat.mod_eq_of_lt hd
  have hread : natural (Nat.pow 2 64)
      (Bytes.ofChars (render (.nat (d.nanoseconds / Span.perMillisecond))) ++ rest) =
        .ok (d.nanoseconds / Span.perMillisecond, rest) := natural_render hd (Nat.le_refl _) hrest
  simp only [milliseconds, hwhole, hread]
  rfl

/-- A member that holds a span. -/
theorem reads_milliseconds {name : String} {put : σ → Span → σ} (hd : d.Writable)
    (hfield : fields.find? (·.name == name) = some (setting name milliseconds put))
    (hseen : ∀ names, put (seen names) d.wholeMilliseconds = seen (name :: names)) :
    Reads fields seen (name, .nat d.milliseconds) :=
  reads_of_putting hfield rfl (fun _ hrest => milliseconds_render hd hrest) hseen

end Json

/-! ## Request and response -/

namespace RequestResponseSettings

variable {s : RequestResponseSettings}

/-- With whole milliseconds. -/
def wholeMilliseconds (s : RequestResponseSettings) : RequestResponseSettings :=
  { s with timeout := s.timeout.wholeMilliseconds }

/-- The settings when these names have been read. -/
def seen (s : RequestResponseSettings) (names : List String) : RequestResponseSettings where
  path := if "path" ∈ names then s.path else "responses"
  timeout := if "timeout_ms" ∈ names then s.timeout.wholeMilliseconds else ⟨20000000000⟩

theorem unordered_seen (s : RequestResponseSettings) : Unordered s.seen := by
  intro l l' hsame
  simp [seen, hsame]

theorem reads_members (h : s.timeout.Writable) :
    ∀ m ∈ [("path", Json.text s.path), ("timeout_ms", .nat s.timeout.milliseconds)],
      Reads fields s.seen m := by
  simp only [List.forall_mem_cons, List.not_mem_nil, false_implies, implies_true, and_true]
  constructor
  · exact Json.reads_of_putting rfl rfl (fun rest _ => Json.textValue_quoted s.path rest)
      fun names => by simp [seen]
  · exact Json.reads_milliseconds h rfl fun names => by simp [seen]

/-- **The settings are read back with whole milliseconds.** -/
theorem parseAs_toJson (h : s.timeout.Writable) :
    Json.parseAs reader s.toJson.toBytes = .ok s.wholeMilliseconds := by
  refine Json.parseAs_of_render
    (Json.record_render (reads_members h) (by simp) s.unordered_seen ?_ [])
  simp [seen, wholeMilliseconds]

theorem validate_eq_ok_iff : s.validate = .ok () ↔
    Text.isAllBlank s.path = false ∧ s.timeout.isZero = false := by
  unfold validate
  split
  · simp_all
  split <;> simp_all

end RequestResponseSettings

/-! ## Pending requests -/

namespace PendingRequestSettings

variable {s : PendingRequestSettings}

/-- With whole milliseconds. -/
def wholeMilliseconds (s : PendingRequestSettings) : PendingRequestSettings :=
  { s with sweepInterval := s.sweepInterval.wholeMilliseconds }

/-- The settings when these names have been read. -/
def seen (s : PendingRequestSettings) (names : List String) : PendingRequestSettings where
  sweepInterval :=
    if "sweep_interval_ms" ∈ names then s.sweepInterval.wholeMilliseconds else ⟨3000000000⟩

theorem unordered_seen (s : PendingRequestSettings) : Unordered s.seen := by
  intro l l' hsame
  simp [seen, hsame]

/-- **The settings are read back with whole milliseconds.** -/
theorem parseAs_toJson (h : s.sweepInterval.Writable) :
    Json.parseAs reader s.toJson.toBytes = .ok s.wholeMilliseconds := by
  refine Json.parseAs_of_render (Json.record_render ?_ (by simp) s.unordered_seen ?_ [])
  · simp only [List.forall_mem_cons, List.not_mem_nil, false_implies, implies_true, and_true]
    exact Json.reads_milliseconds h rfl fun names => by simp [seen]
  · simp [seen, wholeMilliseconds]

theorem validate_eq_ok_iff : s.validate = .ok () ↔ s.sweepInterval.isZero = false := by
  unfold validate
  split <;> simp_all

end PendingRequestSettings

/-! ## Cleanup and outbox -/

namespace CleanupSettings

variable {s : CleanupSettings}

/-- With whole milliseconds. -/
def wholeMilliseconds (s : CleanupSettings) : CleanupSettings :=
  { s with interval := s.interval.wholeMilliseconds, age := s.age.wholeMilliseconds }

/-- The spans can be written. -/
def Writable (s : CleanupSettings) : Prop := s.interval.Writable ∧ s.age.Writable

/-- The settings when these names have been read. -/
def seen (s : CleanupSettings) (names : List String) : CleanupSettings where
  enabled := if "enabled" ∈ names then s.enabled else true
  interval := if "interval_ms" ∈ names then s.interval.wholeMilliseconds else ⟨3600000000000⟩
  age := if "age_ms" ∈ names then s.age.wholeMilliseconds else ⟨3600000000000⟩

theorem unordered_seen (s : CleanupSettings) : Unordered s.seen := by
  intro l l' hsame
  simp [seen, hsame]

/-- The settings are read back with whole milliseconds, whatever follows them. -/
theorem reader_toJson (h : s.Writable) (rest : Bytes) :
    reader (Bytes.ofChars (render s.toJson) ++ rest) = .ok (s.wholeMilliseconds, rest) := by
  refine Json.record_render ?_ (by simp) s.unordered_seen ?_ rest
  · simp only [List.forall_mem_cons, List.not_mem_nil, false_implies, implies_true, and_true]
    refine ⟨?_, ?_, ?_⟩
    · exact Json.reads_of_putting (x := s.enabled) rfl rfl (fun rest _ => Json.truth_render _ rest)
        fun names => by simp [seen]
    · exact Json.reads_milliseconds h.1 rfl fun names => by simp [seen]
    · exact Json.reads_milliseconds h.2 rfl fun names => by simp [seen]
  · simp [seen, wholeMilliseconds]

end CleanupSettings

namespace OutboxSettings

variable {s : OutboxSettings}

/-- With whole milliseconds. -/
def wholeMilliseconds (s : OutboxSettings) : OutboxSettings where
  pollBatchSize := s.pollBatchSize
  pollIdleSleep := s.pollIdleSleep.wholeMilliseconds
  lockExpiration := s.lockExpiration.wholeMilliseconds
  lockExpirationBuffer := s.lockExpirationBuffer.wholeMilliseconds
  cleanup := s.cleanup.wholeMilliseconds

/-- The size of a batch has 64 bits, and the spans can be written. -/
structure Writable (s : OutboxSettings) : Prop where
  batch : s.pollBatchSize < 2 ^ 64
  sleep : s.pollIdleSleep.Writable
  lease : s.lockExpiration.Writable
  buffer : s.lockExpirationBuffer.Writable
  cleanup : s.cleanup.Writable

/-- The settings when these names have been read. -/
def seen (s : OutboxSettings) (names : List String) : OutboxSettings where
  pollBatchSize := if "poll_batch_size" ∈ names then s.pollBatchSize else 50
  pollIdleSleep :=
    if "poll_idle_sleep_ms" ∈ names then s.pollIdleSleep.wholeMilliseconds else ⟨1000000000⟩
  lockExpiration :=
    if "lock_expiration_ms" ∈ names then s.lockExpiration.wholeMilliseconds else ⟨10000000000⟩
  lockExpirationBuffer :=
    if "lock_expiration_buffer_ms" ∈ names then s.lockExpirationBuffer.wholeMilliseconds
    else ⟨3000000000⟩
  cleanup := if "message_cleanup" ∈ names then s.cleanup.wholeMilliseconds else {}

theorem unordered_seen (s : OutboxSettings) : Unordered s.seen := by
  intro l l' hsame
  simp [seen, hsame]

/-- **The settings are read back with whole milliseconds.** -/
theorem parseAs_toJson (h : s.Writable) :
    Json.parseAs reader s.toJson.toBytes = .ok s.wholeMilliseconds := by
  refine Json.parseAs_of_render (Json.record_render ?_ (by simp) s.unordered_seen ?_ [])
  · simp only [List.forall_mem_cons, List.not_mem_nil, false_implies, implies_true, and_true]
    refine ⟨?_, ?_, ?_, ?_, ?_⟩
    · exact Json.reads_of_putting (x := s.pollBatchSize) rfl rfl
        (fun rest hrest => Json.natural_render h.batch (Nat.le_refl _) hrest)
        fun names => by simp [seen]
    · exact Json.reads_milliseconds h.sleep rfl fun names => by simp [seen]
    · exact Json.reads_milliseconds h.lease rfl fun names => by simp [seen]
    · exact Json.reads_milliseconds h.buffer rfl fun names => by simp [seen]
    · exact Json.reads_of_putting (x := s.cleanup.wholeMilliseconds) rfl rfl
        (fun rest _ => CleanupSettings.reader_toJson h.cleanup rest) fun names => by simp [seen]
  · simp [seen, wholeMilliseconds]

theorem validate_eq_ok_iff : s.validate = .ok () ↔
    s.pollBatchSize ≠ 0 ∧ s.lockExpiration.isZero = false ∧
      s.lockExpirationBuffer.nanoseconds < s.lockExpiration.nanoseconds ∧
      (s.cleanup.enabled = true → s.cleanup.interval.isZero = false) := by
  have hle : s.lockExpiration ≤ s.lockExpirationBuffer ↔
      ¬s.lockExpirationBuffer.nanoseconds < s.lockExpiration.nanoseconds := Nat.not_lt.symm
  unfold validate
  split
  · simp_all
  split
  · simp_all
  split
  · simp_all
  split <;> simp_all

/-- Whether settings that were accepted are accepted with whole milliseconds. -/
theorem validate_wholeMilliseconds_iff (h : s.validate = .ok ()) :
    s.wholeMilliseconds.validate = .ok () ↔
      s.lockExpirationBuffer.wholeMilliseconds < s.lockExpiration.wholeMilliseconds ∧
      (s.cleanup.enabled = true → Span.perMillisecond ≤ s.cleanup.interval.nanoseconds) := by
  obtain ⟨hbatch, -, -, -⟩ := validate_eq_ok_iff.mp h
  have hlt : s.lockExpirationBuffer.wholeMilliseconds < s.lockExpiration.wholeMilliseconds ↔
      s.lockExpirationBuffer.wholeMilliseconds.nanoseconds <
        s.lockExpiration.wholeMilliseconds.nanoseconds := Iff.rfl
  have hpositive : s.lockExpiration.wholeMilliseconds.isZero = false ↔
      s.lockExpiration.wholeMilliseconds.nanoseconds ≠ 0 := by simp [Span.isZero]
  rw [validate_eq_ok_iff, hlt]
  simp only [wholeMilliseconds, CleanupSettings.wholeMilliseconds, hpositive,
    Span.isZero_wholeMilliseconds_iff]
  constructor
  · exact fun ⟨_, _, hbuffer, hcleanup⟩ => ⟨hbuffer, hcleanup⟩
  · exact fun ⟨hbuffer, hcleanup⟩ => ⟨hbatch, by omega, hbuffer, hcleanup⟩

end OutboxSettings

namespace Settings

open Json (parseAs)
open Courier.Span (perMillisecond)

/-- **What was accepted and written is accepted again if its milliseconds are.**  Settings that pass
their check, with spans whose milliseconds fit into 64 bits, are read back from what is written of
them with every span cut off to whole milliseconds and everything else as it was.  What is read back
passes the check exactly if what it looks at lasts: the timeout of requests, the interval of sweeps
and, where sent rows are cleaned up, the interval of cleanups have at least one millisecond, and the
buffer has fewer milliseconds than the lease. -/
theorem accepted_again_iff :
    (∀ s : OutboxSettings, s.validate = .ok () → s.Writable →
      parseAs OutboxSettings.reader s.toJson.toBytes = .ok s.wholeMilliseconds ∧
      (s.wholeMilliseconds.validate = .ok () ↔
        s.lockExpirationBuffer.wholeMilliseconds < s.lockExpiration.wholeMilliseconds ∧
        (s.cleanup.enabled = true → perMillisecond ≤ s.cleanup.interval.nanoseconds))) ∧
    (∀ s : RequestResponseSettings, s.validate = .ok () → s.timeout.Writable →
      parseAs RequestResponseSettings.reader s.toJson.toBytes = .ok s.wholeMilliseconds ∧
      (s.wholeMilliseconds.validate = .ok () ↔ perMillisecond ≤ s.timeout.nanoseconds)) ∧
    ∀ s : PendingRequestSettings, s.validate = .ok () → s.sweepInterval.Writable →
      parseAs PendingRequestSettings.reader s.toJson.toBytes = .ok s.wholeMilliseconds ∧
      (s.wholeMilliseconds.validate = .ok () ↔ perMillisecond ≤ s.sweepInterval.nanoseconds) := by
  refine ⟨fun s hvalid hwritable => ?_, fun s hvalid hwritable => ?_, fun s _ hwritable => ?_⟩
  · exact ⟨OutboxSettings.parseAs_toJson hwritable,
      OutboxSettings.validate_wholeMilliseconds_iff hvalid⟩
  · refine ⟨RequestResponseSettings.parseAs_toJson hwritable, ?_⟩
    obtain ⟨hpath, -⟩ := RequestResponseSettings.validate_eq_ok_iff.mp hvalid
    rw [RequestResponseSettings.validate_eq_ok_iff]
    simp only [RequestResponseSettings.wholeMilliseconds, hpath, true_and,
      Span.isZero_wholeMilliseconds_iff]
  · refine ⟨PendingRequestSettings.parseAs_toJson hwritable, ?_⟩
    rw [PendingRequestSettings.validate_eq_ok_iff]
    exact Span.isZero_wholeMilliseconds_iff s.sweepInterval

/-- A lease of a millisecond and a half with a buffer of half a millisecond. -/
def brisk : OutboxSettings :=
  { lockExpiration := ⟨1500000⟩, lockExpirationBuffer := ⟨500000⟩
    cleanup := { enabled := false, interval := ⟨1⟩ } }

theorem writable_brisk : brisk.Writable where
  batch := by decide
  sleep := by simp [Span.Writable, brisk, Span.perMillisecond]
  lease := by simp [Span.Writable, brisk, Span.perMillisecond]
  buffer := by simp [Span.Writable, brisk, Span.perMillisecond]
  cleanup := by simp [CleanupSettings.Writable, Span.Writable, brisk, Span.perMillisecond]

/-- Those settings and a timeout just below two milliseconds are accepted again, and an interval of
sweeps just below one millisecond is not. -/
theorem accepted_again_iff_brisk :
    brisk.validate = .ok () ∧ brisk.Writable ∧
    parseAs OutboxSettings.reader brisk.toJson.toBytes = .ok brisk.wholeMilliseconds ∧
    brisk.wholeMilliseconds.validate = .ok () ∧
    (RequestResponseSettings.wholeMilliseconds ⟨"replies", ⟨1999999⟩⟩).validate = .ok () ∧
    (PendingRequestSettings.wholeMilliseconds ⟨⟨999999⟩⟩).validate ≠ .ok () := by
  obtain ⟨houtbox, hrequests, hsweeps⟩ := accepted_again_iff
  have hbrisk : brisk.validate = .ok () := by rfl
  obtain ⟨hread, haccepted⟩ := houtbox brisk hbrisk writable_brisk
  obtain ⟨-, hrequest⟩ := hrequests ⟨"replies", ⟨1999999⟩⟩ (by rfl)
    (by simp [Span.Writable, Span.perMillisecond])
  obtain ⟨-, hsweep⟩ := hsweeps ⟨⟨999999⟩⟩ (by rfl) (by simp [Span.Writable, Span.perMillisecond])
  exact ⟨hbrisk, writable_brisk, hread, haccepted.mpr ⟨by decide, nofun⟩, hrequest.mpr (by decide),
    fun h => absurd (hsweep.mp h) (by decide)⟩

/-- A lease that lasts half a millisecond longer than its buffer. -/
def close : OutboxSettings :=
  { lockExpiration := ⟨5000500000⟩, lockExpirationBuffer := ⟨5000000000⟩ }

/-- A timeout whose milliseconds need 65 bits. -/
def patient : RequestResponseSettings := ⟨"replies", .ofMilliseconds (2 ^ 64)⟩

/-- **Not all settings that are accepted are accepted again.**  A lease and a buffer that are less
than a millisecond apart are equal when they are read back, and of a timeout with too many
milliseconds only the lowest 64 bits are left. -/
theorem refused_when_read_back :
    (close.validate = .ok () ∧
      parseAs OutboxSettings.reader close.toJson.toBytes = .ok close.wholeMilliseconds ∧
      close.wholeMilliseconds.validate = .error (.invalid
        "outbox.lock_expiration_buffer_ms must be less than outbox.lock_expiration_ms")) ∧
    (patient.validate = .ok () ∧
      parseAs RequestResponseSettings.reader patient.toJson.toBytes = .ok ⟨"replies", .zero⟩ ∧
      RequestResponseSettings.validate ⟨"replies", .zero⟩ = .error (.invalid
        "request_response.timeout_ms must be greater than zero")) := by
  have hclose : close.Writable := by
    constructor <;> simp [Span.Writable, CleanupSettings.Writable, close, Span.perMillisecond]
  have hpatient : patient.toJson = RequestResponseSettings.toJson ⟨"replies", .zero⟩ := by
    simp [patient, RequestResponseSettings.toJson, Span.milliseconds, Span.ofMilliseconds,
      Span.perMillisecond, Span.zero]
  have hzero : Span.zero.Writable := by simp [Span.Writable, Span.zero]
  refine ⟨⟨by rfl, OutboxSettings.parseAs_toJson hclose, by rfl⟩, by rfl, ?_, by rfl⟩
  rw [hpatient]
  exact RequestResponseSettings.parseAs_toJson hzero

end Settings
end Courier
