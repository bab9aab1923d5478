import Courier.Outbox.Repository
import Courier.Proofs.Publishing.Chain
import Mathlib.Logic.Function.Basic

/-!
# Publishing through outboxes

An outlet is what a publish acts on when all interceptors of its bus are outboxes: the repositories
of these outboxes, and a transport that may answer as it likes, with all messages that it was given.
A publish and the forwarding of a row are carried out as the bus says, and each has one of two
effects: a message is given to the transport (`given`), or a row is put into a repository
(`stored`).
-/

namespace Courier

/-- Repositories and a transport; `ρ` stands for a way to refer to a repository. -/
structure Outlet (ρ : Type) where
  repositories : ρ → Repository
  /-- What the transport was given, oldest first. -/
  handed : List TransportMessage := []
  /-- How many ids of rows have been drawn. -/
  drawn : Nat := 0

namespace Outlet

variable {ρ τ κ : Type}

/-- The surroundings of a publish. -/
structure Setting where
  now : Instant
  /-- Whether the token of the publish is cancelled. -/
  isCancelled : Bool := false
  /-- The ids of rows in the order in which they are drawn. -/
  ids : Nat → RowId
  /-- What the transport answers to a message, after those that it was given before. -/
  answer : List TransportMessage → TransportMessage → Except Failure Unit

/-! ## Effects -/

variable {s : Setting} {packing : Packing} {b : Bus τ (Capture ρ) κ} {k : Capture ρ}
variable {p : Publication} {w : Outlet ρ} {type : MessageType} {message : Json}
variable {path : Option String} {headers : Headers}

/-- The transport was given a message. -/
def given (s : Setting) (m : TransportMessage) (w : Outlet ρ) : Except Failure Unit × Outlet ρ :=
  ((s.answer w.handed m).mapError m.reported, { w with handed := w.handed ++ [m] })

/-- Give a message to the transport. -/
def produce (s : Setting) (m : TransportMessage) : StateM (Outlet ρ) (Except Failure Unit) :=
  fun w => (s.answer w.handed m, { w with handed := w.handed ++ [m] })

/-- Draw the id of a row. -/
def draw (s : Setting) : StateM (Outlet ρ) RowId := fun w =>
  (s.ids w.drawn, { w with drawn := w.drawn + 1 })

variable [DecidableEq ρ]

/-- A repository has taken a row behind all others. -/
def stored (s : Setting) (k : ρ) (p : Publication) (w : Outlet ρ) : Outlet ρ :=
  { w with
    repositories := Function.update w.repositories k
      { w.repositories k with
        rows := (w.repositories k).rows ++ [p.toRow (s.ids w.drawn) s.now] }
    drawn := w.drawn + 1 }

@[simp] theorem rows_stored (s : Setting) (k : ρ) (p : Publication) (w : Outlet ρ) :
    ((stored s k p w).repositories k).rows =
      (w.repositories k).rows ++ [p.toRow (s.ids w.drawn) s.now] := by
  simp [stored]

/-- A repository that has grown after something was stored is the one that took it. -/
theorem eq_toRow_of_stored {k k' : ρ} {row : Row}
    (h : ((stored s k' p w).repositories k).rows = (w.repositories k).rows ++ [row]) :
    row = p.toRow (s.ids w.drawn) s.now := by
  by_cases hk : k = k'
  · subst hk
    rw [rows_stored] at h
    exact (List.head_eq_of_cons_eq (List.append_cancel_left h)).symm
  · simp [stored, Function.update_of_ne hk] at h

/-- Store a row in a repository. -/
def save (s : Setting) (k : ρ) (row : Row) : StateM (Outlet ρ) (Except Failure Unit) := fun w =>
  match (w.repositories k).save s.isCancelled row with
  | .ok repository =>
    (.ok (), { w with repositories := Function.update w.repositories k repository })
  | .error cause => (.error cause, w)

/-- A row is stored under a live token. -/
theorem run_store (hlive : s.isCancelled = false) (k : Capture ρ) (p : Publication)
    (w : Outlet ρ) :
    (Publish.store (save s) (draw s) (pure s.now) k p).run w =
      (.ok (), stored s k.repository p w) := by
  have hsave : ∀ (r : Repository) (row : Row),
      r.save s.isCancelled row = .ok { r with rows := r.rows ++ [row] } := by
    intro r row
    rw [hlive]
    rfl
  simp only [Publish.store, draw, save, hsave, StateT.run, bind, StateT.bind]
  rfl

/-! ## Programs -/

/-- Carry a publish to its end. -/
def carry (s : Setting) (packing : Packing) (p : Publish (Capture ρ)) :
    StateM (Outlet ρ) (Except Failure Unit) :=
  Publish.run (Capture.ask (save s) (draw s) (pure s.now)) (produce s) packing p

/-- Publish a message that is given as a value. -/
def publish (s : Setting) (packing : Packing) (b : Bus τ (Capture ρ) κ) (type : MessageType)
    (message : Json) (path : Option String) (headers : Headers) :
    StateM (Outlet ρ) (Except Failure Unit) :=
  carry s packing (b.publish packing s.isCancelled type message path headers)

/-- Forward a row. -/
def forward (s : Setting) (packing : Packing) (b : Bus τ (Capture ρ) κ) (row : Row) :
    StateM (Outlet ρ) (Except Failure Unit) :=
  carry s packing (b.forward packing s.isCancelled row)

/-- A publish that fails before it reaches the interceptors has no effect. -/
theorem run_publish_of_error {cause : Failure}
    (h : b.publication s.isCancelled type message path headers = .error cause) :
    (publish s packing b type message path headers).run w = (.error cause, w) := by
  rw [publish, Bus.publish, h]
  rfl

theorem publish_eq (h : b.publication s.isCancelled type message path headers = .ok p) :
    publish s packing b type message path headers =
      carry s packing (Publish.offer packing p b.publishInterceptors) := by
  rw [publish, Bus.publish, h]

/-- A message without a mark goes to the first outbox that captures its type, or else to the
transport. -/
theorem run_carry_unmarked (hlive : s.isCancelled = false)
    (hunmarked : p.headers.contains skipOutboxHeader = false) (cs : List (Capture ρ)) :
    (carry s packing (Publish.offer packing p cs)).run w =
      match Capture.first? p.messageType cs with
      | some k => (.ok (), stored s k.repository p w)
      | none => given s (p.toMessage.wrap packing) w := by
  rw [carry, Publish.run_offer_unmarked _ _ _ _ _ _ hunmarked]
  cases Capture.first? p.messageType cs with
  | none => rfl
  | some k => exact run_store hlive k p w

/-- A message with a mark passes the first outbox and is from there on a message without one. -/
theorem run_carry_marked (hlive : s.isCancelled = false)
    (hmarked : p.headers.contains skipOutboxHeader = true) (c : Capture ρ)
    (cs : List (Capture ρ)) :
    (carry s packing (Publish.offer packing p (c :: cs))).run w =
      match Capture.first? p.messageType cs with
      | some k => (.ok (), stored s k.repository p.unmarked w)
      | none => given s (p.unmarked.toMessage.wrap packing) w := by
  rw [carry, Publish.run_offer_marked _ _ _ _ _ _ _ hmarked]
  cases Capture.first? p.messageType cs with
  | none => rfl
  | some k => exact run_store hlive k p.unmarked w

/-- **A publish that reaches the interceptors** ends with its own row stored or with a message given
to the transport, whether it carries a mark or not. -/
theorem run_carry_ends (hlive : s.isCancelled = false) (p : Publication) (cs : List (Capture ρ))
    (w : Outlet ρ) :
    (∃ k q, q.payload = p.payload ∧
      (carry s packing (Publish.offer packing p cs)).run w = (.ok (), stored s k q w)) ∨
    ∃ m, (carry s packing (Publish.offer packing p cs)).run w = given s m w := by
  cases hmark : p.headers.contains skipOutboxHeader with
  | false =>
    rw [run_carry_unmarked hlive hmark]
    cases Capture.first? p.messageType cs with
    | some k => exact .inl ⟨k.repository, p, rfl, rfl⟩
    | none => exact .inr ⟨_, rfl⟩
  | true =>
    cases cs with
    | nil => exact .inr ⟨_, rfl⟩
    | cons c cs =>
      rw [run_carry_marked hlive hmark]
      cases Capture.first? p.messageType cs with
      | some k => exact .inl ⟨k.repository, p.unmarked, rfl, rfl⟩
      | none => exact .inr ⟨_, rfl⟩

/-! ## A shop -/

/-- A bus behind outboxes that publishes orders as JSON. -/
def shop (outboxes : List (Capture Bool)) : Bus Unit (Capture Bool) Unit where
  name := none
  transport := ()
  serializer := .json
  producers := [{ messageType := ⟨"Order"⟩, defaultPath := some "orders" }]
  requestResponse := none
  publishInterceptors := outboxes
  observers := []
  sweeper := { interval := ⟨1000000000⟩ }

/-- A live token, a clock that stands, and a transport that takes everything. -/
def calm : Setting where
  now := .epoch
  ids n := ⟨BitVec.ofNat 128 n⟩
  answer _ _ := .ok ()

/-- Two empty repositories, and nothing was handed over. -/
def fresh : Outlet Bool where
  repositories _ := { batchSize := 1, batchSize_pos := Nat.one_pos }

end Outlet
end Courier
