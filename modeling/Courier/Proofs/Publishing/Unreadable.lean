import Courier.Proofs.Messages.Nesting
import Courier.Proofs.Publishing.Transparency

/-!
# Messages that cannot be read again

A message is written as JSON however deeply it is nested, and an outbox stores what was written
without a look at it.  Only the forwarder reads it, and it refuses what is nested deeper than a
document may be.  Publishing such a message goes well, the transport would have been given it but
for the outbox, and yet its row can never be forwarded.  No other message shares this fate.

The publish may go through any chain of outboxes, with or without the mark of a forwarder.

Main statement: `unreadable_iff_nested`.
-/

namespace Courier.Outlet

variable {ρ τ κ : Type} [DecidableEq ρ] {s : Setting} {nativeHeaders : Bool}
variable {b : Bus τ (Capture ρ) κ} {k : ρ} {p : Publication} {w u : Outlet ρ} {r row : Row}
variable {type : MessageType} {message : Json} {path : Option String} {headers : Headers}

/-! ## How a publish ends -/

/-- **A row that a publish puts into a repository** has the payload of its publication. -/
theorem exists_publication_of_grown
    (hrun : (publish s nativeHeaders b type message path headers).run w = (.ok (), u))
    (hrow : (u.repositories k).rows = (w.repositories k).rows ++ [row]) :
    ∃ p, b.publication s.isCancelled type message path headers = .ok p ∧
      row.payload = p.payload := by
  cases h : b.publication s.isCancelled type message path headers with
  | error cause =>
    rw [run_publish_of_error h] at hrun
    exact absurd (congrArg Prod.fst hrun) nofun
  | ok p =>
    obtain ⟨-, hlive, -⟩ := Bus.publication_eq_ok_iff.mp h
    rw [publish_eq h] at hrun
    refine ⟨p, rfl, ?_⟩
    obtain ⟨k', q, hpayload, hstored⟩ | ⟨m, hgiven⟩ :=
      run_carry_ends hlive p b.publishInterceptors w
    · obtain rfl := congrArg Prod.snd (hstored.symm.trans hrun)
      rw [eq_toRow_of_stored hrow]
      exact hpayload
    · obtain rfl := congrArg Prod.snd (hgiven.symm.trans hrun)
      simp [given] at hrow

/-- What a transport answers is never reported as a failure to write or to read. -/
theorem reported_ne_serialization (m : TransportMessage) (cause : Failure)
    (c : SerializationFailure) : m.reported cause ≠ .serialization c := by
  cases cause <;> exact nofun

/-- **A publish whose message can be written** does not fail for the way messages are written. -/
theorem publish_ne_serialization {payload : Bytes}
    (hwritten : b.serializer.serialize message type = .ok payload) (c : SerializationFailure) :
    ((publish s nativeHeaders b type message path headers).run w).1 ≠
      .error (.serialization c) := by
  cases h : b.publication s.isCancelled type message path headers with
  | error cause =>
    rw [run_publish_of_error h]
    intro hfailed
    obtain rfl := Except.error.inj hfailed
    obtain ⟨-, hcancelled⟩ | ⟨_, hsettings⟩ | ⟨_, -, hrefused⟩ := Bus.publication_error_cases h
    · cases hcancelled
    · cases hsettings
    · rw [hwritten] at hrefused
      cases hrefused
  | ok p =>
    obtain ⟨-, hlive, -⟩ := Bus.publication_eq_ok_iff.mp h
    rw [publish_eq h]
    obtain ⟨k', q, -, hstored⟩ | ⟨m, hgiven⟩ := run_carry_ends hlive p b.publishInterceptors w
    · rw [hstored]
      exact nofun
    · rw [hgiven, given]
      cases s.answer w.handed m with
      | ok _ => exact nofun
      | error cause => exact fun h => reported_ne_serialization m cause c (Except.error.inj h)

/-! ## Forwarding what was written -/

/-- A row that cannot be read is not forwarded, and nothing else happens. -/
theorem run_forward_of_error {c : SerializationFailure}
    (h : b.serializer.deserialize r.messageType r.payload = .error c) :
    (forward s nativeHeaders b r).run w = (.error (.serialization c), w) := by
  rw [forward, Bus.forward, h]
  rfl

theorem run_forward_of_ok (h : b.serializer.deserialize r.messageType r.payload = .ok message) :
    (forward s nativeHeaders b r).run w =
      (publish s nativeHeaders b r.messageType message (some r.path)
        (r.headers.insert skipOutboxHeader "")).run w := by
  rw [forward, Bus.forward, h]
  rfl

/-- **The row of a message is forwarded to its end or refused as unreadable**, as the message is
nested. -/
theorem run_forward_toBytes (s : Setting) (nativeHeaders : Bool) (w : Outlet ρ)
    (hjson : b.serializer = .json) (hmessage : message.InRange)
    (hpayload : r.payload = message.toBytes) :
    (message.depth ≤ Json.maxDepth →
      ∀ c, ((forward s nativeHeaders b r).run w).1 ≠ .error (.serialization c)) ∧
    (Json.maxDepth < message.depth →
      (forward s nativeHeaders b r).run w = (.error (.serialization (.json .malformed)), w)) := by
  obtain ⟨hread, hrefused⟩ := Serializer.json_deserialize_toBytes hmessage r.messageType
  rw [← hpayload, ← hjson] at hread hrefused
  refine ⟨fun hle c => ?_, fun hlt => run_forward_of_error (hrefused hlt)⟩
  obtain ⟨again, hagain⟩ := hread hle
  rw [run_forward_of_ok hagain]
  have hwritten : b.serializer.serialize again r.messageType = .ok again.toBytes := by
    rw [hjson]
    rfl
  exact publish_ne_serialization hwritten c

/-- The publication of an order in the shop. -/
def orderOf (message : Json) : Publication where
  busName := none
  messageType := ⟨"Order"⟩
  path := "orders"
  payload := message.toBytes
  headers := []

/-- The outbox of the shop takes an order whatever it is. -/
theorem run_publish_shop (message : Json) :
    (publish calm true (shop [{ repository := false }]) ⟨"Order"⟩ message none []).run fresh =
      (.ok (), stored calm false (orderOf message) fresh) :=
  rfl

/-- **An outbox takes messages that its forwarder cannot read, and these are the deeply nested
ones.**  Let a bus write its messages as JSON, and let a publish go well and put a row into a
repository.  The bus without its outboxes would have given the transport a message.  But whichever
bus that writes JSON forwards the row, under whatever circumstances and with any state of its
delivery: that it is refused for the way it is written happens exactly if the message is nested
deeper than a document may be; then nothing else ever comes of it. -/
theorem unreadable_iff_nested (hjson : b.serializer = .json) (hmessage : message.InRange)
    (hrun : (publish s nativeHeaders b type message path headers).run w = (.ok (), u))
    (hrow : (u.repositories k).rows = (w.repositories k).rows ++ [row]) :
    (∃ m, (publish s nativeHeaders b.bare type message path headers).run w = given s m w) ∧
    ∀ (s' : Setting) (nativeHeaders' : Bool) (b' : Bus τ (Capture ρ) κ) (r : Row) (w' : Outlet ρ),
      b'.serializer = .json → r.content = row.content →
      ((∃ c, ((forward s' nativeHeaders' b' r).run w').1 = .error (.serialization c)) ↔
        Json.maxDepth < message.depth) ∧
      (Json.maxDepth < message.depth →
        (forward s' nativeHeaders' b' r).run w' =
          (.error (.serialization (.json .malformed)), w')) := by
  obtain ⟨p, h, hpayload⟩ := exists_publication_of_grown hrun hrow
  obtain ⟨-, -, -, hwritten, -⟩ := Bus.publication_eq_ok_iff.mp h
  rw [hjson] at hwritten
  refine ⟨⟨_, run_publish_bare h⟩, fun s' nativeHeaders' b' r w' hjson' hr => ?_⟩
  have hbytes : r.payload = message.toBytes :=
    (congrArg Row.payload hr).trans (hpayload.trans (Except.ok.inj hwritten).symm)
  obtain ⟨hread, hrefused⟩ := run_forward_toBytes s' nativeHeaders' w' hjson' hmessage hbytes
  refine ⟨⟨fun ⟨c, hc⟩ => ?_, fun hlt => ⟨_, congrArg Prod.fst (hrefused hlt)⟩⟩, hrefused⟩
  by_contra hle
  exact hread (Nat.le_of_not_lt hle) c hc

/-- An order of ordinary depth, which goes through an outbox and can be read again. -/
theorem unreadable_iff_nested_order :
    let b := shop [{ repository := false }]
    let order : Json := .object [("lines", .list [.whole 3, .null])]
    b.serializer = .json ∧ order.InRange ∧
    ∃ u row, (publish calm true b ⟨"Order"⟩ order none []).run fresh = (.ok (), u) ∧
      (u.repositories false).rows = [row] ∧
      ¬∃ c, ((forward calm true b row).run u).1 = .error (.serialization c) := by
  intro b order
  have horder : order.InRange := by
    simp [order, Json.InRange, Json.MembersInRange, Json.ItemsInRange, Json.whole,
      JsonNumber.InRange]
  have hrun := run_publish_shop order
  have hrow := rows_stored calm false (orderOf order) fresh
  have hiff := (unreadable_iff_nested (k := false) rfl horder hrun hrow).2 calm true b
    ((orderOf order).toRow (calm.ids 0) calm.now) (stored calm false (orderOf order) fresh) rfl rfl
  refine ⟨rfl, horder, _, _, hrun, hrow, fun hunreadable => ?_⟩
  exact absurd (hiff.1.mp hunreadable) (by decide)

/-- A list in a list in a list, and so on. -/
def nested : Nat → Json
  | 0 => .null
  | n + 1 => .list [nested n]

theorem depth_nested (n : Nat) : (nested n).depth = n := by
  induction n with
  | zero => rfl
  | succ n ih => simp [nested, Json.depth, Json.depthOfItems, ih]

theorem inRange_nested (n : Nat) : (nested n).InRange := by
  induction n with
  | zero => simp [nested, Json.InRange]
  | succ n ih => simp [nested, Json.InRange, Json.ItemsInRange, ih]

/-- **A message that an outbox takes and never gives away again.**  Without the outbox the transport
would have been given it. -/
theorem captured_unreadable :
    let b := shop [{ repository := false }]
    ∃ u row m, (publish calm true b ⟨"Order"⟩ (nested 128) none []).run fresh = (.ok (), u) ∧
      (u.repositories false).rows = [row] ∧
      (publish calm true b.bare ⟨"Order"⟩ (nested 128) none []).run fresh = given calm m fresh ∧
      (forward calm true b row).run u = (.error (.serialization (.json .malformed)), u) := by
  intro b
  have hdeep : Json.maxDepth < (nested 128).depth := by
    rw [depth_nested]
    decide
  have hmessage := inRange_nested 128
  generalize nested 128 = message at hdeep hmessage ⊢
  refine ⟨_, (orderOf message).toRow (calm.ids 0) calm.now, (orderOf message).toMessage,
    run_publish_shop message, rows_stored calm false _ fresh, rfl, ?_⟩
  exact (run_forward_toBytes calm true _ rfl hmessage rfl).2 hdeep

end Courier.Outlet
