import Courier.Proofs.Outbox.Rows
import Courier.Proofs.Messages.Sealing
import Courier.Proofs.Publishing.Outlet

/-!
# Transparency of an outbox

A message that an outbox captures is written, stored, read, marked and published again, and loses
its mark on the way to the transport.  The transport is given the very message that it would have
been given without the outbox.

An envelope is the one place where something may show.  Headers have no order of their own; a header
that is put among them and taken away again may leave the others in another order than before, and
the envelope lists them as they are found.  So an envelope has the same payload and the same headers
(`TransportMessage.Alike`), and it is read back as the same (`opened_wrap_of_packing`), but its
bytes may differ.

Main statements: `forwarded_as_published`, and `forwarded_in_another_order` for what may differ.
-/

namespace Courier

namespace TransportMessage

variable {m m' : TransportMessage}

/-- The same message, but for the order in which an envelope lists its headers. -/
structure Alike (m m' : TransportMessage) : Prop where
  messageType : m.messageType = m'.messageType
  path : m.path = m'.path
  headers : m.headers = m'.headers
  payload : m.payload = m'.payload ∨ ∃ listed listed' payload, listed.Perm listed' ∧
    m.payload = (Envelope.mk listed payload).toBytes ∧
    m'.payload = (Envelope.mk listed' payload).toBytes

/-- Packed twice for transports of one kind, a message is the same if the transports carry headers
or both envelopes list them alike; in any case it is the same but for their order. -/
theorem alike_wrap {p q : Packing} (hkind : p.nativeHeaders = q.nativeHeaders) :
    (m.wrap p).Alike (m.wrap q) ∧
      (p.nativeHeaders = true ∨ p.listed m.headers = q.listed m.headers → m.wrap p = m.wrap q) := by
  cases hp : p.nativeHeaders with
  | true =>
    have hq : q.nativeHeaders = true := hkind.symm.trans hp
    have hsame : m.wrap p = m.wrap q := by simp [wrap, hp, hq]
    exact ⟨hsame ▸ ⟨rfl, rfl, rfl, .inl rfl⟩, fun _ => hsame⟩
  | false =>
    have hq : q.nativeHeaders = false := hkind.symm.trans hp
    simp only [wrap, hp, hq, Bool.false_eq_true, if_false, false_or]
    refine ⟨⟨rfl, rfl, rfl, .inr ⟨_, _, m.payload, ?_, rfl, rfl⟩⟩, fun hlisted => by rw [hlisted]⟩
    exact (p.listed_perm m.headers).trans (q.listed_perm m.headers).symm

/-- However its headers are packed, a message is read back as it was. -/
theorem opened_wrap_of_packing (p : Packing) (h : m.headers.Ordered) :
    (m.wrap p).opened p.nativeHeaders = .ok ⟨m.headers, m.payload⟩ := by
  cases hp : p.nativeHeaders with
  | true => simp [wrap, opened, hp]
  | false =>
    simp only [wrap, opened, hp, Bool.false_eq_true, if_false]
    exact Envelope.ofBytes_toBytes_of_perm (e := ⟨m.headers, m.payload⟩) h (p.listed_perm m.headers)

end TransportMessage

namespace Bus

variable {τ ι κ : Type} {b b' : Bus τ ι κ}

/-- The bus without its interceptors. -/
def bare (b : Bus τ ι κ) : Bus τ ι κ := { b with publishInterceptors := [] }

/-- A bus at two times: it is built once, and whether it is started or disposed may change. -/
structure BuiltAlike (b b' : Bus τ ι κ) : Prop where
  name : b'.name = b.name
  serializer : b'.serializer = b.serializer
  producers : b'.producers = b.producers
  publishInterceptors : b'.publishInterceptors = b.publishInterceptors

/-- A path that was found once is found again when it is given, as long as the bus is active and the
token live, and the headers of a publication are those that the caller gives. -/
theorem publication_again (hbuilt : b.BuiltAlike b') {isCancelled : Bool}
    {type : MessageType} {message : Json} {path : Option String} {headers : Headers}
    {p : Publication} (h : b.publication isCancelled type message path headers = .ok p)
    (isCancelled' : Bool) (others : Headers) :
    b'.publication isCancelled' type message (some p.path) others =
      if b'.isActive = false then .error (.configuration .busNotActive)
      else if isCancelled' = true then .error .cancelled
      else .ok { p with headers := others } := by
  obtain ⟨-, -, ⟨producer, hproducer, -⟩, hpayload, hname, htype, -⟩ :=
    Bus.publication_eq_ok_iff.mp h
  cases hactive : b'.isActive with
  | false => simp [publication, requireActive, hactive, bind, Except.bind]
  | true =>
    cases isCancelled' with
    | true =>
      simp [publication, requireActive, hactive, bind, Except.bind, throw, throwThe,
        MonadExceptOf.throw]
    | false =>
      refine Bus.publication_eq_ok_iff.mpr ⟨by simp [requireActive, hactive], rfl,
        ⟨producer, ?_, rfl⟩, ?_, hname.trans hbuilt.name.symm, htype, rfl⟩
      · simpa only [Bus.producer, producer?, hbuilt.producers] using hproducer
      · rw [hbuilt.serializer]
        exact hpayload

end Bus

namespace Outlet

variable {ρ τ κ β : Type} [DecidableEq ρ] {s s' : Setting} {packing : Packing}
variable {b : Bus τ (Capture ρ) κ} {k : Capture ρ} {p : Publication} {w w' u : Outlet ρ}
variable {r row : Row} {type : MessageType} {message : Json} {path : Option String}
variable {headers : Headers}

/-- Forward a row through the bus that a task finds for it, if it finds one; `buses` are the buses
that the task refers to. -/
def forwardRouted (s : Setting) (packing : Packing) (t : SendingTask β) (isAlive : β → Bool)
    (buses : β → Bus τ (Capture ρ) κ) (r : Row) :
    Option (StateM (Outlet ρ) (Except Failure Unit)) :=
  (t.route isAlive r.busName).map fun i => forward s packing (buses i) r

theorem run_publish_bare
    (h : b.publication s.isCancelled type message path headers = .ok p) :
    (publish s packing b.bare type message path headers).run w =
      given s (p.toMessage.wrap packing) w := by
  have hbare : b.bare.publication s.isCancelled type message path headers = .ok p := h
  rw [publish_eq hbare]
  rfl

/-- With a single outbox, a message without a mark is stored if its type is captured, and goes to
the transport otherwise. -/
theorem run_publish_single (honly : b.publishInterceptors = [k])
    (h : b.publication s.isCancelled type message path headers = .ok p)
    (hunmarked : headers.contains skipOutboxHeader = false) :
    (publish s packing b type message path headers).run w =
      if k.captures type then (.ok (), stored s k.repository p w)
      else given s (p.toMessage.wrap packing) w := by
  obtain ⟨-, hlive, -, -, -, htype, hheaders⟩ := Bus.publication_eq_ok_iff.mp h
  rw [publish_eq h, honly, run_carry_unmarked hlive (hheaders ▸ hunmarked), htype]
  cases hcaptures : k.captures type <;> simp [Capture.first?, hcaptures]

/-- What a publish adds to the repository of a single outbox is the row of its publication. -/
theorem eq_toRow_of_captured (honly : b.publishInterceptors = [k])
    (hunmarked : headers.contains skipOutboxHeader = false)
    (hrun : (publish s packing b type message path headers).run w = (.ok (), u))
    (hrow : (u.repositories k.repository).rows = (w.repositories k.repository).rows ++ [row]) :
    ∃ p, b.publication s.isCancelled type message path headers = .ok p ∧
      row = p.toRow (s.ids w.drawn) s.now ∧ u.handed = w.handed := by
  cases h : b.publication s.isCancelled type message path headers with
  | error cause =>
    rw [run_publish_of_error h] at hrun
    exact absurd (congrArg Prod.fst hrun) nofun
  | ok p =>
    rw [run_publish_single honly h hunmarked] at hrun
    cases hcaptures : k.captures type with
    | true =>
      rw [if_pos hcaptures] at hrun
      obtain rfl : stored s k.repository p w = u := congrArg Prod.snd hrun
      exact ⟨p, rfl, eq_toRow_of_stored hrow, rfl⟩
    | false =>
      rw [if_neg (by simp [hcaptures])] at hrun
      have hsame : u.repositories = w.repositories :=
        congrArg (·.2.repositories) hrun.symm
      rw [hsame] at hrow
      simp at hrow

/-- Forwarding the row of a publication gives the transport the message of the publication, if the
bus is still active and the token live. -/
theorem run_forward {b' : Bus τ (Capture ρ) κ} (honly : b.publishInterceptors = [k])
    (hbuilt : b.BuiltAlike b')
    (h : b.publication s.isCancelled type message path headers = .ok p)
    (hunmarked : headers.contains skipOutboxHeader = false)
    (hread : b.serializer.deserialize type p.payload = .ok message)
    {id : RowId} {now : Instant} (hr : r.content = (p.toRow id now).content) :
    (forward s' packing b' r).run w' =
      if b'.isActive = false then (.error (.configuration .busNotActive), w')
      else if s'.isCancelled = true then (.error .cancelled, w')
      else given s' (p.toMessage.wrap packing) w' := by
  obtain ⟨-, -, -, -, -, htype, hheaders⟩ := Bus.publication_eq_ok_iff.mp h
  have hmessageType : r.messageType = type := (congrArg Row.messageType hr).trans htype
  have hpath : r.path = p.path := congrArg Row.path hr
  have hpayload : r.payload = p.payload := congrArg Row.payload hr
  have hrowHeaders : r.headers = headers := (congrArg Row.headers hr).trans hheaders
  have hagain := Bus.publication_again hbuilt h s'.isCancelled (headers.insert skipOutboxHeader "")
  have hmarked : (headers.insert skipOutboxHeader "").contains skipOutboxHeader = true := by
    simp [Dictionary.contains]
  have hnone : headers.find? skipOutboxHeader = none := by
    simpa [Dictionary.contains] using hunmarked
  have hback : ({ p with headers := headers.insert skipOutboxHeader "" } : Publication).unmarked =
      p := by
    rw [Publication.unmarked, Dictionary.erase_insert _ hnone, ← hheaders]
  have hpublish : (forward s' packing b' r).run w' =
      (publish s' packing b' type message (some p.path) (headers.insert skipOutboxHeader "")).run
        w' := by
    rw [forward, Bus.forward, hbuilt.serializer, hmessageType, hpayload, hread, hpath, hrowHeaders]
    rfl
  rw [hpublish]
  split
  · next hdisposed => exact run_publish_of_error (hagain.trans (if_pos hdisposed))
  · next hactive =>
    rw [if_neg hactive] at hagain
    split
    · next hcancelled => exact run_publish_of_error (hagain.trans (if_pos hcancelled))
    · next hlive =>
      rw [if_neg hlive] at hagain
      rw [publish_eq hagain, hbuilt.publishInterceptors, honly,
        run_carry_marked (by simpa using hlive) hmarked, hback]
      rfl

/-- **An outbox does not show.**  Let a bus have one outbox, and let its serializer read back what
it writes for the message.

A publish that fails before it reaches the outbox fails in the same way on the bus without it.  A
publish of a captured type that gets so far puts a row into the repository.  And whatever row a
publish puts there, with any state of its delivery: the transport is given nothing yet; the bus
without the outbox would give it a certain message; and a task that finds this bus under its name
gives the transport the same message when it forwards the row, unless the bus has been disposed or
the token of the task is cancelled meanwhile.

Both messages are packed for transports of one kind, so they are equal where headers travel beside
the payload, and where two envelopes list the headers alike.  In any case they are equal but for
that order, and are read back as the same. -/
theorem forwarded_as_published (honly : b.publishInterceptors = [k])
    (hround : ∀ payload, b.serializer.serialize message type = .ok payload →
      b.serializer.deserialize type payload = .ok message)
    (hunmarked : headers.contains skipOutboxHeader = false) (packing : Packing) (s : Setting)
    (w : Outlet ρ) :
    (∀ cause, b.publication s.isCancelled type message path headers = .error cause →
      (publish s packing b type message path headers).run w = (.error cause, w) ∧
      (publish s packing b.bare type message path headers).run w = (.error cause, w)) ∧
    (∀ p, b.publication s.isCancelled type message path headers = .ok p →
      k.captures type = true →
      ∃ u row, (publish s packing b type message path headers).run w = (.ok (), u) ∧
        (u.repositories k.repository).rows = (w.repositories k.repository).rows ++ [row]) ∧
    ∀ u row, (publish s packing b type message path headers).run w = (.ok (), u) →
      (u.repositories k.repository).rows = (w.repositories k.repository).rows ++ [row] →
      u.handed = w.handed ∧ ∃ m : TransportMessage,
        (m.messageType = type ∧ m.headers = headers) ∧
        (∀ (direct : Packing) (s' : Setting) (w' : Outlet ρ), s'.isCancelled = false →
          (publish s' direct b.bare type message path headers).run w' =
            given s' (m.wrap direct) w') ∧
        (∀ (b' : Bus τ (Capture ρ) κ), b.BuiltAlike b' →
          ∀ (β : Type) (t : SendingTask β) (isAlive : β → Bool) (buses : β → Bus τ (Capture ρ) κ),
          (t.route isAlive b.name).map buses = some b' →
          ∀ (r : Row) (forwarded : Packing) (s' : Setting) (w' : Outlet ρ),
            r.content = row.content →
            (forwardRouted s' forwarded t isAlive buses r).map (·.run w') =
              some (if b'.isActive = false then (.error (.configuration .busNotActive), w')
                else if s'.isCancelled = true then (.error .cancelled, w')
                else given s' (m.wrap forwarded) w')) ∧
        (∀ direct forwarded : Packing, direct.nativeHeaders = forwarded.nativeHeaders →
          (m.wrap direct).Alike (m.wrap forwarded) ∧
          (direct.nativeHeaders = true ∨ direct.listed headers = forwarded.listed headers →
            m.wrap direct = m.wrap forwarded)) ∧
        ∀ packed : Packing, headers.Ordered →
          (m.wrap packed).opened packed.nativeHeaders = .ok ⟨headers, m.payload⟩ := by
  refine ⟨fun cause h => ⟨run_publish_of_error h, run_publish_of_error h⟩, ?_, ?_⟩
  · intro p h hcaptures
    refine ⟨_, p.toRow (s.ids w.drawn) s.now, ?_, rows_stored s k.repository p w⟩
    rw [run_publish_single honly h hunmarked, if_pos hcaptures]
  · intro u row hrun hrow
    obtain ⟨p, h, rfl, hhanded⟩ := eq_toRow_of_captured honly hunmarked hrun hrow
    obtain ⟨-, hs, -, hpayload, hname, htype, hheaders⟩ := Bus.publication_eq_ok_iff.mp h
    refine ⟨hhanded, p.toMessage, ⟨htype, hheaders⟩, ?_, ?_, ?_, ?_⟩
    · intro direct s' w' hlive
      exact run_publish_bare (hlive.trans hs.symm ▸ h)
    · intro b' hbuilt β t isAlive buses hroute r forwarded s' w' hr
      obtain ⟨i, hi, hbus⟩ := Option.map_eq_some_iff.mp hroute
      have hrowName : r.busName = b.name := (congrArg Row.busName hr).trans hname
      rw [forwardRouted, hrowName, hi, Option.map_some, Option.map_some, hbus,
        run_forward honly hbuilt h hunmarked (hround _ hpayload) hr]
    · intro direct forwarded hkind
      rw [← hheaders]
      exact TransportMessage.alike_wrap hkind
    · intro packed hordered
      rw [← hheaders] at hordered ⊢
      exact TransportMessage.opened_wrap_of_packing packed hordered

/-- Envelopes that list their headers backwards. -/
def backwards : Packing where
  nativeHeaders := false
  listed := List.reverse
  listed_perm := List.reverse_perm

/-- Three headers of an order. -/
def traced : Headers := [("Shop", "s1"), ("Span", "2"), ("Trace", "t1")]

/-- An order that is captured and forwarded over a transport without headers, once while the bus is
there and once after it is gone. -/
theorem forwarded_as_published_order :
    let b := shop [{ repository := false }]
    let gone := { b with disposing := true, disposed := true }
    let task : SendingTask Bool :=
      { settings := {}, inst := "worker", buses := [(none, false)] }
    let order : Json := .object [("lines", .list [.whole 3, .null])]
    (∀ payload, b.serializer.serialize order ⟨"Order"⟩ = .ok payload →
      b.serializer.deserialize ⟨"Order"⟩ payload = .ok order) ∧
    traced.contains skipOutboxHeader = false ∧ calm.isCancelled = false ∧
    b.BuiltAlike b ∧ b.BuiltAlike gone ∧
    ∃ (u : Outlet Bool) (row : Row) (m : TransportMessage),
      (publish calm false b ⟨"Order"⟩ order none traced).run fresh = (.ok (), u) ∧
      (u.repositories false).rows = [row] ∧
      (publish calm false b.bare ⟨"Order"⟩ order none traced).run u =
        given calm (m.wrap false) u ∧
      (forwardRouted calm backwards task (fun _ => true) (fun _ => b) row).map (·.run u) =
        some (given calm (m.wrap backwards) u) ∧
      (m.wrap false).Alike (m.wrap backwards) ∧
      (m.wrap backwards).opened false = .ok ⟨traced, m.payload⟩ ∧
      (forwardRouted calm backwards task (fun _ => true) (fun _ => gone) row).map (·.run u) =
        some (.error (.configuration .busNotActive), u) := by
  intro b gone task order
  have hround : ∀ payload, b.serializer.serialize order ⟨"Order"⟩ = .ok payload →
      b.serializer.deserialize ⟨"Order"⟩ payload = .ok order := by
    intro payload h
    obtain rfl := Except.ok.inj h
    rfl
  have hthere : b.BuiltAlike b := ⟨rfl, rfl, rfl, rfl⟩
  have hgone : b.BuiltAlike gone := ⟨rfl, rfl, rfl, rfl⟩
  obtain ⟨-, hstored, hforwarded⟩ := @forwarded_as_published Bool Unit Unit _ b ⟨false, none⟩
    ⟨"Order"⟩ order none traced rfl hround rfl false calm fresh
  obtain ⟨u, row, hrun, hrow⟩ := hstored _ rfl rfl
  obtain ⟨-, m, -, hbare, hrouted, halike, hopened⟩ := hforwarded u row hrun hrow
  exact ⟨hround, rfl, rfl, hthere, hgone, u, row, m, hrun, hrow, hbare false calm u rfl,
    hrouted b hthere Bool task _ _ rfl row backwards calm u rfl, (halike false backwards rfl).1,
    hopened backwards (by decide),
    hrouted gone hgone Bool task _ _ rfl row backwards calm u rfl⟩

/-- **What may show.**  When the headers come in another order after the mark was among them, an
envelope has other bytes than the one without the outbox.  And when the bus has been disposed in the
meantime, the transport is given nothing. -/
theorem forwarded_in_another_order :
    let b := shop [{ repository := false }]
    ∃ (u : Outlet Bool) (row : Row) (m m' : TransportMessage),
      (publish calm false b ⟨"Order"⟩ .null none traced).run fresh = (.ok (), u) ∧
      (u.repositories false).rows = [row] ∧
      (publish calm false b.bare ⟨"Order"⟩ .null none traced).run u =
        (.ok (), { u with handed := [m] }) ∧
      (forward calm backwards b row).run u = (.ok (), { u with handed := [m'] }) ∧
      m.payload ≠ m'.payload ∧
      (forward calm false { b with disposing := true, disposed := true } row).run u =
        (.error (.configuration .busNotActive), u) :=
  ⟨_, _, _, _, rfl, rfl, rfl, rfl, by decide, rfl⟩

end Outlet
end Courier
