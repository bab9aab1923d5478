import Courier.Outbox.Capture

/-!
# Chains of outboxes

The interceptors of a bus may all be outboxes.  A message without the mark of a forwarder goes to
the first outbox that captures its type, and to the transport if there is none:
`run_offer_unmarked`.  A message with the mark passes the first outbox, which takes the mark away,
so to all others it is a message like any other: `run_offer_marked`.

Nothing is assumed about how rows are stored and messages taken, so the equations hold whatever else
happens between the steps of a publish.
-/

namespace Courier

/-- A publish reaches the interceptors if and only if its bus is active, its token is live, its type
is declared, its path is known and its message can be written. -/
theorem Bus.publication_eq_ok_iff {τ ι κ : Type} {b : Bus τ ι κ} {isCancelled : Bool}
    {type : MessageType} {message : Json} {path : Option String} {headers : Headers}
    {p : Publication} :
    b.publication isCancelled type message path headers = .ok p ↔
      b.requireActive = .ok () ∧ isCancelled = false ∧
        (∃ producer, b.producer type = .ok producer ∧ producer.path path = .ok p.path) ∧
        b.serializer.serialize message type = .ok p.payload ∧
        p.busName = b.name ∧ p.messageType = type ∧ p.headers = headers := by
  obtain ⟨busName, messageType, target, payload, carried⟩ := p
  -- the checks one after the other, in the order in which the publish makes them
  cases hactive : b.requireActive with
  | error cause => simp [publication, hactive, bind, Except.bind]
  | ok =>
  cases isCancelled with
  | true =>
    simp [publication, hactive, bind, Except.bind, throw, throwThe, MonadExceptOf.throw]
  | false =>
  cases hproducer : b.producer type with
  | error cause => simp [publication, hactive, hproducer, bind, Except.bind]
  | ok producer =>
  cases hpath : producer.path path with
  | error cause => simp [publication, hactive, hproducer, hpath, bind, Except.bind]
  | ok known =>
  cases hpayload : b.serializer.serialize message type with
  | error cause =>
    simp [publication, hactive, hproducer, hpath, hpayload, bind, Except.bind, throw, throwThe,
      MonadExceptOf.throw]
  | ok written =>
    have hresult : b.publication false type message path headers =
        .ok { busName := b.name, messageType := type, path := known, payload := written,
              headers } := by
      simp [publication, hactive, hproducer, hpath, hpayload, bind, Except.bind, pure, Except.pure]
    rw [hresult]
    grind

/-- **Why a publish does not reach the interceptors**: it is cancelled, or the bus is not set up for
it, or its message cannot be written. -/
theorem Bus.publication_error_cases {τ ι κ : Type} {b : Bus τ ι κ} {isCancelled : Bool}
    {type : MessageType} {message : Json} {path : Option String} {headers : Headers}
    {cause : Failure}
    (h : b.publication isCancelled type message path headers = .error cause) :
    (isCancelled = true ∧ cause = .cancelled) ∨ (∃ c, cause = .configuration c) ∨
      ∃ c, cause = .serialization c ∧ b.serializer.serialize message type = .error c := by
  have hactive : ∀ {cause}, b.requireActive = .error cause → ∃ c, cause = .configuration c := by
    intro cause h
    unfold requireActive at h
    split at h <;> cases h
    exact ⟨_, rfl⟩
  have hproducer : ∀ {cause}, b.producer type = .error cause → ∃ c, cause = .configuration c := by
    intro cause h
    unfold producer at h
    split at h <;> cases h
    exact ⟨_, rfl⟩
  have hpath : ∀ {p : Producer} {cause}, p.path path = .error cause →
      ∃ c, cause = .configuration c := by
    intro p cause h
    unfold Producer.path at h
    split at h
    · cases h
    · split at h <;> cases h
      exact ⟨_, rfl⟩
  cases hcheck : b.requireActive with
  | error c =>
    simp only [publication, hcheck, bind, Except.bind, Except.error.injEq] at h
    exact .inr (.inl (h ▸ hactive hcheck))
  | ok =>
  cases isCancelled with
  | true =>
    simp only [publication, hcheck, bind, Except.bind, throw, throwThe, MonadExceptOf.throw,
      if_true, Except.error.injEq] at h
    exact .inl ⟨rfl, h.symm⟩
  | false =>
  cases htype : b.producer type with
  | error c =>
    simp [publication, hcheck, htype, bind, Except.bind] at h
    exact .inr (.inl (h ▸ hproducer htype))
  | ok p =>
  cases hknown : p.path path with
  | error c =>
    simp [publication, hcheck, htype, hknown, bind, Except.bind] at h
    exact .inr (.inl (h ▸ hpath hknown))
  | ok target =>
  cases hpayload : b.serializer.serialize message type with
  | error c =>
    simp [publication, hcheck, htype, hknown, hpayload, bind, Except.bind, throw, throwThe,
      MonadExceptOf.throw] at h
    exact .inr (.inr ⟨c, h.symm, rfl⟩)
  | ok written =>
    simp [publication, hcheck, htype, hknown, hpayload, bind, Except.bind, pure,
      Except.pure] at h

/-- What is refused for the way a bus is set up, or because its message cannot be written, is not
cancelled. -/
theorem Bus.publication_error {τ ι κ : Type} {b : Bus τ ι κ} {type : MessageType} {message : Json}
    {path : Option String} {headers : Headers} {cause : Failure}
    (h : b.publication false type message path headers = .error cause) :
    cause.isCancellation = false := by
  obtain ⟨hcancelled, -⟩ | ⟨c, rfl⟩ | ⟨c, rfl, -⟩ := publication_error_cases h
  · cases hcancelled
  · rfl
  · rfl

/-- The publication without the mark of a forwarder. -/
def Publication.unmarked (p : Publication) : Publication :=
  { p with headers := p.headers.erase skipOutboxHeader }

namespace Capture

variable {ρ : Type} {c : Capture ρ} {p : Publication}

/-- The first outbox of a chain that captures messages of a type. -/
def first? (type : MessageType) (cs : List (Capture ρ)) : Option (Capture ρ) :=
  cs.find? fun c => c.captures type

/-- An outbox lets a marked message go on, and takes the mark away. -/
theorem choose_of_marked (h : p.headers.contains skipOutboxHeader = true) :
    c.choose p = .pass p.unmarked := by
  rw [choose, if_pos h]
  rfl

theorem choose_of_captured (hunmarked : p.headers.contains skipOutboxHeader = false)
    (hcaptures : c.captures p.messageType = true) : c.choose p = .store := by
  simp [choose, hunmarked, hcaptures]

theorem choose_of_not_captured (hunmarked : p.headers.contains skipOutboxHeader = false)
    (hcaptures : c.captures p.messageType = false) : c.choose p = .pass p := by
  simp [choose, hunmarked, hcaptures]

end Capture

namespace Publish

variable {ρ : Type} {f : Type → Type} [Monad f] [LawfulMonad f]
variable (save : ρ → Row → f (Except Failure Unit)) (draw : f RowId) (clock : f Instant)
variable (produce : TransportMessage → f (Except Failure Unit)) (packing : Packing)
variable {c : Capture ρ} {p q : Publication}

/-- Store a publication as a row of an outbox, which ends the publish. -/
def store (c : Capture ρ) (p : Publication) : f (Except Failure Unit) := do
  let row := p.toRow (← draw) (← clock)
  save c.repository row

/-- Give a publication to the transport, which ends the publish. -/
def handOver (p : Publication) : f (Except Failure Unit) := do
  let m := p.toMessage.wrap packing
  return (← produce m).mapError m.reported

omit [LawfulMonad f] in
/-- Behind the last outbox stands the transport. -/
theorem run_offer_nil (p : Publication) :
    run (Capture.ask save draw clock) produce packing (offer packing p []) =
      handOver produce packing p := rfl

theorem run_offer_of_pass (cs : List (Capture ρ)) (h : c.choose p = .pass q) :
    run (Capture.ask save draw clock) produce packing (offer packing p (c :: cs)) =
      run (Capture.ask save draw clock) produce packing (offer packing q cs) := by
  rw [offer, run_intercepting, Capture.ask, h]
  simp [intercepted]

theorem run_offer_of_store (cs : List (Capture ρ)) (h : c.choose p = .store) :
    run (Capture.ask save draw clock) produce packing (offer packing p (c :: cs)) =
      store save draw clock c p := by
  have hanswer : ∀ result : Except Failure Unit,
      run (Capture.ask save draw clock) produce packing
        (intercepted packing p cs (Capture.stored result)) = pure result := by
    rintro (cause | ⟨⟩) <;> rfl
  rw [offer, run_intercepting, Capture.ask, h]
  simp [store, hanswer]

/-- **A message without a mark** goes to the first outbox that captures its type, and otherwise to
the transport. -/
theorem run_offer_unmarked (cs : List (Capture ρ))
    (hunmarked : p.headers.contains skipOutboxHeader = false) :
    run (Capture.ask save draw clock) produce packing (offer packing p cs) =
      match Capture.first? p.messageType cs with
      | some c => store save draw clock c p
      | none => handOver produce packing p := by
  induction cs with
  | nil => exact run_offer_nil ..
  | cons c cs ih =>
    cases hcaptures : c.captures p.messageType with
    | true =>
      rw [run_offer_of_store _ _ _ _ _ _ (Capture.choose_of_captured hunmarked hcaptures)]
      simp [Capture.first?, hcaptures]
    | false =>
      rw [run_offer_of_pass _ _ _ _ _ _ (Capture.choose_of_not_captured hunmarked hcaptures), ih]
      simp [Capture.first?, hcaptures]

/-- **A marked message** passes the first outbox and loses its mark there. -/
theorem run_offer_marked (c : Capture ρ) (cs : List (Capture ρ))
    (hmarked : p.headers.contains skipOutboxHeader = true) :
    run (Capture.ask save draw clock) produce packing (offer packing p (c :: cs)) =
      match Capture.first? p.messageType cs with
      | some c => store save draw clock c p.unmarked
      | none => handOver produce packing p.unmarked := by
  have hunmarked : p.unmarked.headers.contains skipOutboxHeader = false := by
    simp [Publication.unmarked, Dictionary.contains]
  rw [run_offer_of_pass _ _ _ _ _ _ (Capture.choose_of_marked hmarked),
    run_offer_unmarked _ _ _ _ _ _ hunmarked]
  rfl

end Publish
end Courier
