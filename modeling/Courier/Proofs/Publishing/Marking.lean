import Courier.Proofs.Publishing.Outlet

/-!
# The mark of a forwarder

A forwarder marks what it publishes, so that no outbox captures it a second time.  The mark reaches
only the first outbox of a bus, which takes it away.  With a single outbox a marked message goes to
the transport without its mark; in a longer chain it is captured again by the first outbox behind
the first one that captures its type, and the forwarder that finds the new row marks it, publishes
it through the same chain, and finds it once more.

Main statements: `published_marked` (where a marked message goes, for every chain) and
`captured_again` (a message that a chain of two outboxes makes a row of).
-/

namespace Courier.Outlet

variable {ρ τ κ : Type} [DecidableEq ρ] {s : Setting} {b : Bus τ (Capture ρ) κ}
variable {type : MessageType} {message : Json} {path : Option String} {headers : Headers}

/-- **Where a marked message goes.**  On a bus without interceptors the transport gets it as it is.
On a bus whose interceptors are outboxes the transport gets it without its mark, and no repository a
row, if no outbox behind the first one captures its type; otherwise the first of those that do
stores it without its mark, and the transport gets nothing.  If the publish fails before it reaches
the interceptors, nothing has happened. -/
theorem published_marked (hmarked : headers.contains skipOutboxHeader = true)
    (hlive : s.isCancelled = false) (nativeHeaders : Bool) (w : Outlet ρ) :
    (∀ cause, b.publication s.isCancelled type message path headers = .error cause →
      (publish s nativeHeaders b type message path headers).run w = (.error cause, w)) ∧
    ∀ p, b.publication s.isCancelled type message path headers = .ok p →
      (b.publishInterceptors = [] →
        (publish s nativeHeaders b type message path headers).run w =
          given s (p.toMessage.wrap nativeHeaders) w) ∧
      ∀ c cs, b.publishInterceptors = c :: cs →
        ((∀ d ∈ cs, d.captures type = false) →
          (publish s nativeHeaders b type message path headers).run w =
            given s (p.unmarked.toMessage.wrap nativeHeaders) w) ∧
        ∀ d, Capture.first? type cs = some d →
          (publish s nativeHeaders b type message path headers).run w =
            (.ok (), stored s d.repository p.unmarked w) := by
  refine ⟨fun cause h => run_publish_of_error h, fun p h => ?_⟩
  obtain ⟨-, -, -, -, -, htype, hheaders⟩ := Bus.publication_eq_ok_iff.mp h
  rw [publish_eq h]
  constructor
  · intro hnone
    rw [hnone]
    rfl
  · intro c cs hchain
    rw [hchain, run_carry_marked hlive (hheaders ▸ hmarked), htype]
    constructor
    · intro hnone
      have hfirst : Capture.first? type cs = none := by
        simpa [Capture.first?, List.find?_eq_none] using hnone
      rw [hfirst]
    · intro d hd
      rw [hd]

/-- Behind two outboxes the second one stores what the first one has let go on. -/
theorem published_marked_chained :
    Dictionary.contains skipOutboxHeader [(skipOutboxHeader, "")] = true ∧
    calm.isCancelled = false ∧
    ∃ p, (publish calm true (shop [{ repository := false }, { repository := true }]) ⟨"Order"⟩ .null
        none [(skipOutboxHeader, "")]).run fresh = (.ok (), stored calm true p fresh) := by
  have hmarked : Dictionary.contains skipOutboxHeader [(skipOutboxHeader, "")] = true := rfl
  have hsent := (@published_marked Bool Unit Unit _ calm
    (shop [{ repository := false }, { repository := true }]) ⟨"Order"⟩ .null none _ hmarked rfl true
    fresh).2 _ rfl
  exact ⟨hmarked, rfl, _, (hsent.2 _ _ rfl).2 _ rfl⟩

/-- **A marked message is captured again.**  The second outbox of the chain makes a row of it, and
the transport gets nothing. -/
theorem captured_again :
    ∃ w, (publish calm true (shop [{ repository := false }, { repository := true }]) ⟨"Order"⟩ .null
        none [(skipOutboxHeader, "")]).run fresh = (.ok (), w) ∧
      w.handed = [] ∧
      (w.repositories true).rows.map (fun r => (r.messageType, r.headers)) =
        [(⟨"Order"⟩, [])] :=
  ⟨_, rfl, rfl, rfl⟩

end Courier.Outlet
