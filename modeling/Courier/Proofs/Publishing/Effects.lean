import Courier.Outbox.Capture
import Courier.Outbox.Repository
import Courier.Proofs.Publishing.Outlet
import Courier.Proofs.Run

/-!
# What a publish leaves behind

A publish goes from outbox to outbox and then to the transport, and between any two of these steps
its token may be cancelled, rows and messages of others may come in, and paths may begin to fail.
Each step of the publish itself stores one row, or gives one message to the transport, or changes
nothing but the publish.

The key fact is that the two steps with an effect are also the two that end a publish well
(`Accounted.step`): an outbox that stores the message keeps it, and behind the transport nothing
follows.  So there is at most one effect, and it comes with success (`one_effect`).
-/

namespace Courier

/-- A publish under way, and what it acts on; `ρ` stands for a way to refer to a repository. -/
structure Dispatch (ρ : Type) where
  publish : Publish (Capture ρ)
  /-- Whether the token of the publish is cancelled. -/
  isCancelled : Bool
  repositories : ρ → Repository
  transport : MemoryTransport

/-- How many answers a publish may still wait for. -/
def Publish.remaining {ι : Type} : Publish ι → Nat
  | .intercepting _ _ rest => rest.length + 2
  | .producing _ => 1
  | .ended _ => 0

namespace Dispatch

variable {ρ τ κ : Type} [DecidableEq ρ]

/-- What happens around a publish. -/
inductive Event (ρ : Type)
  /-- Its token is cancelled. -/
  | cancelled
  /-- Others change the repositories or the transport. -/
  | others
  /-- An outbox lets the message go on. -/
  | passed
  /-- An outbox cannot store the message, or the transport does not take it. -/
  | refused
  /-- A row is stored in a repository. -/
  | stored (k : ρ) (row : Row)
  /-- The transport takes a message. -/
  | handed (m : TransportMessage)

/-- A row is stored, or a message goes out. -/
def Event.isEffect : Event ρ → Bool
  | .stored .. | .handed _ => true
  | _ => false

/-- The publish itself has taken a step. -/
def Event.isOwn : Event ρ → Bool
  | .cancelled | .others => false
  | _ => true

omit [DecidableEq ρ] in
theorem Event.isOwn_of_isEffect {e : Event ρ} (h : e.isEffect = true) : e.isOwn = true := by
  cases e with
  | stored k row => rfl
  | handed m => rfl
  | _ => cases h

/-- One step around a publish.  The outboxes and the transport look at the token when they are
asked; ids and times of rows may be any. -/
inductive Step (nativeHeaders : Bool) : Dispatch ρ → Event ρ → Dispatch ρ → Prop
  | cancel {s : Dispatch ρ} : Step nativeHeaders s .cancelled { s with isCancelled := true }
  | interfere {s : Dispatch ρ} (repositories : ρ → Repository) (transport : MemoryTransport) :
      Step nativeHeaders s .others { s with repositories, transport }
  | pass {s : Dispatch ρ} {p q : Publication} {c : Capture ρ} {rest : List (Capture ρ)}
      (hpublish : s.publish = .intercepting p c rest) (hchoice : c.choose p = .pass q) :
      Step nativeHeaders s .passed
        { s with publish := .intercepted nativeHeaders q rest (.ok .proceed) }
  | store {s : Dispatch ρ} {p : Publication} {c : Capture ρ} {rest : List (Capture ρ)}
      {r : Repository} (hpublish : s.publish = .intercepting p c rest)
      (hchoice : c.choose p = .store) (id : RowId) (now : Instant)
      (hsave : (s.repositories c.repository).save s.isCancelled (p.toRow id now) = .ok r) :
      Step nativeHeaders s (.stored c.repository (p.toRow id now))
        { s with
          publish := .intercepted nativeHeaders p rest (Capture.stored (.ok ()))
          repositories := Function.update s.repositories c.repository r }
  | refuseRow {s : Dispatch ρ} {p : Publication} {c : Capture ρ} {rest : List (Capture ρ)}
      {cause : Failure} (hpublish : s.publish = .intercepting p c rest)
      (hchoice : c.choose p = .store) (id : RowId) (now : Instant)
      (hsave : (s.repositories c.repository).save s.isCancelled (p.toRow id now) = .error cause) :
      Step nativeHeaders s .refused
        { s with publish := .intercepted nativeHeaders p rest (Capture.stored (.error cause)) }
  | hand {s : Dispatch ρ} {m : TransportMessage} {t : MemoryTransport}
      (hpublish : s.publish = .producing m)
      (hproduce : s.transport.produce s.isCancelled m = .ok t) :
      Step nativeHeaders s (.handed m)
        { s with publish := .produced m (.ok ()), transport := t }
  | refuseMessage {s : Dispatch ρ} {m : TransportMessage} {cause : Failure}
      (hpublish : s.publish = .producing m)
      (hproduce : s.transport.produce s.isCancelled m = .error cause) :
      Step nativeHeaders s .refused { s with publish := .produced m (.error cause) }

variable {nativeHeaders : Bool} {s t u : Dispatch ρ} {e : Event ρ} {es ds : List (Event ρ)}

/-- The effects of a run. -/
def effects (es : List (Event ρ)) : List (Event ρ) := es.filter Event.isEffect

/-- Only the publish and its token have moved. -/
def Alone (es : List (Event ρ)) : Prop := Event.others ∉ es

/-- Repositories and transport are as they were. -/
def Untouched (s u : Dispatch ρ) : Prop :=
  u.repositories = s.repositories ∧ u.transport = s.transport

/-- All the difference is that the row is the last one of its repository now, or the message the
last one of the transport. -/
def Differs (s : Dispatch ρ) (e : Event ρ) (u : Dispatch ρ) : Prop :=
  match e with
  | .stored k row =>
    u.repositories = Function.update s.repositories k
      { s.repositories k with rows := (s.repositories k).rows ++ [row] } ∧
      u.transport = s.transport
  | .handed m =>
    u.repositories = s.repositories ∧
      u.transport = { s.transport with produced := s.transport.produced ++ [m] }
  | _ => Untouched s u

/-! ## One step -/

/-- A repository that has stored a row has it behind all others. -/
theorem eq_of_save {r r' : Repository} {isCancelled : Bool} {row : Row}
    (h : r.save isCancelled row = .ok r') : r' = { r with rows := r.rows ++ [row] } := by
  cases isCancelled with
  | true => cases h
  | false => exact (Except.ok.inj h).symm

/-- A transport that has taken a message has it behind all others. -/
theorem eq_of_produce {n n' : MemoryTransport} {isCancelled : Bool} {m : TransportMessage}
    (h : n.produce isCancelled m = .ok n') : n' = { n with produced := n.produced ++ [m] } := by
  unfold MemoryTransport.produce at h
  split at h
  · cases h
  · split at h
    · cases h
    · exact (Except.ok.inj h).symm

omit [DecidableEq ρ] in
theorem offer_ne_ended (p : Publication) (cs : List (Capture ρ)) (result : Except Failure Unit) :
    Publish.offer nativeHeaders p cs ≠ .ended result := by
  cases cs <;> exact nofun

omit [DecidableEq ρ] in
theorem remaining_offer (p : Publication) (cs : List (Capture ρ)) :
    (Publish.offer nativeHeaders p cs).remaining = cs.length + 1 := by
  cases cs <;> rfl

/-- **What one step changes.**  Unless others come in, a step without an effect leaves everything as
it is, and an effect is all that a step changes. -/
theorem Step.differs (hstep : Step nativeHeaders s e u) (hown : e ≠ .others) : Differs s e u := by
  cases hstep with
  | interfere repositories transport => exact absurd rfl hown
  | store hpublish hchoice id now hsave => exact ⟨by rw [eq_of_save hsave], rfl⟩
  | hand hpublish hproduce => exact ⟨rfl, eq_of_produce hproduce⟩
  | _ => exact ⟨rfl, rfl⟩

/-- **An effect ends a publish well.** -/
theorem Step.ended (hstep : Step nativeHeaders s e u) (heffect : e.isEffect = true) :
    u.publish = .ended (.ok ()) := by
  cases hstep with
  | store hpublish hchoice id now hsave => rfl
  | hand hpublish hproduce => rfl
  | _ => cases heffect

/-- Without an effect no step ends a publish well. -/
theorem Step.not_ended (hstep : Step nativeHeaders s e u) (heffect : e.isEffect = false)
    (hopen : s.publish ≠ .ended (.ok ())) : u.publish ≠ .ended (.ok ()) := by
  cases hstep with
  | cancel => exact hopen
  | interfere repositories transport => exact hopen
  | pass hpublish hchoice => exact offer_ne_ended _ _ _
  | refuseRow hpublish hchoice id now hsave => exact nofun
  | refuseMessage hpublish hproduce => exact nofun
  | store hpublish hchoice id now hsave => cases heffect
  | hand hpublish hproduce => cases heffect

/-- When a publish has ended, only its token and others can still move. -/
theorem Step.of_ended {result : Except Failure Unit} (hstep : Step nativeHeaders s e u)
    (hended : s.publish = .ended result) : u.publish = .ended result ∧ e.isOwn = false := by
  cases hstep with
  | cancel => exact ⟨hended, rfl⟩
  | interfere repositories transport => exact ⟨hended, rfl⟩
  | _ hpublish => exact absurd (hended.symm.trans hpublish) nofun

/-- Each step of its own brings a publish nearer to its end. -/
theorem Step.remaining (hstep : Step nativeHeaders s e u) :
    u.publish.remaining + (if e.isOwn then 1 else 0) ≤ s.publish.remaining := by
  cases hstep with
  | cancel => exact Nat.le_refl _
  | interfere repositories transport => exact Nat.le_refl _
  | pass hpublish hchoice =>
    rw [hpublish]
    exact Nat.add_le_add_right (Nat.le_of_eq (remaining_offer _ _)) 1
  | _ hpublish =>
    rw [hpublish]
    simp [Publish.intercepted, Publish.produced, Capture.stored, Publish.remaining, Event.isOwn]

/-- A publish that has not ended can go on, whatever has become of its token and of what it acts
on. -/
theorem exists_step (hopen : s.publish.remaining ≠ 0) :
    ∃ e u, Step nativeHeaders s e u ∧ e.isOwn = true := by
  cases hpublish : s.publish with
  | ended result => simp [hpublish, Publish.remaining] at hopen
  | producing m =>
    cases hproduce : s.transport.produce s.isCancelled m with
    | ok t => exact ⟨_, _, .hand hpublish hproduce, rfl⟩
    | error cause => exact ⟨_, _, .refuseMessage hpublish hproduce, rfl⟩
  | intercepting p c rest =>
    cases hchoice : c.choose p with
    | pass q => exact ⟨_, _, .pass hpublish hchoice, rfl⟩
    | store =>
      cases hsave : (s.repositories c.repository).save s.isCancelled
          (p.toRow default default) with
      | ok r => exact ⟨_, _, .store hpublish hchoice _ _ hsave, rfl⟩
      | error cause => exact ⟨_, _, .refuseRow hpublish hchoice _ _ hsave, rfl⟩

/-! ## All steps -/

theorem Differs.of_untouched (h : Untouched s t) (h' : Differs t e u) : Differs s e u := by
  obtain ⟨hrepositories, htransport⟩ := h
  cases e <;> simpa only [Differs, Untouched, hrepositories, htransport] using h'

theorem Differs.then_untouched (h : Differs s e t) (h' : Untouched t u) : Differs s e u := by
  obtain ⟨hrepositories, htransport⟩ := h'
  cases e <;> simpa only [Differs, Untouched, hrepositories, htransport] using h

theorem untouched_of_differs (heffect : e.isEffect = false) (h : Differs s e u) :
    Untouched s u := by
  cases e with
  | stored k row => cases heffect
  | handed m => cases heffect
  | _ => exact h

omit [DecidableEq ρ] in
theorem effects_concat (ds : List (Event ρ)) (e : Event ρ) :
    effects (ds ++ [e]) = effects ds ++ if e.isEffect then [e] else [] := by
  cases h : e.isEffect <;> simp [effects, h]

omit [DecidableEq ρ] in
theorem Alone.of_concat (h : Alone (ds ++ [e])) : Alone ds ∧ e ≠ .others := by
  simp only [Alone, List.mem_append, List.mem_singleton, not_or] at h
  exact ⟨h.1, Ne.symm h.2⟩

/-- What the events so far come to: there was no effect and the publish has not ended well, or there
was one and it has. -/
def Accounted (s : Dispatch ρ) (ds : List (Event ρ)) (t : Dispatch ρ) : Prop :=
  (effects ds = [] ∧ t.publish ≠ .ended (.ok ()) ∧ (Alone ds → Untouched s t)) ∨
    ∃ e, effects ds = [e] ∧ t.publish = .ended (.ok ()) ∧ (Alone ds → Differs s e t)

/-- **Every step keeps the account.** -/
theorem Accounted.step (h : Accounted s ds t) (hstep : Step nativeHeaders t e u) :
    Accounted s (ds ++ [e]) u := by
  rcases h with ⟨hnone, hopen, huntouched⟩ | ⟨d, hone, hended, hdiffers⟩
  · cases heffect : e.isEffect with
    | true =>
      refine .inr ⟨e, by simp [effects_concat, hnone, heffect], hstep.ended heffect, ?_⟩
      intro halone
      obtain ⟨hbefore, hown⟩ := halone.of_concat
      exact (hstep.differs hown).of_untouched (huntouched hbefore)
    | false =>
      refine .inl ⟨by simp [effects_concat, hnone, heffect], hstep.not_ended heffect hopen, ?_⟩
      intro halone
      obtain ⟨hbefore, hown⟩ := halone.of_concat
      exact untouched_of_differs heffect ((hstep.differs hown).of_untouched (huntouched hbefore))
  · obtain ⟨hstays, hother⟩ := hstep.of_ended hended
    have heffect : e.isEffect = false := by
      by_contra h
      exact absurd ((Event.isOwn_of_isEffect (by simpa using h)).symm.trans hother) nofun
    refine .inr ⟨d, by simp [effects_concat, hone, heffect], hstays, ?_⟩
    intro halone
    obtain ⟨hbefore, hown⟩ := halone.of_concat
    exact (hdiffers hbefore).then_untouched (untouched_of_differs heffect (hstep.differs hown))

omit [DecidableEq ρ] in
/-- A publish begins with its checks: it has failed, or all outboxes and the transport are still
before it. -/
theorem publish_begun (nativeHeaders : Bool) (b : Bus τ (Capture ρ) κ) (isCancelled : Bool)
    (type : MessageType) (message : Json) (path : Option String) (headers : Headers) :
    let begun := b.publish nativeHeaders isCancelled type message path headers
    begun ≠ .ended (.ok ()) ∧ begun.remaining ≤ b.publishInterceptors.length + 1 := by
  unfold Bus.publish
  split
  · exact ⟨nofun, Nat.zero_le _⟩
  · exact ⟨offer_ne_ended _ _ _, Nat.le_of_eq (remaining_offer _ _)⟩

/-- The steps of a publish are numbered by what it still waits for. -/
theorem remaining_of_run (hrun : Run (Step nativeHeaders) s es u) :
    u.publish.remaining + es.countP Event.isOwn ≤ s.publish.remaining := by
  induction hrun with
  | nil s => exact Nat.le_refl _
  | cons head tail ih =>
    have hfirst := head.remaining
    rw [List.countP_cons]
    omega

/-- **A publish has one effect if it succeeds, and none if it fails.**  Whatever chain of outboxes
the bus has, whatever is published, whenever the token is cancelled, and whatever others do to the
repositories and the transport meanwhile:

* a publish that has ended well has stored one row in one repository and given nothing to the
  transport, or has given one message to the transport and stored no row; and if nobody else came
  in, that is all that has changed;
* a publish that has failed has neither stored a row nor given a message, and if nobody else came in
  nothing has changed;
* a publish that has not ended can go on, and it ends after at most one answer of each outbox and
  one of the transport. -/
theorem one_effect {b : Bus τ (Capture ρ) κ} {type : MessageType} {message : Json}
    {path : Option String} {headers : Headers}
    (hbegun : s.publish = b.publish nativeHeaders s.isCancelled type message path headers)
    (hrun : Run (Step nativeHeaders) s es u) :
    (u.publish = .ended (.ok ()) → ∃ e, effects es = [e] ∧ (Alone es → Differs s e u)) ∧
    (∀ cause, u.publish = .ended (.error cause) →
      effects es = [] ∧ (Alone es → Untouched s u)) ∧
    ((∃ result, u.publish = .ended result) ∨
      ∃ e v, Step nativeHeaders u e v ∧ e.isOwn = true) ∧
    es.countP Event.isOwn ≤ b.publishInterceptors.length + 1 := by
  obtain ⟨hopen, hlength⟩ :=
    publish_begun nativeHeaders b s.isCancelled type message path headers
  rw [← hbegun] at hopen hlength
  have haccounted : Accounted s es u :=
    hrun.history (Accounted s) (.inl ⟨rfl, hopen, fun _ => ⟨rfl, rfl⟩⟩)
      fun _ _ _ _ h hstep => h.step hstep
  have hremaining := remaining_of_run hrun
  refine ⟨?_, ?_, ?_, by omega⟩
  · intro hended
    rcases haccounted with ⟨-, hnot, -⟩ | ⟨e, hone, -, hdiffers⟩
    · exact absurd hended hnot
    · exact ⟨e, hone, hdiffers⟩
  · intro cause hended
    rcases haccounted with ⟨hnone, -, huntouched⟩ | ⟨-, -, hnot, -⟩
    · exact ⟨hnone, huntouched⟩
    · rw [hended] at hnot
      cases hnot
  · by_cases hdone : u.publish.remaining = 0
    · cases hpublish : u.publish with
      | ended result => exact .inl ⟨result, rfl⟩
      | intercepting p c rest => simp [hpublish, Publish.remaining] at hdone
      | producing m => simp [hpublish, Publish.remaining] at hdone
    · exact .inr (exists_step hdone)

/-- A bus with two outboxes, of which the first one captures invoices only. -/
def counter : Bus Unit (Capture Bool) Unit :=
  Outlet.shop [{ repository := false, types := some [⟨"Invoice"⟩] }, { repository := true }]

/-- An order that is about to be published there. -/
def order : Dispatch Bool where
  publish := counter.publish true false ⟨"Order"⟩ .null none []
  isCancelled := false
  repositories _ := { batchSize := 1, batchSize_pos := Nat.one_pos }
  transport := {}

/-- The second outbox stores the order.  If the token is cancelled before that outbox is asked, the
publish fails, and there is no row. -/
theorem one_effect_order :
    order.publish = counter.publish true order.isCancelled ⟨"Order"⟩ .null none [] ∧
    (∃ row u, Run (Step true) order [.passed, .stored true row, .cancelled] u ∧
      (u.repositories true).rows = [row] ∧ (u.repositories false).rows = [] ∧
      u.transport.produced = []) ∧
    ∃ u, Run (Step true) order [.passed, .cancelled, .refused] u ∧
      u.publish = .ended (.error .cancelled) ∧ Untouched order u := by
  have hbegun : order.publish = counter.publish true order.isCancelled ⟨"Order"⟩ .null none [] :=
    rfl
  refine ⟨hbegun, ?_, ?_⟩
  · have hrun : Run (Step true) order [.passed, .stored true _, .cancelled] _ :=
      .cons (.pass rfl rfl) <|
      .cons (.store (c := { repository := true }) rfl rfl ⟨1⟩ .epoch rfl) <| .cons .cancel (.nil _)
    obtain ⟨e, hone, hdiffers⟩ := (one_effect hbegun hrun).1 rfl
    obtain rfl : _ = e := List.head_eq_of_cons_eq hone
    obtain ⟨hrepositories, htransport⟩ := hdiffers (by simp [Alone])
    refine ⟨_, _, hrun, ?_, ?_, ?_⟩
    · rw [hrepositories]
      rfl
    · rw [hrepositories]
      rfl
    · rw [htransport]
      rfl
  · have hrun : Run (Step true) order [.passed, .cancelled, .refused] _ :=
      .cons (.pass rfl rfl) <| .cons .cancel <|
      .cons (.refuseRow rfl rfl ⟨1⟩ .epoch rfl) (.nil _)
    have hfailed := (one_effect hbegun hrun).2.1 _ rfl
    exact ⟨_, hrun, rfl, hfailed.2 (by simp [Alone])⟩

end Dispatch
end Courier
