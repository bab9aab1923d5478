import Courier.Proofs.Outbox.Forwarding
import Courier.Proofs.Publishing.Chain
import Courier.Proofs.Run

/-!
# What ends a loop

A loop works with parts that answer as they like: the repository, the interceptors of a bus, and its
transport.  Whatever fails among them, the loop goes on, with one exception: it takes a cancellation
for its own, no matter who reports it.

`Forwarder.Move` is one move of a forwarder whose surroundings may do anything, and `Loop` adds the
publish of the row that is being forwarded, so that what an interceptor or a transport answers is
followed up to the end of the loop.  `Forwarder.isSteady` says that nothing leads a forwarder to its
end, and every move keeps it unless a cancellation comes in.

Main statements: `ended_only_by_cancellation` and `ended_by_foreign_cancellation`.
-/

namespace Courier

theorem Failure.isCancellation_iff {cause : Failure} :
    cause.isCancellation = true ↔ cause = .cancelled := by
  cases cause <;> simp [isCancellation]

/-- The bus reports a cancellation exactly if the transport did. -/
theorem TransportMessage.isCancellation_reported (m : TransportMessage) (cause : Failure) :
    (m.reported cause).isCancellation = cause.isCancellation := by
  cases cause <;> rfl

/-- A batch has failed with a cancellation. -/
def BatchResult.isCancellation : BatchResult → Bool
  | .failed cause => cause.isCancellation
  | _ => false

/-! ## Moves of a forwarder -/

namespace Forwarder

variable {β : Type}

/-- What a forwarder goes on with. -/
inductive Occasion (β : Type)
  /-- It decides something for what it sees; `next` is the mark of the next cleanup. -/
  | decision (v : View β) (next : Option Instant)
  /-- The repository answers its call. -/
  | answer (answer : RepositoryAnswer)
  /-- A row has been forwarded or not. -/
  | result (result : Except Failure Unit)
  /-- Its pause is over. -/
  | pauseOver (early : Bool)

/-- One move of a forwarder.  Only its own token is given: the time, the buses and the answers may
be any. -/
inductive Move (isCancelled : Bool) : Forwarder β → Occasion β → Forwarder β → Prop
  | decide {f : Forwarder β} {v : View β} (next : Option Instant)
      (hview : v.isCancelled = isCancelled) :
      Move isCancelled f (.decision v next) (f.decide v next).1
  | answer {f : Forwarder β} (inst : String) {call : RepositoryCall}
      (hcall : f.call? inst = some call) (answer : RepositoryAnswer) :
      Move isCancelled f (.answer answer) (f.answered answer)
  | forward {f : Forwarder β} {idle : Bool} {bus : β} {row : Row} {rest : List Row}
      (hstage : f.stage = .forwarding idle bus row rest) (result : Except Failure Unit) :
      Move isCancelled f (.result result) (f.forwarded idle row rest result)
  | resume {f : Forwarder β} {early : Bool} (hstage : f.stage = .pausing)
      (hearly : early = true → isCancelled = true) :
      Move isCancelled f (.pauseOver early) (f.resumed early)

/-- It has prepared its repository, and nothing leads to its end. -/
def isSteady (f : Forwarder β) : Bool :=
  match f.stage with
  | .migrating | .ended => false
  | .settling _ batch | .confirming _ batch | .releasing _ batch _ => !batch.isCancellation
  | _ => true

/-- What a forwarder is given is a cancellation. -/
def Occasion.isCancellation : Occasion β → Bool
  | .answer (.failed cause) | .result (.error cause) => cause.isCancellation
  | _ => false

variable {f g : Forwarder β} {v : View β} {next : Option Instant} {o : Occasion β}
variable {idle : Bool} {row : Row} {rest : List Row} {result : Except Failure Unit}
variable {answer : RepositoryAnswer} {cause : Failure}

theorem not_isEnded_of_isSteady (h : f.isSteady = true) : f.isEnded = false := by
  cases hstage : f.stage <;> simp_all [isSteady, isEnded]

theorem isSteady_roundOver (idle : Bool) : (f.roundOver idle).isSteady = true := by
  cases idle <;> rfl

theorem isSteady_roundFailed (h : cause.isCancellation = false) :
    (f.roundFailed cause).isSteady = true := by
  simp [roundFailed, isSteady, h]

theorem isSteady_decideRow (idle : Bool) (rows : List Row) :
    (f.decideRow v idle rows).isSteady = true := by
  fun_cases f.decideRow v idle rows <;> rfl

/-- What has to be told to the repository after a batch does not change how the batch went. -/
theorem isSteady_decideSettling {batch : BatchResult} (hbatch : batch.isCancellation = false) :
    (f.decideSettling v idle batch).isSteady = true := by
  fun_cases f.decideSettling v idle batch with
  | case1 => simp [isSteady, hbatch]
  | case2 => simp [isSteady, hbatch]
  | case3 => rfl
  | case4 => exact isSteady_roundOver idle
  | case5 => exact isSteady_roundFailed hbatch

/-- Under a live token no decision leads to the end. -/
theorem isSteady_decide (hlive : v.isCancelled = false) (h : f.isSteady = true) :
    (f.decide v next).1.isSteady = true := by
  fun_cases f.decide v next with
  | case1 _ hcancelled => simp [hlive] at hcancelled
  | case3 idle _ hcancelled => simp [hlive] at hcancelled
  | case5 idle rows => exact isSteady_decideRow idle rows
  | case6 idle batch hstage => exact isSteady_decideSettling (by simpa [isSteady, hstage] using h)
  | case9 => exact h
  | _ => rfl

/-- An answer leads to the end only if it is a cancellation. -/
theorem isSteady_answered (hanswer : ∀ cause, answer = .failed cause → cause.isCancellation = false)
    (h : f.isSteady = true) : (f.answered answer).isSteady = true := by
  fun_cases f.answered answer with
  | case1 _ hstage => simp [isSteady, hstage] at h
  | case3 => exact isSteady_roundFailed (hanswer _ rfl)
  | case4 => exact isSteady_roundOver _
  | case6 => exact isSteady_roundFailed (hanswer _ rfl)
  | case8 => exact isSteady_roundOver _
  | case9 => exact isSteady_roundFailed (hanswer _ rfl)
  | case10 => simp_all [isSteady]
  | case11 => exact isSteady_roundFailed (hanswer _ rfl)
  | case12 => simp_all [isSteady]
  | case13 => simp [isSteady, hanswer _ rfl]
  | case15 => exact h
  | _ => rfl

/-- A row that is forwarded or not leads to the end only if its forwarding was cancelled. -/
theorem isSteady_forwarded
    (hresult : ∀ cause, result = .error cause → cause.isCancellation = false) :
    (f.forwarded idle row rest result).isSteady = true := by
  fun_cases f.forwarded idle row rest result with
  | case2 cause => simp [isSteady, BatchResult.isCancellation, hresult cause rfl]
  | _ => rfl

/-- **Under a live token, no move leads to the end** unless a cancellation comes in. -/
theorem Move.isSteady (hmove : Move false f o g) (hcalm : o.isCancellation = false)
    (h : f.isSteady = true) : g.isSteady = true := by
  cases hmove with
  | decide next hview => exact isSteady_decide hview h
  | answer inst hcall answer =>
    refine isSteady_answered ?_ h
    rintro cause rfl
    exact hcalm
  | forward hstage result =>
    refine isSteady_forwarded ?_
    rintro cause rfl
    exact hcalm
  | resume hstage hearly =>
    simp only [Bool.false_eq_true, imp_false, Bool.not_eq_true] at hearly
    rw [hearly]
    rfl

end Forwarder

/-! ## Loops -/

/-- One run of the outbox loop, with the publish of the row that it forwards. -/
structure Loop (β ι : Type) where
  forwarder : Forwarder β
  publish : Option (Publish ι) := none
  /-- Whether the token of the loop has been cancelled. -/
  isCancelled : Bool := false

namespace Loop

variable {β ι τ κ : Type}

/-- What can happen to a loop. -/
inductive Event (β τ ι κ : Type)
  /-- Its token is cancelled. -/
  | cancel
  /-- It decides, its repository answers, or its pause is over. -/
  | move (o : Forwarder.Occasion β)
  /-- The row is published through a bus, as that is then. -/
  | publish (b : Bus τ ι κ)
  /-- An interceptor answers. -/
  | intercepted (answer : Except Failure Decision) (p : Publication)
  /-- The transport answers. -/
  | produced (result : Except Failure Unit)
  /-- The publish has ended, and the loop takes its result. -/
  | forwarded

/-- One of the parts that the loop works with reports a cancellation. -/
def Event.reportsCancellation : Event β τ ι κ → Bool
  | .move (.answer (.failed cause)) | .intercepted (.error cause) _ | .produced (.error cause) =>
    cause.isCancellation
  | _ => false

/-- One step of a loop; `native` says whether the transport of a bus carries headers. -/
inductive Step (native : β → Bool) : Loop β ι → Event β τ ι κ → Loop β ι → Prop
  | cancel {s : Loop β ι} : Step native s .cancel { s with isCancelled := true }
  | move {s : Loop β ι} {o : Forwarder.Occasion β} {f : Forwarder β}
      (hmove : s.forwarder.Move s.isCancelled o f) (hother : ∀ result, o ≠ .result result) :
      Step native s (.move o) { s with forwarder := f }
  | publish {s : Loop β ι} {idle : Bool} {bus : β} {row : Row} {rest : List Row}
      (hstage : s.forwarder.stage = .forwarding idle bus row rest) (hpublish : s.publish = none)
      (b : Bus τ ι κ) :
      Step native s (.publish b)
        { s with publish := some (b.forward (native bus) s.isCancelled row) }
  | intercepted {s : Loop β ι} {idle : Bool} {bus : β} {row : Row} {rest : List Row}
      {p : Publication} {i : ι} {others : List ι}
      (hstage : s.forwarder.stage = .forwarding idle bus row rest)
      (hpublish : s.publish = some (.intercepting p i others)) (answer : Except Failure Decision)
      (p' : Publication) :
      Step native s (.intercepted answer p')
        { s with publish := some (.intercepted (native bus) p' others answer) }
  | produced {s : Loop β ι} {m : TransportMessage} (hpublish : s.publish = some (.producing m))
      (result : Except Failure Unit) :
      Step native s (.produced result) { s with publish := some (.produced m result) }
  | forwarded {s : Loop β ι} {idle : Bool} {bus : β} {row : Row} {rest : List Row}
      {result : Except Failure Unit} (hstage : s.forwarder.stage = .forwarding idle bus row rest)
      (hpublish : s.publish = some (.ended result)) :
      Step native s .forwarded
        { s with forwarder := s.forwarder.forwarded idle row rest result, publish := none }

/-- A loop that has prepared its repository. -/
def prepared (token : Token) (isCancelled : Bool) : Loop β ι :=
  { forwarder := ({ token } : Forwarder β).answered .done, isCancelled }

variable {native : β → Bool} {s u : Loop β ι} {e : Event β τ ι κ} {es : List (Event β τ ι κ)}
variable {b : Bus τ ι κ} {row : Row} {cause : Failure}

/-- What a publish under way ends with is not a cancellation. -/
def IsCalm (p : Publish ι) : Prop :=
  ∀ cause, p = .ended (.error cause) → cause.isCancellation = false

theorem isCalm_offer (nativeHeaders : Bool) (p : Publication) (others : List ι) :
    IsCalm (.offer nativeHeaders p others) := by
  cases others <;> exact nofun

/-- Under a live token, a row that cannot be published fails for another reason than a
cancellation. -/
theorem isCalm_forward (b : Bus τ ι κ) (nativeHeaders : Bool) (row : Row) :
    IsCalm (b.forward nativeHeaders false row) := by
  unfold Bus.forward Bus.publish
  split
  · rintro cause ⟨⟩
    rfl
  · split
    · next hrefused =>
      rintro cause ⟨⟩
      exact Bus.publication_error hrefused
    · exact isCalm_offer _ _ _

theorem isCalm_intercepted (nativeHeaders : Bool) (p : Publication) (others : List ι)
    {answer : Except Failure Decision}
    (hanswer : ∀ cause, answer = .error cause → cause.isCancellation = false) :
    IsCalm (.intercepted nativeHeaders p others answer) := by
  match answer with
  | .ok .proceed => exact isCalm_offer _ _ _
  | .ok .handled => exact nofun
  | .error cause =>
    rintro _ ⟨⟩
    exact hanswer cause rfl

theorem isCalm_produced (m : TransportMessage) {result : Except Failure Unit}
    (hresult : ∀ cause, result = .error cause → cause.isCancellation = false) :
    IsCalm (Publish.produced m result : Publish ι) := by
  match result with
  | .ok () => exact nofun
  | .error cause =>
    rintro _ ⟨⟩
    exact (m.isCancellation_reported cause).trans (hresult cause rfl)

/-- Nothing leads to the end of the loop. -/
structure Steady (s : Loop β ι) : Prop where
  forwarder : s.forwarder.isSteady = true
  publish : ∀ p, s.publish = some p → IsCalm p

/-- **Under a live token, no step leads to the end** unless somebody reports a cancellation. -/
theorem Steady.step (hsteady : s.Steady) (hlive : s.isCancelled = false)
    (hcalm : e.reportsCancellation = false) (hstep : Step native s e u) : u.Steady := by
  cases hstep with
  | cancel => exact ⟨hsteady.forwarder, hsteady.publish⟩
  | @move o f hmove hother =>
    rw [hlive] at hmove
    refine ⟨hmove.isSteady ?_ hsteady.forwarder, hsteady.publish⟩
    cases o with
    | answer answer =>
      cases answer with
      | failed cause => exact hcalm
      | _ => rfl
    | result result => exact absurd rfl (hother result)
    | _ => rfl
  | publish hstage hpublish b =>
    refine ⟨hsteady.forwarder, ?_⟩
    rintro _ ⟨⟩
    rw [hlive]
    exact isCalm_forward b _ _
  | intercepted hstage hpublish answer p' =>
    refine ⟨hsteady.forwarder, ?_⟩
    rintro _ ⟨⟩
    refine isCalm_intercepted _ _ _ ?_
    rintro cause rfl
    exact hcalm
  | produced hpublish result =>
    refine ⟨hsteady.forwarder, ?_⟩
    rintro _ ⟨⟩
    refine isCalm_produced _ ?_
    rintro cause rfl
    exact hcalm
  | forwarded hstage hpublish =>
    refine ⟨Forwarder.isSteady_forwarded ?_, nofun⟩
    rintro cause rfl
    exact hsteady.publish _ hpublish cause rfl

/-- A token stays cancelled. -/
theorem Step.isCancelled (hstep : Step native s e u) (hcancelled : s.isCancelled = true) :
    u.isCancelled = true := by
  cases hstep with
  | cancel => rfl
  | _ => exact hcancelled

/-- Until its token is cancelled the loop is steady, or somebody has reported a cancellation. -/
theorem Steady.of_run (hsteady : s.Steady) (hrun : Run (Step native) s es u) :
    u.isCancelled = true ∨ (∃ e ∈ es, e.reportsCancellation = true) ∨ u.Steady := by
  refine hrun.history
    (fun es u => u.isCancelled = true ∨ (∃ e ∈ es, e.reportsCancellation = true) ∨ u.Steady)
    (.inr (.inr hsteady)) ?_
  rintro ds s e u (hcancelled | ⟨d, hd, hreports⟩ | hsteady) hstep
  · exact .inl (hstep.isCancelled hcancelled)
  · exact .inr (.inl ⟨d, List.mem_append_left _ hd, hreports⟩)
  · cases hlive : s.isCancelled with
    | true => exact .inl (hstep.isCancelled hlive)
    | false =>
      cases hcalm : e.reportsCancellation with
      | true => exact .inr (.inl ⟨e, by simp, hcalm⟩)
      | false => exact .inr (.inr (hsteady.step hlive hcalm hstep))

theorem steady_prepared (token : Token) (isCancelled : Bool) :
    (prepared token isCancelled : Loop β ι).Steady where
  forwarder := rfl
  publish := nofun

/-- **Only a cancellation ends a loop.**  However its repository, the interceptors and the transport
behave once the repository is prepared: a loop that has ended has had its own token cancelled, or a
call of the repository, an interceptor or the transport has reported a cancellation to it. -/
theorem ended_only_by_cancellation {token : Token} {isCancelled : Bool}
    (hrun : Run (Step native) (prepared token isCancelled) es s)
    (hended : s.forwarder.isEnded = true) :
    s.isCancelled = true ∨ ∃ e ∈ es, e.reportsCancellation = true := by
  rcases (steady_prepared token isCancelled).of_run hrun with hcancelled | hreported | hsteady
  · exact .inl hcancelled
  · exact .inr hreported
  · have halive := Forwarder.not_isEnded_of_isSteady hsteady.forwarder
    rw [hended] at halive
    exact absurd halive nofun

/-! ## A loop over one row -/

/-- A quiet time, at which every row is delivered through the same bus. -/
def calmView : Forwarder.View Unit :=
  { settings := {}, now := .epoch, isCancelled := false, route := fun _ => some () }

/-- An order that the loop has leased for a minute. -/
def leasedOrder : Row :=
  { id := ⟨1⟩, busName := none, path := "orders", messageType := ⟨"Order"⟩, payload := [123, 125]
    headers := [], lockInstance := some "worker", timestamp := .epoch
    lockExpires := some (Instant.epoch.add ⟨60000000000⟩) }

/-- A bus that publishes orders. -/
def orderBus : Bus Unit Unit Unit :=
  { name := none, transport := (), serializer := .json, producers := [{ messageType := ⟨"Order"⟩ }]
    requestResponse := none, publishInterceptors := [], observers := []
    sweeper := { interval := ⟨1000000000⟩ } }

/-- The loop decides. -/
def decision : Event Unit Unit Unit Unit := .move (.decision calmView none)

/-- The repository answers the loop. -/
def answer (a : RepositoryAnswer) : Event Unit Unit Unit Unit := .move (.answer a)

/-- The transport takes the order for cancelled, and the loop ends with its batch. -/
theorem ended_only_by_cancellation_transport : ∃ s : Loop Unit Unit,
    Run (Step fun _ => true) (prepared ⟨0⟩ false)
      [decision, answer (.count 1), decision, answer (.rows [leasedOrder]), decision,
        .publish orderBus, .produced (.error .cancelled), .forwarded, decision] s ∧
    s.forwarder.isEnded = true ∧
    (s.isCancelled = true ∨ ∃ e ∈ [decision, answer (.count 1), decision,
      answer (.rows [leasedOrder]), decision, .publish orderBus, .produced (.error .cancelled),
      .forwarded, decision], e.reportsCancellation = true) := by
  have hrun : Run (Step fun _ => true) (prepared ⟨0⟩ false : Loop Unit Unit)
      [decision, answer (.count 1), decision, answer (.rows [leasedOrder]), decision,
        .publish orderBus, .produced (.error .cancelled), .forwarded, decision] _ :=
    .cons (.move (.decide none rfl) nofun) <|
    .cons (.move (.answer "worker" rfl (.count 1)) nofun) <|
    .cons (.move (.decide none rfl) nofun) <|
    .cons (.move (.answer "worker" rfl (.rows [leasedOrder])) nofun) <|
    .cons (.move (.decide none rfl) nofun) <|
    .cons (.publish rfl rfl orderBus) <|
    .cons (.produced rfl (.error .cancelled)) <|
    .cons (.forwarded rfl rfl) <|
    .cons (.move (.decide none rfl) nofun) (.nil _)
  exact ⟨_, hrun, rfl, ended_only_by_cancellation hrun rfl⟩

/-- **A cancellation that is not its own ends a loop.**  The repository reports one for the first
lease, and the loop has ended, although nobody has cancelled its token. -/
theorem ended_by_foreign_cancellation : ∃ s : Loop Unit Unit,
    Run (Step fun _ => true) (prepared ⟨0⟩ false) [decision, answer (.failed .cancelled)] s ∧
    s.forwarder.isEnded = true ∧ s.isCancelled = false := by
  have hrun : Run (Step fun _ => true) (prepared ⟨0⟩ false : Loop Unit Unit)
      [decision, answer (.failed .cancelled)] _ :=
    .cons (.move (.decide none rfl) nofun) <|
    .cons (.move (.answer "worker" rfl (.failed .cancelled)) nofun) (.nil _)
  exact ⟨_, hrun, rfl, rfl⟩

end Loop
end Courier
