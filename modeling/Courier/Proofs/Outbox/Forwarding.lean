import Courier.Outbox.Forwarder
import Courier.Proofs.Outbox.Rows
import Mathlib.Data.List.Infix

/-!
# What a forwarder has in hand

Between two calls a forwarder carries two things along: the rest of the batch that it has read, and
the ids of the rows that it has forwarded and not yet confirmed.  The lemmas of this file say how
each of its moves acts on the two.  A decision drops rows from the front of the batch and forgets
nothing that was forwarded; only the answer to a confirmation clears what was forwarded, and only
the answer to a reading brings a batch.
-/

namespace Courier

namespace Forwarder

variable {β : Type} {f : Forwarder β} {v : View β} {next : Option Instant}
variable {answer : RepositoryAnswer} {inst : String} {call : RepositoryCall}
variable {idle : Bool} {bus : β} {row : Row} {rest : List Row}

/-- The rows of the current batch whose forwarding has not come to an end. -/
def batch (f : Forwarder β) : List Row :=
  match f.stage with
  | .sending _ rows => rows
  | .forwarding _ _ row rest => row :: rest
  | _ => []

@[simp] theorem sent_roundFailed (cause : Failure) : (f.roundFailed cause).sent = f.sent := rfl

@[simp] theorem sent_roundOver (idle : Bool) : (f.roundOver idle).sent = f.sent := rfl

@[simp] theorem token_roundFailed (cause : Failure) : (f.roundFailed cause).token = f.token := rfl

@[simp] theorem token_roundOver (idle : Bool) : (f.roundOver idle).token = f.token := rfl

@[simp] theorem batch_roundFailed (cause : Failure) : (f.roundFailed cause).batch = [] := by
  cases h : cause.isCancellation <;> simp [roundFailed, batch, h]

@[simp] theorem batch_roundOver (idle : Bool) : (f.roundOver idle).batch = [] := by
  cases idle <;> rfl

/-- A forwarder waits for a lease, or for the delivery of a row. -/
def isWaiting (f : Forwarder β) : Bool :=
  match f.stage with
  | .locking _ | .forwarding .. => true
  | _ => false

theorem isWaiting_of_locking {expires : Instant} (h : f.stage = .locking expires) :
    f.isWaiting = true := by
  simp [isWaiting, h]

theorem isWaiting_of_forwarding (h : f.stage = .forwarding idle bus row rest) :
    f.isWaiting = true := by
  simp [isWaiting, h]

theorem isWaiting_roundFailed (cause : Failure) : (f.roundFailed cause).isWaiting = false := by
  cases h : cause.isCancellation <;> simp [roundFailed, isWaiting, h]

theorem isWaiting_roundOver (idle : Bool) : (f.roundOver idle).isWaiting = false := by
  cases idle <;> rfl

/-! ## Decisions -/

theorem sent_decide : (f.decide v next).1.sent = f.sent := by
  fun_cases f.decide v next with
  | case5 idle rows => fun_cases f.decideRow v idle rows <;> rfl
  | case6 idle result => fun_cases f.decideSettling v idle result <;> rfl
  | _ => rfl

theorem token_decide : (f.decide v next).1.token = f.token := by
  fun_cases f.decide v next with
  | case5 idle rows => fun_cases f.decideRow v idle rows <;> rfl
  | case6 idle result => fun_cases f.decideSettling v idle result <;> rfl
  | _ => rfl

/-- A decision about a row leaves the rows behind it, and the row itself if it is to be forwarded;
otherwise the batch is over. -/
theorem batch_decideRow_suffix (f : Forwarder β) (v : View β) (idle : Bool) (rows : List Row) :
    (f.decideRow v idle rows).batch <:+ rows := by
  fun_cases f.decideRow v idle rows with
  | case1 => exact List.nil_suffix
  | case2 => exact List.nil_suffix
  | case3 row rest => exact List.suffix_cons row rest
  | case4 row rest => exact List.suffix_refl (row :: rest)

theorem batch_decideSettling (idle : Bool) (result : BatchResult) :
    (f.decideSettling v idle result).batch = [] := by
  fun_cases f.decideSettling v idle result with
  | case4 => exact batch_roundOver idle
  | case5 => exact batch_roundFailed _
  | _ => rfl

/-- **A decision only drops rows** from the front of the batch. -/
theorem batch_decide_suffix : (f.decide v next).1.batch <:+ f.batch := by
  fun_cases f.decide v next with
  | case3 => simp
  | case5 idle rows hstage =>
    simpa only [batch, hstage] using batch_decideRow_suffix f v idle _
  | case6 idle result => simp [batch_decideSettling]
  | case9 => exact List.suffix_refl _
  | _ => exact List.nil_suffix

/-- Whether a forwarder sees that the lease of its next row lasts long enough. -/
def passesCheck (f : Forwarder β) (v : View β) : Bool :=
  match f.stage with
  | .sending _ (row :: _) => !v.isCancelled && leaseSuffices v.settings v.now row
  | _ => false

/-- The check is about the first row of the batch. -/
theorem batch_of_passesCheck (h : f.passesCheck v = true) :
    ∃ row rest, f.batch = row :: rest ∧ leaseSuffices v.settings v.now row = true := by
  simp only [passesCheck] at h
  split at h
  · next idle row rest hstage =>
    exact ⟨row, rest, by simp [batch, hstage], (Bool.and_eq_true_iff.mp h).2⟩
  · exact absurd h nofun

/-- A forwarder deals with a batch: only then it may have something to confirm. -/
def isBusy (f : Forwarder β) : Bool :=
  match f.stage with
  | .sending .. | .forwarding .. | .settling .. | .confirming .. => true
  | _ => false

/-- While there is something to confirm, no decision leads away from it. -/
theorem isBusy_decide (hbusy : f.isBusy = true) (hsent : f.sent ≠ []) :
    (f.decide v next).1.isBusy = true := by
  fun_cases f.decide v next with
  | case5 idle rows => fun_cases f.decideRow v idle rows <;> rfl
  | case6 idle result =>
    fun_cases f.decideSettling v idle result with
    | case1 => rfl
    | _ => simp_all
  | case9 => exact hbusy
  | _ => simp_all [isBusy]

/-- A lease is asked for at the start of a round, and counted from then. -/
theorem locking_of_decide {expires : Instant} :
    (f.decide v next).1.stage = .locking expires →
      f.stage = .locking expires ∨ expires = v.now.add v.settings.lockExpiration := by
  fun_cases f.decide v next with
  | case2 => exact fun h => .inr (by simpa using h.symm)
  | case3 idle => cases idle <;> exact nofun
  | case5 idle rows => fun_cases f.decideRow v idle rows <;> exact nofun
  | case6 idle result =>
    fun_cases f.decideSettling v idle result with
    | case4 => cases idle <;> exact nofun
    | case5 => exact fun h => absurd (isWaiting_of_locking h) (by simp [isWaiting_roundFailed])
    | _ => exact nofun
  | case9 => exact .inl
  | _ => exact nofun

/-- A row is forwarded only if its lease suffices when that is decided. -/
theorem forwarding_of_decide :
    (f.decide v next).1.stage = .forwarding idle bus row rest →
      f.stage = .forwarding idle bus row rest ∨
        (f.stage = .sending idle (row :: rest) ∧ v.isCancelled = false ∧
          leaseSuffices v.settings v.now row = true) := by
  fun_cases f.decide v next with
  | case3 idle => cases idle <;> exact nofun
  | case5 idle rows hstage =>
    fun_cases f.decideRow v idle rows with
    | case4 row rest hpasses =>
      simp only [Bool.or_eq_true, Bool.not_eq_true', not_or, Bool.not_eq_true,
        Bool.not_eq_false] at hpasses
      simp only [Stage.forwarding.injEq]
      rintro ⟨rfl, -, rfl, rfl⟩
      exact .inr ⟨hstage, hpasses⟩
    | _ => exact nofun
  | case6 idle result =>
    fun_cases f.decideSettling v idle result with
    | case4 => cases idle <;> exact nofun
    | case5 => exact fun h => absurd (isWaiting_of_forwarding h) (by simp [isWaiting_roundFailed])
    | _ => exact nofun
  | case9 => exact .inl
  | _ => exact nofun

/-! ## Answers -/

/-- A forwarder that waits for the repository has no batch in hand. -/
theorem batch_of_call? (hcall : f.call? inst = some call) : f.batch = [] := by
  cases h : f.stage <;> simp_all [call?, batch]

/-- A forwarder captures nothing. -/
theorem call?_ne_save (hcall : f.call? inst = some call) (row : Row) : call ≠ .save row := by
  cases h : f.stage <;> simp only [call?, h, Option.some.injEq, reduceCtorEq] at hcall <;>
    simp [← hcall]

/-- A forwarder calls for its own instance. -/
theorem instance_of_call? (hcall : f.call? inst = some call) :
    ∀ b ∈ call.instance?, b = inst := by
  cases h : f.stage <;> simp only [call?, h, Option.some.injEq, reduceCtorEq] at hcall <;>
    simp [← hcall, RepositoryCall.instance?]

/-- A forwarder asks for the lease that it has decided on. -/
theorem call?_tryToLock {b : String} {expires : Instant}
    (hcall : f.call? inst = some (.tryToLock b expires)) : f.stage = .locking expires := by
  cases h : f.stage <;> simp_all [call?]

/-- What a forwarder confirms is all that it has forwarded. -/
theorem call?_updateToSent {ids : List RowId} (hcall : f.call? inst = some (.updateToSent ids)) :
    ids = f.sent ∧ ∃ idle result, f.stage = .confirming idle result := by
  cases h : f.stage <;> simp_all [call?]

/-- The only call that a forwarder makes while it deals with a batch is the confirmation. -/
theorem call?_of_isBusy (hcall : f.call? inst = some call) (hbusy : f.isBusy = true) :
    call = .updateToSent f.sent := by
  cases h : f.stage <;> simp_all [call?, isBusy]

theorem token_answered : (f.answered answer).token = f.token := by
  fun_cases f.answered answer <;> rfl

/-- A call that failed clears nothing. -/
theorem sent_answered_failed (cause : Failure) : (f.answered (.failed cause)).sent = f.sent := by
  simp only [answered]
  split <;> simp_all

/-- **Only a confirmation clears what was forwarded**, and one that does not fail clears all. -/
theorem sent_answered (hcall : f.call? inst = some call)
    (hanswer : ∀ cause, answer ≠ .failed cause) :
    (f.answered answer).sent = f.sent ∧ (∀ ids, call ≠ .updateToSent ids) ∨
      (f.answered answer).sent = [] ∧ call = .updateToSent f.sent := by
  cases hstage : f.stage with
  | confirming idle result =>
    have hconfirm : call = .updateToSent f.sent := by simpa [call?, hstage] using hcall.symm
    refine .inr ⟨?_, hconfirm⟩
    fun_cases f.answered answer with
    | case9 _ _ cause => exact absurd rfl (hanswer cause)
    | case10 => rfl
    | _ => simp_all
  | _ =>
    refine .inl ⟨?_, ?_⟩
    · fun_cases f.answered answer with
      | case10 => simp_all
      | _ => rfl
    · rintro ids rfl
      obtain ⟨-, idle, result, hconfirming⟩ := call?_updateToSent hcall
      simp [hstage] at hconfirming

/-- **Only a reading brings a batch.** -/
theorem batch_answered (hcall : f.call? inst = some call) (answer : RepositoryAnswer) :
    (f.answered answer).batch = [] ∨ answer = .rows (f.answered answer).batch := by
  fun_cases f.answered answer with
  | case3 => exact .inl (batch_roundFailed _)
  | case4 => exact .inl (batch_roundOver _)
  | case6 => exact .inl (batch_roundFailed _)
  | case7 => exact .inr rfl
  | case8 => exact .inl (batch_roundOver _)
  | case9 => exact .inl (batch_roundFailed _)
  | case11 => exact .inl (batch_roundFailed _)
  | case13 _ cause =>
    left
    cases cause.isCancellation <;> simp [batch]
  | case15 => exact .inl (batch_of_call? hcall)
  | _ => exact .inl rfl

/-- After an answer a forwarder waits neither for a lease nor for a delivery. -/
theorem isWaiting_answered (hcall : f.call? inst = some call) (answer : RepositoryAnswer) :
    (f.answered answer).isWaiting = false := by
  fun_cases f.answered answer with
  | case3 => exact isWaiting_roundFailed _
  | case4 => exact isWaiting_roundOver _
  | case6 => exact isWaiting_roundFailed _
  | case8 => exact isWaiting_roundOver _
  | case9 => exact isWaiting_roundFailed _
  | case11 => exact isWaiting_roundFailed _
  | case13 _ cause => cases cause.isCancellation <;> rfl
  | case15 =>
    cases h : f.stage with
    | locking => simp_all
    | forwarding => simp [call?, h] at hcall
    | _ => simp [isWaiting, h]
  | _ => rfl

theorem token_resumed (isCancelled : Bool) : (f.resumed isCancelled).token = f.token := rfl

theorem isWaiting_resumed (isCancelled : Bool) : (f.resumed isCancelled).isWaiting = false := by
  cases isCancelled <;> rfl

theorem batch_resumed (isCancelled : Bool) : (f.resumed isCancelled).batch = [] := by
  cases isCancelled <;> rfl

/-! ## Forwarding -/

theorem batch_of_forwarding (hstage : f.stage = .forwarding idle bus row rest) :
    f.batch = row :: rest := by
  simp [batch, hstage]

theorem token_forwarded (result : Except Failure Unit) :
    (f.forwarded idle row rest result).token = f.token := by
  fun_cases f.forwarded idle row rest result <;> rfl

theorem isWaiting_forwarded (result : Except Failure Unit) :
    (f.forwarded idle row rest result).isWaiting = false := by
  fun_cases f.forwarded idle row rest result <;> rfl

theorem isBusy_forwarded (result : Except Failure Unit) :
    (f.forwarded idle row rest result).isBusy = true := by
  fun_cases f.forwarded idle row rest result <;> rfl

theorem sent_forwarded_error (cause : Failure) :
    (f.forwarded idle row rest (.error cause)).sent = f.sent := by
  simp only [forwarded]
  split <;> rfl

theorem batch_forwarded_suffix (result : Except Failure Unit) :
    (f.forwarded idle row rest result).batch <:+ rest := by
  fun_cases f.forwarded idle row rest result with
  | case2 => exact List.nil_suffix
  | _ => exact List.suffix_refl rest

end Forwarder
end Courier
