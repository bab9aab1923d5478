import Courier.Outbox.Forwarder
import Courier.Proofs.Outbox.Tenure

/-!
# Leases along the rows

Calls of any instances come to an empty repository in any order and at any times.  They are patient
if what is captured is not leased, and no instance ever asks for a lease that ends earlier than one
that it asked for before (`Patient`).  Then the leases that one instance holds never get longer from
the front of the repository to its back, no matter what the others take over, give back, mark sent
or remove meanwhile.

The invariant is `Ranked`: besides the order it says that an instance holds no row longer than it
has asked for, so a new lease is its longest one.  A call for leases starts at the front, and
whatever the instance holds it may take again, so the rows that it does not reach are behind those
that it takes (`LeaseOrder.lockRows`).

Main statement: `Repository.leases_shorten`.
-/

namespace Courier

/-- The expiry that a call asks for in the name of an instance. -/
def Visit.asks? (v : Visit) (a : String) : Option Instant :=
  match v.call with
  | .tryToLock inst expires => if inst = a ∧ v.isCancelled = false then some expires else none
  | _ => none

/-- The expiries that an instance asks for, one after the other. -/
def expiries (a : String) (vs : List Visit) : List Instant := vs.filterMap (·.asks? a)

/-- What is captured is not leased, and each instance asks for leases that end no earlier than those
that it asked for before. -/
structure Patient (vs : List Visit) : Prop where
  unlocked : ∀ v ∈ vs, ∀ row, v.call = .save row → row.lockInstance = none
  rising : ∀ a, (expiries a vs).Pairwise (· ≤ ·)

theorem expiries_append (a : String) (vs : List Visit) (v : Visit) :
    expiries a (vs ++ [v]) = expiries a vs ++ (v.asks? a).toList := by
  cases h : v.asks? a <;> simp [expiries, h]

theorem mem_expiries_append {a : String} {vs : List Visit} {e : Instant} (h : e ∈ expiries a vs)
    (v : Visit) : e ∈ expiries a (vs ++ [v]) := by
  rw [expiries_append]
  exact List.mem_append_left _ h

namespace Patient

variable {vs : List Visit} {v : Visit}

/-- The calls up to some time are patient if all are. -/
theorem of_append (h : Patient (vs ++ [v])) : Patient vs where
  unlocked w hw := h.unlocked w (List.mem_append_left _ hw)
  rising a := by
    have hall := h.rising a
    rw [expiries_append] at hall
    exact (List.pairwise_append.mp hall).1

/-- What an instance asks for last ends last. -/
theorem le_of_asks? (h : Patient (vs ++ [v])) {a : String} {expires e : Instant}
    (hasks : v.asks? a = some expires) (he : e ∈ expiries a vs) : e ≤ expires := by
  have hall := h.rising a
  rw [expiries_append, hasks] at hall
  exact (List.pairwise_append.mp hall).2.2 e he expires List.mem_cons_self

end Patient

namespace Row

/-- Whoever holds the lease on a row, the lease has an end. -/
def Limited (r : Row) : Prop := ∀ a, r.lockInstance = some a → ∃ e, r.lockExpires = some e

theorem limited_of_free {r : Row} (h : r.lockInstance = none) : r.Limited :=
  fun _ howner => absurd (h.symm.trans howner) nofun

end Row

namespace Repository

open Watch (clock)

variable {s u : Repository} {vs : List Visit} {v : Visit} {r r' : Row} {a : String}
variable {call : RepositoryCall} {now : Instant} {n : Nat} {found : List Row} {last : Row}

/-- Every lease that a call takes has an end. -/
theorem Change.limited (h : Change call now r r') (hlimited : r.Limited) : r'.Limited := by
  cases call with
  | tryToLock inst expires =>
    rcases h with rfl | ⟨-, rfl⟩
    · exact hlimited
    · exact fun _ _ => ⟨expires, rfl⟩
  | updateToSent ids =>
    subst h
    split
    · cases hdelivered : r.deliveredOn <;>
        simpa [Row.delivered, hdelivered, Row.Limited] using hlimited
    · exact hlimited
  | release inst ids retryAfter =>
    subst h
    split
    · exact Row.limited_of_free rfl
    · exact hlimited
  | _ => exact (show r' = r from h) ▸ hlimited

/-- A call comes to a repository. -/
def Visits (s : Repository) (v : Visit) (u : Repository) : Prop := u = s.visited v

/-- The leases of each instance are in order, none is longer than what the instance has asked for,
and all of them end. -/
structure Ranked (vs : List Visit) (s : Repository) : Prop where
  ordered : ∀ a, LeaseOrder a s.rows
  asked : ∀ a, ∀ r ∈ s.rows, ∀ e, r.Held a e → e ∈ expiries a vs
  limited : ∀ r ∈ s.rows, r.Limited

namespace Ranked

/-- In an empty repository nothing is leased. -/
theorem of_empty (n : Nat) : Ranked [] (.empty n) where
  ordered _ := .nil
  asked _ _ hr := absurd hr List.not_mem_nil
  limited _ hr := absurd hr List.not_mem_nil

/-- A call that changes no row. -/
theorem of_rows_eq (h : Ranked vs s) (hrows : u.rows = s.rows) (v : Visit) :
    Ranked (vs ++ [v]) u where
  ordered a := hrows ▸ h.ordered a
  asked a r hr e hheld := mem_expiries_append (h.asked a r (hrows ▸ hr) e hheld) v
  limited r hr := h.limited r (hrows ▸ hr)

/-- A captured message is not leased. -/
theorem save {row : Row} (h : Ranked vs s) (hrows : u.rows = s.rows ++ [row])
    (hfree : row.lockInstance = none) (v : Visit) : Ranked (vs ++ [v]) u := by
  have hnot : ∀ a e, ¬row.Held a e := fun a e hheld => absurd (hfree.symm.trans hheld.2.1) nofun
  have hmem : ∀ r ∈ u.rows, r ∈ s.rows ∨ r = row := by simp [hrows]
  constructor
  case ordered =>
    intro a
    rw [LeaseOrder, hrows, List.pairwise_append]
    refine ⟨h.ordered a, List.pairwise_singleton _ _, fun r _ q hq d e _ he => ?_⟩
    obtain rfl := List.mem_singleton.mp hq
    exact absurd he (hnot a e)
  case asked =>
    intro a r hr e hheld
    rcases hmem r hr with hold | rfl
    · exact mem_expiries_append (h.asked a r hold e hheld) v
    · exact absurd hheld (hnot a e)
  case limited =>
    intro r hr
    rcases hmem r hr with hold | rfl
    · exact h.limited r hold
    · exact Row.limited_of_free hfree

/-- **No call disturbs the order of leases**, as long as an instance does not ask for a lease that
ends before one that it has asked for. -/
theorem visited (h : Ranked vs s) (hpatient : Patient (vs ++ [v])) :
    Ranked (vs ++ [v]) (s.visited v) := by
  obtain ⟨call, now, isCancelled⟩ := v
  cases isCancelled with
  | true => exact h.of_rows_eq (by simp [Repository.visited, perform_cancelled]) _
  | false =>
    by_cases hsave : ∃ row, call = .save row
    · obtain ⟨row, rfl⟩ := hsave
      exact h.save (perform_save_rows s now row)
        (hpatient.unlocked _ (List.mem_append_right _ List.mem_cons_self) row rfl) _
    have hupdates := perform_updates s now call fun row hrow => hsave ⟨row, hrow⟩
    constructor
    case ordered =>
      intro a
      by_cases hasks : ∃ expires, call = .tryToLock a expires
      · obtain ⟨expires, rfl⟩ := hasks
        exact (h.ordered a).lockRows (fun r hr e hheld =>
          hpatient.le_of_asks? (by simp [Visit.asks?]) (h.asked a r hr e hheld)) s.batchSize
      · exact (h.ordered a).of_updates hupdates fun e hcall => hasks ⟨e, hcall⟩
    case asked =>
      intro a r' hr' e hheld
      obtain ⟨r, hr, hchange⟩ := hupdates.source hr'
      rcases hchange.held_before hheld with hold | rfl
      · exact mem_expiries_append (h.asked a r hr e hold) _
      · simp [expiries_append, Visit.asks?]
    case limited =>
      intro r' hr'
      obtain ⟨r, hr, hchange⟩ := hupdates.source hr'
      exact hchange.limited (h.limited r hr)

/-- After any patient calls leases are in order. -/
theorem of_run (hrun : Run Visits (.empty n) vs s) (hpatient : Patient vs) : Ranked vs s := by
  refine hrun.history (fun vs s => Patient vs → Ranked vs s) (fun _ => of_empty n) ?_ hpatient
  rintro ds s v u h rfl hpatient
  exact (h hpatient.of_append).visited hpatient

end Ranked

/-- In rows whose leases are in order the last one has the earliest expiry. -/
theorem LeaseOrder.last_le {rows : List Row} (h : LeaseOrder a rows)
    (hlast : rows.getLast? = some last) {d e : Instant} (he : last.Held a e) (hr : r ∈ rows)
    (hd : r.Held a d) : e ≤ d := by
  obtain ⟨front, rfl⟩ := List.getLast?_eq_some_iff.mp hlast
  rcases List.mem_append.mp hr with hfront | hback
  · exact (List.pairwise_append.mp h).2.2 r hfront last List.mem_cons_self d e hd he
  · obtain rfl := List.mem_singleton.mp hback
    exact le_of_eq (he.unique hd).2

/-- A lease that is no shorter passes the check as well. -/
theorem leaseSuffices_of_le {settings : OutboxSettings} {clock d e : Instant}
    (he : last.Held a e) (hd : r.Held a d) (hle : e ≤ d)
    (hcheck : Forwarder.leaseSuffices settings clock last = true) :
    Forwarder.leaseSuffices settings clock r = true := by
  simp only [Forwarder.leaseSuffices, he.2.2, hd.2.2, Bool.not_eq_true', decide_eq_false_iff_not,
    not_lt] at hcheck ⊢
  exact le_trans hcheck hle

/-- **An instance's leases shorten along the order of capture.**  After any calls of any instances,
at any times, in which what is captured is not leased and the expiries that an instance asks for
never come earlier than before, every row that is leased and not sent has an expiry, and of two rows
of one instance the later one expires no later.  So the last row of a batch that an instance reads
has the earliest expiry of the batch, and if its lease is long enough to be forwarded, all of them
are. -/
theorem leases_shorten (hpatient : Patient vs) (hrun : Run Visits (.empty n) vs s) :
    (∀ a, LeaseOrder a s.rows ∧
      ∀ r ∈ s.rows, r.isSent = false → r.lockInstance = some a → ∃ e, r.Held a e) ∧
    ∀ a now found, (s.perform false now (.findNextToSend a)).2 = .rows found →
      ∀ last ∈ found.getLast?, ∃ e, last.Held a e ∧ ∀ r ∈ found, ∃ d, r.Held a d ∧ e ≤ d ∧
        ∀ settings clock, Forwarder.leaseSuffices settings clock last = true →
          Forwarder.leaseSuffices settings clock r = true := by
  have hranked := Ranked.of_run hrun hpatient
  constructor
  · intro a
    refine ⟨hranked.ordered a, fun r hr hunsent howner => ?_⟩
    obtain ⟨e, hexpires⟩ := hranked.limited r hr a howner
    exact ⟨e, hunsent, howner, hexpires⟩
  · intro a now found hfound last hlast
    obtain ⟨inst, hcall, -, rfl⟩ := perform_answer_rows hfound
    obtain rfl := RepositoryCall.findNextToSend.inj hcall
    have hbatch : LeaseOrder a (leasedRows a now s.batchSize s.rows) :=
      (hranked.ordered a).sublist (leasedRows_sublist a now s.batchSize s.rows)
    have hheld : ∀ r ∈ leasedRows a now s.batchSize s.rows, ∃ e, r.Held a e :=
      fun r hr => Row.held_of_leasedTo (leasedTo_of_mem_leasedRows hr)
    obtain ⟨e, he⟩ := hheld last (List.mem_of_getLast? hlast)
    refine ⟨e, he, fun r hr => ?_⟩
    obtain ⟨d, hd⟩ := hheld r hr
    have hle := hbatch.last_le hlast he hr hd
    exact ⟨d, hd, hle, fun settings clock => leaseSuffices_of_le he hd hle⟩

/-- A captured row that nobody has leased. -/
def unleased (id : RowId) : Row :=
  { id, busName := none, path := "orders", messageType := ⟨"OrderPlaced"⟩, payload := []
    headers := [], timestamp := .epoch }

/-- Instance `b` leases the first two of four rows and `a` the others.  Then `b` gives its rows
back, `a` takes them for longer, and after that one is marked sent. -/
def passedOn : List Visit :=
  [⟨.save (unleased ⟨1⟩), clock 0, false⟩, ⟨.save (unleased ⟨2⟩), clock 0, false⟩,
    ⟨.save (unleased ⟨3⟩), clock 0, false⟩, ⟨.save (unleased ⟨4⟩), clock 0, false⟩,
    ⟨.tryToLock "b" (clock 10), clock 0, false⟩, ⟨.tryToLock "a" (clock 10), clock 0, false⟩,
    ⟨.release "b" [⟨1⟩, ⟨2⟩] (clock 20), clock 1, false⟩,
    ⟨.tryToLock "a" (clock 12), clock 2, false⟩, ⟨.updateToSent [⟨2⟩], clock 3, false⟩]

theorem patient_passedOn : Patient passedOn where
  unlocked v hv row hsave := by
    simp only [passedOn, List.mem_cons, List.not_mem_nil, or_false] at hv
    rcases hv with rfl | rfl | rfl | rfl | rfl | rfl | rfl | rfl | rfl <;> cases hsave <;> rfl
  rising a := by
    by_cases ha : "a" = a
    · subst ha
      decide
    · by_cases hb : "b" = a
      · subst hb
        decide
      · simp [expiries, passedOn, Visit.asks?, ha, hb]

theorem exists_run_passedOn : ∃ s, Run Visits (.empty 2) passedOn s ∧
    s.rows.map (·.lockExpires) =
      [some (clock 12), some (clock 12), some (clock 10), some (clock 10)] ∧
    (leasedRows "a" (clock 4) s.batchSize s.rows).map (·.id) = [⟨1⟩, ⟨3⟩] := by
  refine ⟨_, .cons rfl (.cons rfl (.cons rfl (.cons rfl (.cons rfl (.cons rfl (.cons rfl
    (.cons rfl (.cons rfl (.nil _))))))))), by decide, by decide⟩

/-- The batch that `a` reads ends with the row that it has held for longer, whose lease is the
shortest. -/
theorem leases_shorten_passed_on : ∃ s, Patient passedOn ∧ Run Visits (.empty 2) passedOn s ∧
    s.rows.map (·.lockExpires) =
      [some (clock 12), some (clock 12), some (clock 10), some (clock 10)] ∧
    LeaseOrder "a" s.rows ∧ ∃ (last : Row) (e : Instant), last.Held "a" e ∧ last.id = ⟨3⟩ ∧
      ∀ r ∈ leasedRows "a" (clock 4) s.batchSize s.rows, ∃ d, r.Held "a" d ∧ e ≤ d := by
  obtain ⟨s, hrun, hexpiries, hread⟩ := exists_run_passedOn
  obtain ⟨horder, hbatch⟩ := leases_shorten patient_passedOn hrun
  obtain ⟨last, hlast, hid⟩ : ∃ last,
      (leasedRows "a" (clock 4) s.batchSize s.rows).getLast? = some last ∧ last.id = ⟨3⟩ := by
    have hids := congrArg List.getLast? hread
    simpa [List.getLast?_map] using hids
  obtain ⟨e, he, hothers⟩ := hbatch "a" (clock 4) _ rfl last hlast
  exact ⟨s, patient_passedOn, hrun, hexpiries, (horder "a").1, last, e, he, hid,
    fun r hr => (hothers r hr).imp fun d hd => ⟨hd.1, hd.2.1⟩⟩

end Repository
end Courier
