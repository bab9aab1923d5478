import Courier.Proofs.Outbox.Solitary

/-!
# A drain in one pass

A drain reads the rows leased to the instance in batches, and what it tells the repository after one
batch changes what it reads next.  None of this can be seen from outside: a drain comes to what one
pass over the leased rows comes to, in the order of their capture, up to the first row that stops
it.  A row stops it if its lease is about to run out, or if forwarding it fails in a way that may
pass (`Surroundings.handles`).

`drained_in_one_pass` says so for all sizes of a batch at once.
-/

namespace Courier

namespace Surroundings

variable {β : Type} {c : Surroundings β} {r : Row} {rows batch : List Row} {cause : Failure}

/-! ## The row that stops a drain -/

theorem handles_of_head?_left (h : (c.left rows).head? = some r) : c.handles r = false := by
  have hhead := List.head?_dropWhile_not c.handles rows
  rw [← left, h] at hhead
  exact hhead

/-- Where no row stops a drain, it ends because there is nothing left. -/
theorem ending_of_head? (stop : Option Row) (h : (c.left rows).head? = stop) :
    c.ending rows = stop.elim .drained c.stop := by
  subst h
  unfold ending
  cases c.left rows <;> rfl

/-- A row stops a drain because its lease is about to run out, or with a failure. -/
theorem stop_of_not_handles (hstops : c.handles r = false) :
    c.lasts r = false ∧ c.stop r = .stopped ∨
      ∃ cause, c.lasts r = true ∧ c.result r.id = .error cause ∧ c.stop r = .failed cause := by
  cases hlasts : c.lasts r with
  | false => exact .inl ⟨rfl, by simp [stop, hlasts]⟩
  | true =>
    have hfails : c.fails r = true := by simpa [handles, hlasts] using hstops
    obtain ⟨-, -, cause, hresult, -⟩ := fails_iff.mp hfails
    exact .inr ⟨cause, rfl, hresult, by simp [stop, hlasts, hresult]⟩

/-- A row in front of the first one that stops a drain is unsent. -/
theorem deliveredOn_of_mem_handled (hr : r ∈ c.handled (c.leases rows)) :
    r.deliveredOn = none := by
  have hleased := (List.mem_filter.mp ((List.takeWhile_sublist _).subset hr)).2
  simp only [Row.leasedTo, Row.isSent, Bool.and_eq_true, Bool.not_eq_true',
    Option.isSome_eq_false_iff, Option.isNone_iff_eq_none] at hleased
  exact hleased.1.1

/-- What becomes of the rows, told by rows and not by ids. -/
theorem settleAll_handled (hids : (rows.map (·.id)).Nodup) :
    c.settleAll ((c.handled (c.leases rows)).map (·.id)) rows = rows.map fun r =>
      if r ∈ c.handled (c.leases rows) then
        if c.delivers r then { r with deliveredOn := some c.now }
        else r.released c.inst c.deadline
      else r := by
  have hsubset : c.handled (c.leases rows) ⊆ rows :=
    fun r hr => (List.mem_filter.mp ((List.takeWhile_sublist _).subset hr)).1
  refine List.map_congr_left fun r hr => ?_
  rw [if_congr (mem_ids_iff hids hsubset hr) rfl rfl]
  by_cases hmem : r ∈ c.handled (c.leases rows)
  · simp [settle, Row.delivered, hmem, deliveredOn_of_mem_handled hmem]
  · simp only [if_neg hmem]

end Surroundings

namespace Solitary

variable {β : Type} {c : Surroundings β} {s : Solitary β} {rows : List Row} {idle : Bool}

/-- The same with a repository that hands out its rows in batches of another size. -/
def inBatchesOf (s : Solitary β) (size : Nat) (hsize : 0 < size) : Solitary β :=
  { s with repository := { s.repository with batchSize := size, batchSize_pos := hsize } }

/-- A drain comes back with a failure if the row that has stopped it has failed. -/
theorem verdictOf_eq_error_iff {cause : Failure} :
    verdictOf idle (c.ending rows) = .error cause ↔
      ∃ r, (c.left rows).head? = some r ∧ c.lasts r = true ∧ c.result r.id = .error cause := by
  rw [Surroundings.ending_of_head? _ rfl]
  cases hhead : (c.left rows).head? with
  | none => simp [verdictOf]
  | some r =>
    rcases Surroundings.stop_of_not_handles (Surroundings.handles_of_head?_left hhead) with
      ⟨hshort, hstop⟩ | ⟨f, hlasts, hresult, hstop⟩
    · simp [verdictOf, hshort, hstop]
    · simp [verdictOf, hlasts, hresult, hstop]

/-- Otherwise it says whether it was idle. -/
theorem verdictOf_eq_ok_iff {b : Bool} :
    verdictOf idle (c.ending rows) = .ok b ↔
      (∀ r, (c.left rows).head? = some r → c.lasts r = false) ∧ b = idle := by
  rw [Surroundings.ending_of_head? _ rfl]
  cases hhead : (c.left rows).head? with
  | none => simp [verdictOf, eq_comm (a := b)]
  | some r =>
    rcases Surroundings.stop_of_not_handles (Surroundings.handles_of_head?_left hhead) with
      ⟨hshort, hstop⟩ | ⟨f, hlasts, hresult, hstop⟩
    · simp [verdictOf, hshort, hstop, eq_comm (a := b)]
    · simp [verdictOf, hlasts, hstop]

/-- **A drain does not depend on how the rows are divided into batches.**  The clock stands, nothing
is cancelled, the repository does not fail, and forwarding a row gives the same result whenever it
is tried.  Let `before` be the leased rows in the order of their capture up to the first one that
stops the drain, and `stop` that one, if there is one.  Then for batches of every size the drain
ends, and

* it comes back with a failure if `stop` has a lasting lease, namely with the failure of `stop`, and
  otherwise it says whether there were no rows in `before`;
* the rows handed to a bus are those of `before` for which there is a bus, each once and in this
  order, and then `stop`, if its lease lasts;
* the rows of `before` that could be delivered are marked as sent now, the others among them are
  given back until the end of a lease taken now, and every other row is as it was. -/
theorem drained_in_one_pass (c : Surroundings β) (s : Solitary β) (hclear : s.Clear)
    (hdraining : s.forwarder.stage = .draining true) :
    let leased := c.leases s.repository.rows
    let before := leased.takeWhile c.handles
    let stop := (leased.dropWhile c.handles).head?
    ∃ verdict : Except Failure Bool,
      (∀ cause, verdict = .error cause ↔
        ∃ r, stop = some r ∧ c.lasts r = true ∧ c.result r.id = .error cause) ∧
      (∀ idle, verdict = .ok idle ↔
        (∀ r, stop = some r → c.lasts r = false) ∧ idle = before.isEmpty) ∧
      ∀ size hsize, ∃ t u, Quietly c (s.inBatchesOf size hsize) t ∧
        t.verdict? c = some verdict ∧ t.step? c = some u ∧
        u.forwarder = concluded s.forwarder verdict ∧
        u.attempts = s.attempts ++ before.filter c.reaches ++ stop.toList.filter c.lasts ∧
        u.repository.rows = s.repository.rows.map fun r =>
          if r ∈ before then
            if c.delivers r then { r with deliveredOn := some c.now }
            else r.released c.inst c.deadline
          else r := by
  intro leased before stop
  refine ⟨verdictOf before.isEmpty (c.ending leased), fun _ => verdictOf_eq_error_iff,
    fun _ => verdictOf_eq_ok_iff, ?_⟩
  intro size hsize
  have hclear' : (s.inBatchesOf size hsize).Clear := ⟨hclear.sent, hclear.skipped, hclear.ids⟩
  obtain ⟨t, hreads, hverdict, hstep⟩ :=
    quietly_drain (c := c) _ (s.inBatchesOf size hsize) true le_rfl hclear' hdraining
  refine ⟨t, _, hreads, hverdict, hstep, ?_, ?_, Surroundings.settleAll_handled hclear.ids⟩
  · exact (concluded_verdictOf _ _ _).symm
  · show s.attempts ++ (_ ++ _) = _
    rw [List.take_one, List.append_assoc]
    rfl

/-- Only the unnamed bus is there, and it cannot deliver the third row for the time being. -/
def refusesThird : Surroundings Unit where
  settings := {}
  inst := "a"
  now := .epoch
  route := fun name => if name = none then some () else none
  result := fun id => if id = ⟨3⟩ then .error (.repository "busy") else .ok ()

/-- A row that is leased until a lease taken now would end. -/
def leasedRow (number : Nat) (busName : Option String) : Row :=
  { id := ⟨number⟩, busName := busName, path := "orders", messageType := ⟨"OrderPlaced"⟩
    payload := [], headers := [], lockInstance := some "a"
    lockExpires := some refusesThird.deadline, timestamp := .epoch }

/-- Four leased rows; the second one has no bus. -/
def fourLeased : Solitary Unit where
  forwarder := { token := ⟨0⟩, stage := .draining true }
  repository := {
    rows := [leasedRow 1 none, leasedRow 2 (some "gone"), leasedRow 3 none, leasedRow 4 none]
    batchSize := 4
    batchSize_pos := by decide }

/-- The third row stops the drain, be it the first one of a batch or not. -/
theorem drained_in_one_pass_refused : ∃ t u v w,
    Quietly refusesThird (fourLeased.inBatchesOf 1 (by decide)) t ∧ t.step? refusesThird = some u ∧
      Quietly refusesThird (fourLeased.inBatchesOf 3 (by decide)) v ∧
      v.step? refusesThird = some w ∧
      t.verdict? refusesThird = some (.error (.repository "busy")) ∧
      v.verdict? refusesThird = some (.error (.repository "busy")) ∧
      u.attempts.map (·.id) = [⟨1⟩, ⟨3⟩] ∧ w.attempts.map (·.id) = [⟨1⟩, ⟨3⟩] ∧
      u.repository.rows = w.repository.rows ∧
      u.repository.rows = [{ leasedRow 1 none with deliveredOn := some .epoch },
        (leasedRow 2 (some "gone")).released "a" refusesThird.deadline,
        leasedRow 3 none, leasedRow 4 none] := by
  obtain ⟨verdict, hfailed, -, hdrained⟩ :=
    drained_in_one_pass refusesThird fourLeased ⟨rfl, rfl, by decide⟩ rfl
  obtain rfl := (hfailed (.repository "busy")).mpr ⟨leasedRow 3 none, by decide, by decide, rfl⟩
  obtain ⟨t, u, hreads, hverdict, hstep, -, hattempts, hrows⟩ := hdrained 1 (by decide)
  obtain ⟨v, w, hreads', hverdict', hstep', -, hattempts', hrows'⟩ := hdrained 3 (by decide)
  have hids := congrArg (List.map Row.id) hattempts
  have hids' := congrArg (List.map Row.id) hattempts'
  refine ⟨t, u, v, w, hreads, hstep, hreads', hstep', hverdict, hverdict', ?_, ?_,
    hrows.trans hrows'.symm, ?_⟩
  · exact hids.trans (by decide)
  · exact hids'.trans (by decide)
  · exact hrows.trans (by decide)

end Solitary
end Courier
