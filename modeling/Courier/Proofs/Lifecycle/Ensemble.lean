import Courier.Bus.Composite
import Courier.Proofs.Lifecycle.Rounds
import Courier.Proofs.Messages.Sealing
import Mathlib.Data.List.Nodup
import Mathlib.Logic.Function.Basic

/-!
# The children of a composite bus

A composite starts and stops its children one after the other, and the first child that fails ends
it.  A child that fails has changed its mark all the same, those in front of it have been started or
stopped, and those behind it stay as they were.

A composite refers to its children by `β`, and what they are like is a function of these.
`Passage` says how far a call gets through the children.

Main statements: `none_started_iff` (when no child is left started) and `left_started`.
-/

namespace Courier

namespace Rounds

variable {τ ι κ : Type} {s u : Rounds τ ι κ} {c : Call} {cause : Failure}

/-- A call that succeeds leaves the mark where it says. -/
theorem started_of_ok (hcall : s.call c = (u, .ok ())) : u.bus.started = c.event.mark := by
  cases outcome_of_call hcall with
  | idle hadmitted hmark hkept htold hreached => exact hkept.trans hmark
  | round hadmitted hmark hset htold hreached hround => exact hset

/-- A stop that fails has stopped the bus. -/
theorem started_of_stop_error {answers : Nat → Except Failure Unit}
    (hcall : s.call ⟨.stopping, answers⟩ = (u, .error cause)) :
    s.bus.started = true ∧ u.bus.started = false := by
  cases outcome_of_call hcall with
  | refused hevent hinactive hsame => exact absurd hevent nofun
  | round hadmitted hmark hset htold hreached hround => exact ⟨hmark, hset⟩

/-- A start that fails has started the bus if it is active. -/
theorem started_of_start_error {answers : Nat → Except Failure Unit}
    (hbefore : s.bus.started = false) (hcall : s.call ⟨.started, answers⟩ = (u, .error cause)) :
    u.bus.started = s.bus.isActive := by
  cases outcome_of_call hcall with
  | refused hevent hinactive hsame => exact hsame ▸ hbefore.trans hinactive.symm
  | round hadmitted hmark hset htold hreached hround => exact hset.trans (hadmitted rfl).symm

end Rounds

namespace Composite

variable {β τ ι κ : Type}

/-! ## Children under their names -/

/-- A composite that was built by adding buses that have these names. -/
inductive Composed (name : β → Option String) : Composite β → Prop
  | empty : Composed name {}
  | add {c d : Composite β} {b : β} (hc : Composed name c) (hadd : c.add (name b) b = .ok d) :
      Composed name d

variable {name : β → Option String} {c d : Composite β} {b : β}

/-- A bus is added under its name, in the order of names. -/
theorem of_add (hadd : c.add (name b) b = .ok d) :
    ∃ key, name b = some key ∧ d.children = c.children.insert key b := by
  unfold add at hadd
  cases hname : name b with
  | none => simp [hname] at hadd
  | some key =>
    simp only [hname] at hadd
    split at hadd
    · exact absurd hadd nofun
    · exact ⟨key, rfl, (congrArg children (Except.ok.inj hadd)).symm⟩

theorem mem_insert {key : String} {e : String × β} {entries : Dictionary β}
    (h : e ∈ entries.insert key b) : e = (key, b) ∨ e ∈ entries := by
  induction entries with
  | nil => exact .inl (List.mem_singleton.mp h)
  | cons first rest ih =>
    simp only [Dictionary.insert] at h
    split at h
    · exact (List.mem_cons.mp h).imp id (List.mem_cons_of_mem _)
    split at h
    · exact List.mem_cons.mp h
    · rcases List.mem_cons.mp h with hfirst | hrest
      · exact .inr (hfirst ▸ List.mem_cons_self)
      · exact (ih hrest).imp id (List.mem_cons_of_mem _)

/-- Every child is there once, for a bus has one name. -/
theorem Composed.nodup (hc : Composed name c) : c.buses.Nodup := by
  have hall : c.children.Ordered ∧ ∀ e ∈ c.children, name e.2 = some e.1 := by
    induction hc with
    | empty => exact ⟨Dictionary.ordered_nil, nofun⟩
    | add hc hadd ih =>
      obtain ⟨key, hname, hchildren⟩ := of_add hadd
      rw [hchildren]
      refine ⟨ih.1.insert key _, fun e he => ?_⟩
      rcases mem_insert he with rfl | hold
      · exact hname
      · exact ih.2 e hold
  obtain ⟨hordered, hnamed⟩ := hall
  have hkeys : c.children.keys.Nodup := hordered.imp fun h => ne_of_lt h
  have hentries : c.children.Nodup := .of_map _ hkeys
  refine hentries.map_on fun x hx y hy heq => ?_
  have hkey : x.1 = y.1 := Option.some.inj ((hnamed x hx).symm.trans (heq ▸ hnamed y hy))
  exact Prod.ext hkey heq

/-! ## Who is started -/

variable {w u : β → Rounds τ ι κ} {bs : List β}

/-- No child is started. -/
def NoneStarted (c : Composite β) (w : β → Rounds τ ι κ) : Prop :=
  ∀ b ∈ c.buses, (w b).bus.started = false

/-- How many children are started. -/
def countStarted (bs : List β) (w : β → Rounds τ ι κ) : Nat := bs.countP fun b => (w b).bus.started

theorem countStarted_eq_zero : countStarted bs w = 0 ↔ ∀ b ∈ bs, (w b).bus.started = false := by
  simp [countStarted, List.countP_eq_zero]

theorem countStarted_congr (h : ∀ b ∈ bs, u b = w b) : countStarted bs u = countStarted bs w :=
  List.countP_congr fun b hb => by rw [h b hb]

/-- A child behind another one is none of those in front of it, nor that one. -/
theorem eq_behind {front back : List β} (hbs : (front ++ b :: back).Nodup)
    (hothers : ∀ a, a ∉ front → a ≠ b → u a = w a) : ∀ a ∈ back, u a = w a := by
  obtain ⟨-, hback, hdisjoint⟩ := List.nodup_append.mp hbs
  intro a ha
  refine hothers a (fun hfront => hdisjoint a hfront a (List.mem_cons_of_mem _ ha) rfl) ?_
  exact ne_of_mem_of_not_mem ha (List.nodup_cons.mp hback).1

/-! ## How far a call gets -/

/-- A call of a composite, with the answers of the observers of each child. -/
structure Call (β : Type) where
  event : LifecycleEvent
  answers : β → Nat → Except Failure Unit

/-- What the call does to one child. -/
def Call.child (k : Call β) (b : β) : Rounds.Call := ⟨k.event, k.answers b⟩

variable {k : Call β} {result : Except Failure Unit}

/-- How far a call gets through children. -/
inductive Passage (k : Call β) (w u : β → Rounds τ ι κ) (bs : List β) :
    Except Failure Unit → Prop
  | whole (hall : ∀ b ∈ bs, (w b).call (k.child b) = (u b, .ok ()))
      (hothers : ∀ b, b ∉ bs → u b = w b) : Passage k w u bs (.ok ())
  | broken {front back : List β} {b : β} {cause : Failure} (hsplit : bs = front ++ b :: back)
      (hfront : ∀ a ∈ front, (w a).call (k.child a) = (u a, .ok ()))
      (hfails : (w b).call (k.child b) = (u b, .error cause))
      (hothers : ∀ a, a ∉ front → a ≠ b → u a = w a) : Passage k w u bs (.error cause)

/-- How a stop ends: a child that fails is stopped like those in front of it, and those behind it
stay as they were. -/
theorem stop_passage (hbs : bs.Nodup) (hstop : k.event = .stopping)
    (hpassage : Passage k w u bs result) :
    (result = .ok () ∧ ∀ b ∈ bs, (u b).bus.started = false) ∨
    ∃ front b back cause, result = .error cause ∧ bs = front ++ b :: back ∧
      (w b).bus.started = true ∧ (∀ a ∈ front ++ [b], (u a).bus.started = false) ∧
      ∀ a ∈ back, u a = w a := by
  have hmark : k.event.mark = false := by rw [hstop]; rfl
  cases hpassage with
  | whole hall hothers =>
    exact .inl ⟨rfl, fun b hb => (Rounds.started_of_ok (hall b hb)).trans hmark⟩
  | @broken front back b cause hsplit hfront hfails hothers =>
    subst hsplit
    rw [Call.child, hstop] at hfails
    obtain ⟨hbefore, hafter⟩ := Rounds.started_of_stop_error hfails
    refine .inr ⟨front, b, back, cause, rfl, rfl, hbefore, fun a ha => ?_,
      eq_behind hbs hothers⟩
    rcases List.mem_append.mp ha with hmem | hlast
    · exact (Rounds.started_of_ok (hfront a hmem)).trans hmark
    · exact List.mem_singleton.mp hlast ▸ hafter

/-- How a start of children ends that are not started. -/
theorem start_passage (hbs : bs.Nodup) (hstart : k.event = .started)
    (hnone : ∀ b ∈ bs, (w b).bus.started = false) (hpassage : Passage k w u bs result) :
    (result = .ok () ∧ ∀ b ∈ bs, (u b).bus.started = true) ∨
    ∃ front b back cause, result = .error cause ∧ bs = front ++ b :: back ∧
      (∀ a ∈ front, (u a).bus.started = true) ∧ (u b).bus.started = (w b).bus.isActive ∧
      ∀ a ∈ back, u a = w a := by
  have hmark : k.event.mark = true := by rw [hstart]; rfl
  cases hpassage with
  | whole hall hothers =>
    exact .inl ⟨rfl, fun b hb => (Rounds.started_of_ok (hall b hb)).trans hmark⟩
  | @broken front back b cause hsplit hfront hfails hothers =>
    subst hsplit
    rw [Call.child, hstart] at hfails
    have hbefore := hnone b (List.mem_append_right _ List.mem_cons_self)
    exact .inr ⟨front, b, back, cause, rfl, rfl,
      fun a ha => (Rounds.started_of_ok (hfront a ha)).trans hmark,
      Rounds.started_of_start_error hbefore hfails, eq_behind hbs hothers⟩

/-- **A stop stops at least one child**, if one is started. -/
theorem countStarted_stop (hbs : bs.Nodup) (hstop : k.event = .stopping)
    (hpassage : Passage k w u bs result) : countStarted bs u ≤ countStarted bs w - 1 := by
  rcases stop_passage hbs hstop hpassage with
    ⟨-, hall⟩ | ⟨front, b, back, cause, -, hsplit, hstarted, hstopped, hback⟩
  · rw [countStarted_eq_zero.mpr hall]
    exact Nat.zero_le _
  · have hafter : countStarted bs u = countStarted back w := by
      rw [hsplit, List.append_cons, countStarted, List.countP_append]
      have hzero : countStarted (front ++ [b]) u = 0 := countStarted_eq_zero.mpr hstopped
      have hsame : countStarted back u = countStarted back w := countStarted_congr hback
      rw [countStarted] at hzero hsame
      rw [hzero, hsame, Nat.zero_add]
    have hbefore : countStarted bs w = countStarted front w + (countStarted back w + 1) := by
      simp [hsplit, countStarted, List.countP_append, hstarted]
    omega

/-! ## One child after the other -/

variable [DecidableEq β]

/-- Start one child or stop it. -/
def turn (k : Call β) (b : β) : StateM (β → Rounds τ ι κ) (Except Failure Unit) := fun w =>
  (((w b).call (k.child b)).2, Function.update w b ((w b).call (k.child b)).1)

/-- Start the children one after the other, or stop them. -/
def turnAll (c : Composite β) (k : Call β) (w : β → Rounds τ ι κ) :
    Except Failure Unit × (β → Rounds τ ι κ) :=
  (eachUntilFailure (turn k) c.buses).run w

/-- One call of a composite after the other. -/
def Step (c : Composite β) (w : β → Rounds τ ι κ) (k : Call β) (u : β → Rounds τ ι κ) : Prop :=
  (c.turnAll k w).2 = u

theorem run_turn : (turn k b).run w =
    (((w b).call (k.child b)).2, Function.update w b ((w b).call (k.child b)).1) := rfl

theorem run_eachUntilFailure_of_error {rest : List β} {cause : Failure}
    (hfails : ((w b).call (k.child b)).2 = .error cause) :
    (eachUntilFailure (turn k) (b :: rest)).run w =
      (.error cause, Function.update w b ((w b).call (k.child b)).1) := by
  rw [eachUntilFailure, StateT.run_bind, run_turn, hfails]
  rfl

theorem run_eachUntilFailure_of_ok {rest : List β}
    (hok : ((w b).call (k.child b)).2 = .ok ()) :
    (eachUntilFailure (turn k) (b :: rest)).run w =
      (eachUntilFailure (turn k) rest).run (Function.update w b ((w b).call (k.child b)).1) := by
  rw [eachUntilFailure, StateT.run_bind, run_turn, hok]
  rfl

/-- A call goes on with the children behind one that has succeeded. -/
theorem Passage.cons (hb : b ∉ bs) (hok : ((w b).call (k.child b)).2 = .ok ())
    (hrest : Passage k (Function.update w b ((w b).call (k.child b)).1) u bs result) :
    Passage k w u (b :: bs) result := by
  have hsame : ∀ a, a ≠ b → Function.update w b ((w b).call (k.child b)).1 a = w a :=
    fun a ha => Function.update_of_ne ha _ _
  have hfirst : u b = Function.update w b ((w b).call (k.child b)).1 b →
      (w b).call (k.child b) = (u b, .ok ()) := by
    intro h
    rw [h, Function.update_self]
    exact Prod.ext rfl hok
  cases hrest with
  | whole hall hothers =>
    refine .whole (fun a ha => ?_) fun a ha => ?_
    · rcases List.mem_cons.mp ha with rfl | hmem
      · exact hfirst (hothers a hb)
      · exact hsame a (ne_of_mem_of_not_mem hmem hb) ▸ hall a hmem
    · have hne := List.ne_of_not_mem_cons ha
      rw [hothers a (List.not_mem_of_not_mem_cons ha), hsame a hne]
  | @broken front back b' cause hsplit hfront hfails hothers =>
    subst hsplit
    have hnotFront : b ∉ front := fun h => hb (List.mem_append_left _ h)
    have hne : b ≠ b' := fun h => hb (h ▸ List.mem_append_right _ List.mem_cons_self)
    refine .broken (List.cons_append).symm (fun a ha => ?_) ?_ fun a ha hab => ?_
    · rcases List.mem_cons.mp ha with rfl | hmem
      · exact hfirst (hothers a hnotFront hne)
      · exact hsame a (ne_of_mem_of_not_mem hmem hnotFront) ▸ hfront a hmem
    · exact hsame b' hne.symm ▸ hfails
    · rw [hothers a (List.not_mem_of_not_mem_cons ha) hab, hsame a (List.ne_of_not_mem_cons ha)]

/-- A call with one child after the other gets as far as the first that fails. -/
theorem passage_eachUntilFailure (hbs : bs.Nodup) (w : β → Rounds τ ι κ) :
    Passage k w ((eachUntilFailure (turn k) bs).run w).2 bs
      ((eachUntilFailure (turn k) bs).run w).1 := by
  induction bs generalizing w with
  | nil => exact .whole nofun fun _ _ => rfl
  | cons b rest ih =>
    obtain ⟨hb, hrest⟩ := List.nodup_cons.mp hbs
    cases hresult : ((w b).call (k.child b)).2 with
    | error cause =>
      rw [run_eachUntilFailure_of_error hresult]
      have hself := Function.update_self b ((w b).call (k.child b)).1 w
      exact .broken (List.nil_append _).symm nofun (Prod.ext hself.symm hresult)
        fun a _ hab => Function.update_of_ne hab _ _
    | ok done =>
      rw [run_eachUntilFailure_of_ok hresult]
      exact (ih hrest _).cons hb hresult

theorem Composed.passage (hc : Composed name c) (hturn : c.turnAll k w = (result, u)) :
    Passage k w u c.buses result := by
  have hpassage := passage_eachUntilFailure (k := k) hc.nodup w
  rw [turnAll] at hturn
  rwa [hturn] at hpassage

/-- After as many stops as children are started, none is started. -/
theorem Composed.none_started_of_run (hc : Composed name c) {ks : List (Call β)}
    (hrun : Run c.Step w ks u) (hstops : ∀ k ∈ ks, k.event = .stopping)
    (hcount : countStarted c.buses w ≤ ks.length) : c.NoneStarted u := by
  induction hrun with
  | nil w => exact countStarted_eq_zero.mp (Nat.le_zero.mp hcount)
  | @cons w v u k ks head tail ih =>
    refine ih (fun k hk => hstops k (List.mem_cons_of_mem _ hk)) ?_
    have hpassage : Passage k w v c.buses (c.turnAll k w).1 := hc.passage (Prod.ext rfl head)
    have hfewer := countStarted_stop hc.nodup (hstops k List.mem_cons_self) hpassage
    have hlength : (k :: ks).length = ks.length + 1 := rfl
    omega

/-- **Which children a call leaves started.**  Whatever starts and stops of a composite came before,
and whichever observers of its children fail:

* a stop that succeeds leaves no child started; one that fails has stopped the child that failed and
  those in front of it, and those behind it are as they were, so it leaves no child started exactly
  if none of these was started;
* a start of children that are not started starts all of them if it succeeds; if it fails, those in
  front of the child that failed are started, and so is that one if it is active, so it leaves no
  child started exactly if the first child failed for it is not active;
* every stop stops a child if one is started, so after as many stops in a row as children were
  started none is, however these stops ended. -/
theorem none_started_iff (hc : Composed name c) (w : β → Rounds τ ι κ) :
    (∀ k result u, k.event = .stopping → c.turnAll k w = (result, u) →
      (result = .ok () ∧ c.NoneStarted u) ∨
      ∃ front b back cause, result = .error cause ∧ c.buses = front ++ b :: back ∧
        (w b).bus.started = true ∧ (∀ a ∈ front ++ [b], (u a).bus.started = false) ∧
        (∀ a ∈ back, u a = w a) ∧
        (c.NoneStarted u ↔ ∀ a ∈ back, (w a).bus.started = false)) ∧
    (∀ k result u, k.event = .started → c.NoneStarted w → c.turnAll k w = (result, u) →
      (result = .ok () ∧ ∀ b ∈ c.buses, (u b).bus.started = true) ∨
      ∃ front b back cause, result = .error cause ∧ c.buses = front ++ b :: back ∧
        (∀ a ∈ front, (u a).bus.started = true) ∧ (u b).bus.started = (w b).bus.isActive ∧
        (∀ a ∈ back, u a = w a) ∧
        (c.NoneStarted u ↔ front = [] ∧ (w b).bus.isActive = false)) ∧
    (∀ ks u, Run c.Step w ks u → (∀ k ∈ ks, k.event = .stopping) →
      countStarted c.buses w ≤ ks.length → c.NoneStarted u) := by
  refine ⟨?_, ?_, fun ks u => hc.none_started_of_run⟩
  · intro k result u hstop hturn
    rcases stop_passage hc.nodup hstop (hc.passage hturn) with
      hwhole | ⟨front, b, back, cause, hresult, hsplit, hstarted, hstopped, hback⟩
    · exact .inl hwhole
    · refine .inr ⟨front, b, back, cause, hresult, hsplit, hstarted, hstopped, hback, ?_⟩
      rw [NoneStarted, hsplit, List.append_cons]
      constructor
      · intro hnone a ha
        exact hback a ha ▸ hnone a (List.mem_append_right _ ha)
      · intro hnone a ha
        rcases List.mem_append.mp ha with hmem | hmem
        · exact hstopped a hmem
        · exact (hback a hmem).symm ▸ hnone a hmem
  · intro k result u hstart hnone hturn
    rcases start_passage hc.nodup hstart hnone (hc.passage hturn) with
      hwhole | ⟨front, b, back, cause, hresult, hsplit, hstarted, hactive, hback⟩
    · exact .inl hwhole
    · refine .inr ⟨front, b, back, cause, hresult, hsplit, hstarted, hactive, hback, ?_⟩
      rw [NoneStarted, hsplit] at hnone ⊢
      constructor
      · intro hleft
        refine ⟨List.eq_nil_iff_forall_not_mem.mpr fun a ha => ?_, ?_⟩
        · have hstopped := hleft a (List.mem_append_left _ ha)
          exact absurd (hstopped.symm.trans (hstarted a ha)) nofun
        · exact hactive ▸ hleft b (List.mem_append_right _ List.mem_cons_self)
      · rintro ⟨rfl, hinactive⟩ a ha
        rcases List.mem_cons.mp ha with rfl | hmem
        · exact hactive.trans hinactive
        · exact (hback a hmem).symm ▸ hnone a (List.mem_cons_of_mem _ hmem)

/-! ## Two children -/

/-- Two buses under their names. -/
def duo : Composite Bool := { children := [("a", false), ("b", true)] }

/-- Their names. -/
def duoName (b : Bool) : Option String := some (if b then "b" else "a")

theorem composed_duo : Composed duoName duo := by
  have hfirst : add {} (duoName false) false = .ok { children := [("a", false)] } := rfl
  have hsecond : add { children := [("a", false)] } (duoName true) true = .ok duo := rfl
  exact .add (.add .empty hfirst) hsecond

/-- Each of them has two observers, and neither is started. -/
def asleep (_ : Bool) : Rounds Unit Unit Unit := .initial Notices.watchedBus

/-- Both are started. -/
def awake : Bool → Rounds Unit Unit Unit :=
  (duo.turnAll ⟨.started, fun _ => Rounds.content⟩ asleep).2

/-- A stop at which the first observers of both fail. -/
def stumble : Call Bool := ⟨.stopping, fun _ => Rounds.firstDown⟩

/-- Two stops fail, and the second one leaves neither bus started. -/
theorem none_started_iff_twice : ∃ u : Bool → Rounds Unit Unit Unit,
    Run duo.Step awake [stumble, stumble] u ∧ duo.NoneStarted u := by
  have hrun : Run duo.Step awake [stumble, stumble] _ := .cons rfl <| .cons rfl (.nil _)
  obtain ⟨-, -, hstops⟩ := none_started_iff composed_duo awake
  exact ⟨_, hrun, hstops _ _ hrun (by simp [stumble]) (by decide)⟩

/-- **A stop that fails leaves children started, and so does a start.**  The first child fails at
the stop of a composite of two, and the second one is still started.  And if the second one fails at
the start, both are left started. -/
theorem left_started :
    (∃ u cause, duo.turnAll ⟨.stopping, fun b => if b then Rounds.content else Rounds.firstDown⟩
        awake = (.error cause, u) ∧ (u true).bus.started = true) ∧
    ∃ u cause, duo.turnAll ⟨.started, fun b => if b then Rounds.firstDown else Rounds.content⟩
        asleep = (.error cause, u) ∧ duo.NoneStarted asleep ∧
      (u false).bus.started = true ∧ (u true).bus.started = true :=
  ⟨⟨_, _, rfl, rfl⟩, _, _, rfl, fun _ _ => rfl, rfl, rfl⟩

end Composite
end Courier
