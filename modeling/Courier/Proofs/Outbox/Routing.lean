import Courier.Proofs.Outbox.Custody
import Mathlib.Data.List.Nodup

/-!
# Where rows are routed to

A task knows the buses that have told it of their start by their names.  A name leads to the bus
that was listed under it last, and a bus that is stopping takes the name with it, whichever bus the
name leads to.

`Switchboard` is a task with everything that goes on around it, and with what buses have told it in
the order in which it took note of it.  `find?_iff` ties the table of the task to that list.

Main statements: `routed_iff_stopping_alone` (a started bus is reached under its name exactly as
long as no bus stops while another one of its name is started) and `unreachable_while_started`.
-/

namespace Courier

namespace SendingTask

variable {β : Type} {t : SendingTask β} {name other : Option String} {bus : β}

theorem find?_filter_of_ne {entries : List (Option String × β)} (h : other ≠ name) :
    ((entries.filter fun e => e.1 != name).find? fun e => e.1 == other) =
      entries.find? fun e => e.1 == other := by
  rw [List.find?_filter]
  refine congrArg (fun p => entries.find? p) (funext fun e => ?_)
  by_cases he : e.1 = other <;> simp [he, h]

theorem register_find?_of_ne (h : other ≠ name) :
    (t.register name bus).find? other = t.find? other := by
  simp [register, find?, List.find?_append, find?_filter_of_ne h, Ne.symm h]

theorem unregister_find? : (t.unregister name).find? name = none := by
  simp [unregister, find?, List.find?_eq_none]

theorem unregister_find?_of_ne (h : other ≠ name) :
    (t.unregister name).find? other = t.find? other := by
  simp [unregister, find?, find?_filter_of_ne h]

/-- The names in the table. -/
def names (t : SendingTask β) : List (Option String) := t.buses.map (·.1)

/-- A name is in the table once. -/
theorem nodup_listed (event : LifecycleEvent) (h : t.names.Nodup) :
    (t.listed event name bus).names.Nodup := by
  have hkept : ((t.buses.filter fun e => e.1 != name).map (·.1)).Nodup :=
    h.sublist (List.filter_sublist.map _)
  cases event with
  | stopping => exact hkept
  | started =>
    simp only [listed, register, names, List.map_append]
    refine hkept.append (List.nodup_singleton _) (List.disjoint_singleton.mpr ?_)
    simp

theorem find?_of_mem {e : Option String × β} (h : t.names.Nodup) (he : e ∈ t.buses) :
    t.find? e.1 = some e.2 := by
  have hfound : t.buses.find? (fun x => x.1 == e.1) = some e := by
    obtain ⟨front, back, hsplit⟩ := List.append_of_mem he
    rw [names, hsplit, List.map_append, List.map_cons] at h
    obtain ⟨-, -, hdisjoint⟩ := List.nodup_append.mp h
    rw [hsplit, List.find?_append, List.find?_eq_none.mpr, Option.none_or]
    · simp
    · intro x hx hname
      exact hdisjoint _ (List.mem_map_of_mem hx) e.1 List.mem_cons_self (by simpa using hname)
  rw [find?, hfound]
  rfl

/-- With all buses alive, a row with a name is routed to the bus that the name leads to. -/
theorem route_some (n : String) : t.route (fun _ => true) (some n) = t.find? (some n) := by
  unfold route
  cases t.find? (some n) <;> rfl

/-- A table in which one name leads to a bus, and no other one does, has this one entry. -/
theorem buses_eq_singleton (h : t.names.Nodup) (hfound : t.find? name = some bus)
    (hall : ∀ m, t.find? m ≠ none → m = name) : t.buses = [(name, bus)] := by
  have hnames : ∀ e ∈ t.buses, e.1 = name := fun e he =>
    hall e.1 (by rw [find?_of_mem h he]; exact nofun)
  match hbuses : t.buses with
  | [] => simp [find?, hbuses] at hfound
  | [e] =>
    have hmem : e ∈ t.buses := by simp [hbuses]
    have hfirst := find?_of_mem h hmem
    rw [hnames e hmem] at hfirst
    exact congrArg (fun x => [x])
      (Prod.ext (hnames e hmem) (Option.some.inj (hfirst.symm.trans hfound)))
  | d :: e :: rest =>
    have hd := hnames d (by simp [hbuses])
    have he := hnames e (by simp [hbuses])
    simp [names, hbuses, hd, he] at h

/-- Without an unnamed bus, a row without a name is routed to the only bus there is. -/
theorem route_of_unfound (hnone : t.find? none = none) :
    t.route (fun _ => true) none = some bus ↔ ∃ n, t.buses = [(n, bus)] := by
  unfold route
  rw [hnone]
  rcases t.buses with _ | ⟨⟨n, b⟩, _ | ⟨e, rest⟩⟩ <;> simp

/-- A row without a name is routed to the unnamed bus, or else to the only one there is. -/
theorem route_none (h : t.names.Nodup) :
    t.route (fun _ => true) none = some bus ↔
      t.find? none = some bus ∨
        (t.find? none = none ∧
          ∃ n, t.find? n = some bus ∧ ∀ m, t.find? m ≠ none → m = n) := by
  cases hnone : t.find? none with
  | some b => simp [route, hnone, Option.filter]
  | none =>
    rw [route_of_unfound hnone]
    constructor
    · rintro ⟨n, hbuses⟩
      have hmem : (n, bus) ∈ t.buses := by simp [hbuses]
      refine .inr ⟨rfl, n, find?_of_mem h hmem, fun m hm => ?_⟩
      by_contra hne
      exact hm (by simp [find?, hbuses, Ne.symm hne])
    · rintro (hsome | ⟨-, n, hn, hall⟩)
      · cases hsome
      · exact ⟨n, buses_eq_singleton h hn hall⟩

end SendingTask

/-! ## What buses have told -/

/-- What a bus has told about itself. -/
structure Announcement (β : Type) where
  event : LifecycleEvent
  name : Option String
  bus : β

namespace Announcement

variable {β : Type}

/-- The latest announcement of some kind; the latest one is the first in the list. -/
def Latest (told : List (Announcement β)) (p : Announcement β → Prop) (a : Announcement β) : Prop :=
  ∃ later earlier, told = later ++ a :: earlier ∧ p a ∧ ∀ x ∈ later, ¬p x

/-- The latest that a bus has told is that it has started. -/
def IsUp (told : List (Announcement β)) (b : β) : Prop :=
  ∃ a, Latest told (fun a => a.bus = b) a ∧ a.event = .started

/-- The latest that was told under a name is that the bus has started. -/
def Leads (told : List (Announcement β)) (n : Option String) (b : β) : Prop :=
  ∃ a, Latest told (fun a => a.name = n) a ∧ a.event = .started ∧ a.bus = b

variable {told : List (Announcement β)} {p : Announcement β → Prop} {a x : Announcement β}
variable {b : β} {n : Option String}

theorem latest_cons_self (hp : p x) : Latest (x :: told) p a ↔ a = x := by
  constructor
  · rintro ⟨later, earlier, hsplit, ha, hlater⟩
    cases later with
    | nil => exact (List.cons.inj hsplit).1.symm
    | cons y later => exact absurd ((List.cons.inj hsplit).1 ▸ hp) (hlater y List.mem_cons_self)
  · rintro rfl
    exact ⟨[], told, rfl, hp, nofun⟩

theorem latest_cons_of_not (hp : ¬p x) : Latest (x :: told) p a ↔ Latest told p a := by
  constructor
  · rintro ⟨later, earlier, hsplit, ha, hlater⟩
    cases later with
    | nil => exact absurd ((List.cons.inj hsplit).1 ▸ ha) hp
    | cons y later =>
      exact ⟨later, earlier, (List.cons.inj hsplit).2, ha,
        fun z hz => hlater z (List.mem_cons_of_mem _ hz)⟩
  · rintro ⟨later, earlier, rfl, ha, hlater⟩
    refine ⟨x :: later, earlier, rfl, ha, fun z hz => ?_⟩
    rcases List.mem_cons.mp hz with rfl | hmem
    · exact hp
    · exact hlater z hmem

theorem isUp_cons_self : IsUp (x :: told) x.bus ↔ x.event = .started := by
  simp [IsUp, latest_cons_self]

theorem isUp_cons_of_ne (h : x.bus ≠ b) : IsUp (x :: told) b ↔ IsUp told b := by
  simp only [IsUp, latest_cons_of_not (p := fun a => a.bus = b) h]

theorem leads_cons_self : Leads (x :: told) x.name b ↔ x.event = .started ∧ x.bus = b := by
  simp [Leads, latest_cons_self]

theorem leads_cons_of_ne (h : x.name ≠ n) : Leads (x :: told) n b ↔ Leads told n b := by
  simp only [Leads, latest_cons_of_not (p := fun a => a.name = n) h]

/-- A bus that a name leads to is up, if every bus has one name. -/
theorem Leads.isUp {nameOf : β → Option String} (hnamed : ∀ a ∈ told, a.name = nameOf a.bus)
    (h : Leads told n b) : IsUp told b := by
  obtain ⟨a, ⟨later, earlier, hsplit, hname, hlater⟩, hstarted, rfl⟩ := h
  refine ⟨a, ⟨later, earlier, hsplit, rfl, fun x hx hbus => hlater x hx ?_⟩, hstarted⟩
  -- the bus would have told the later one under the same name
  have hx' := hnamed x (by simp [hsplit, hx])
  have ha' := hnamed a (by simp [hsplit])
  exact (hx'.trans (congrArg nameOf hbus)).trans (ha'.symm.trans hname)

/-- A bus that a name leads to has that name. -/
theorem Leads.nameOf {nameOf : β → Option String} (hnamed : ∀ a ∈ told, a.name = nameOf a.bus)
    (h : Leads told n b) : nameOf b = n := by
  obtain ⟨a, ⟨later, earlier, hsplit, hname, hlater⟩, hstarted, rfl⟩ := h
  exact (hnamed a (by simp [hsplit])).symm.trans hname

end Announcement

open Announcement (IsUp Leads)

/-- A task with what buses have told it, in the order in which it took note, latest first. -/
structure Switchboard (β : Type) where
  custody : Custody β
  told : List (Announcement β) := []

namespace Switchboard

variable {β : Type}

/-- A task that nobody has called. -/
def initial (settings : OutboxSettings) (inst : String) : Switchboard β :=
  { custody := .initial settings inst }

/-- Where rows of a name are routed to while all buses are alive. -/
def route (s : Switchboard β) (n : Option String) : Option β :=
  s.custody.task.route (fun _ => true) n

/-- What the task takes note of when this happens. -/
def heard? (s : Switchboard β) : Custody.Event β → Option (Announcement β)
  | .proceed k =>
    match s.custody.commands[k]? with
    | some (.arriving event name bus) => some ⟨event, name, bus⟩
    | _ => none
  | _ => none

/-- One step around a task; every bus has one name. -/
structure Step (nameOf : β → Option String) (s : Switchboard β) (e : Custody.Event β)
    (u : Switchboard β) : Prop where
  custody : Custody.Step s.custody e u.custody
  named : ∀ a, s.heard? e = some a → a.name = nameOf a.bus
  told : u.told = (s.heard? e).toList ++ s.told

/-- Whenever a bus of a name is up, rows of that name are routed to such a bus. -/
def Faithful (nameOf : β → Option String) (s : Switchboard β) : Prop :=
  ∀ n, (∃ b, IsUp s.told b ∧ nameOf b = n) →
    ∃ b, s.route n = some b ∧ IsUp s.told b ∧ nameOf b = n

/-- No bus stops while another one of its name is up. -/
def StopsAlone (nameOf : β → Option String) (s : Switchboard β) (e : Custody.Event β) : Prop :=
  ∀ a, s.heard? e = some a → a.event = .stopping →
    ∀ b, IsUp s.told b → nameOf b = a.name → b = a.bus

/-- The table of the task is what buses have told it. -/
structure Listed (nameOf : β → Option String) (s : Switchboard β) : Prop where
  names : s.custody.task.names.Nodup
  found : ∀ n b, s.custody.task.find? n = some b ↔ Leads s.told n b
  named : ∀ a ∈ s.told, a.name = nameOf a.bus

variable {nameOf : β → Option String} {s u : Switchboard β} {e : Custody.Event β}
variable {es : List (Custody.Event β)} {a : Announcement β} {b : β} {n : Option String}

/-- A step in which the task hears nothing. -/
theorem Step.quiet {v : Custody β} (hcustody : Custody.Step s.custody e v)
    (hnone : s.heard? e = none) : s.Step nameOf e { custody := v, told := s.told } where
  custody := hcustody
  named := by simp [hnone]
  told := by simp [hnone]

/-- A step in which the task takes note of what a bus tells. -/
theorem Step.hear {v : Custody β} (hcustody : Custody.Step s.custody e v)
    (ha : s.heard? e = some a) (hname : a.name = nameOf a.bus) :
    s.Step nameOf e { custody := v, told := a :: s.told } where
  custody := hcustody
  named := by
    intro x hx
    obtain rfl := Option.some.inj (ha.symm.trans hx)
    exact hname
  told := by simp [ha]

/-! ## What a step does to the table -/

/-- A step takes note of an announcement, or it leaves the table as it is. -/
theorem buses_of_step (hstep : Custody.Step s.custody e u.custody) :
    (∃ a, s.heard? e = some a ∧
      u.custody.task = s.custody.task.listed a.event a.name a.bus) ∨
    (s.heard? e = none ∧ u.custody.task.buses = s.custody.task.buses) := by
  generalize hnext : u.custody = v at hstep
  cases hstep with
  | @proceed k c c' t tokens hcommand hadvance =>
    cases hadvance with
    | list event name bus => exact .inl ⟨⟨event, name, bus⟩, by simp [heard?, hcommand], rfl⟩
    | count event => exact .inr ⟨by simp [heard?, hcommand], by cases event <;> rfl⟩
    | launch =>
      refine .inr ⟨by simp [heard?, hcommand], ?_⟩
      show (s.custody.task.start _).1.buses = _
      unfold SendingTask.start
      split <;> rfl
    | _ => exact .inr ⟨by simp [heard?, hcommand], rfl⟩
  | _ => exact .inr ⟨rfl, rfl⟩

theorem Listed.step (h : s.Listed nameOf) (hstep : s.Step nameOf e u) : u.Listed nameOf := by
  have htold := hstep.told
  rcases buses_of_step hstep.custody with ⟨a, ha, htask⟩ | ⟨hnone, hbuses⟩
  · rw [ha, Option.toList_some, List.singleton_append] at htold
    refine ⟨htask ▸ SendingTask.nodup_listed a.event h.names, fun n b => ?_, ?_⟩
    · rw [htask, htold]
      by_cases hn : n = a.name
      · subst hn
        rw [Announcement.leads_cons_self]
        cases hevent : a.event with
        | started => simp [SendingTask.listed, SendingTask.register_find?]
        | stopping => simp [SendingTask.listed, SendingTask.unregister_find?]
      · rw [Announcement.leads_cons_of_ne (Ne.symm hn), ← h.found n b]
        cases a.event with
        | started => rw [SendingTask.listed, SendingTask.register_find?_of_ne hn]
        | stopping => rw [SendingTask.listed, SendingTask.unregister_find?_of_ne hn]
    · rw [htold]
      intro x hx
      rcases List.mem_cons.mp hx with rfl | hold
      · exact hstep.named _ ha
      · exact h.named x hold
  · rw [hnone, Option.toList_none, List.nil_append] at htold
    have hfind : u.custody.task.find? = s.custody.task.find? := by
      funext n
      rw [SendingTask.find?, hbuses]
      rfl
    refine ⟨?_, fun n b => ?_, htold ▸ h.named⟩
    · rw [SendingTask.names, hbuses]
      exact h.names
    · rw [hfind, htold]
      exact h.found n b

theorem listed_initial (settings : OutboxSettings) (inst : String) :
    (initial settings inst : Switchboard β).Listed nameOf where
  names := .nil
  found n b := by simp [initial, Custody.initial, SendingTask.find?, Leads, Announcement.Latest]
  named := nofun

/-! ## Where a name leads -/

theorem Listed.find?_eq_none (h : s.Listed nameOf) :
    s.custody.task.find? n = none ↔ ∀ b, ¬Leads s.told n b := by
  rw [Option.eq_none_iff_forall_ne_some]
  exact forall_congr' fun b => not_congr (h.found n b)

/-- Rows without a name go through the unnamed bus that was listed last, or else through the only
bus that any name leads to. -/
theorem Listed.route_none (h : s.Listed nameOf) :
    s.route none = some b ↔
      Leads s.told none b ∨ ((∀ b', ¬Leads s.told none b') ∧
        ∃ n, Leads s.told n b ∧ ∀ m b', Leads s.told m b' → m = n) := by
  rw [route, SendingTask.route_none h.names, h.found, h.find?_eq_none]
  refine or_congr_right (and_congr_right fun _ => exists_congr fun n => ?_)
  rw [h.found]
  refine and_congr_right fun _ => forall_congr' fun m => ?_
  rw [Ne, h.find?_eq_none]
  push Not
  exact ⟨fun hall b' hb' => hall ⟨b', hb'⟩, fun hall ⟨b', hb'⟩ => hall b' hb'⟩

/-- Whatever a row is routed to is what some name leads to. -/
theorem Listed.leads_of_route (h : s.Listed nameOf) (hroute : s.route n = some b) :
    Leads s.told n b ∨ (n = none ∧ (∀ b', ¬Leads s.told none b') ∧ ∃ m, Leads s.told m b) := by
  cases n with
  | some n =>
    rw [route, SendingTask.route_some] at hroute
    exact .inl ((h.found _ _).mp hroute)
  | none =>
    rcases h.route_none.mp hroute with hleads | ⟨hnone, m, hleads, -⟩
    · exact .inl hleads
    · exact .inr ⟨rfl, hnone, m, hleads⟩

/-- A row is never routed to a bus that is not up. -/
theorem Listed.isUp_of_route (h : s.Listed nameOf) (hroute : s.route n = some b) :
    IsUp s.told b := by
  rcases h.leads_of_route hroute with hleads | ⟨-, -, m, hleads⟩
  · exact hleads.isUp h.named
  · exact hleads.isUp h.named

/-- A row is routed to a bus of its own name exactly if the name leads to that bus. -/
theorem Listed.route_own (h : s.Listed nameOf) :
    (s.route n = some b ∧ nameOf b = n) ↔ Leads s.told n b := by
  constructor
  · rintro ⟨hroute, hname⟩
    rcases h.leads_of_route hroute with hleads | ⟨rfl, hnone, m, hleads⟩
    · exact hleads
    · obtain rfl : m = none := (hleads.nameOf h.named).symm.trans hname
      exact hleads
  · intro hleads
    refine ⟨?_, hleads.nameOf h.named⟩
    cases n with
    | some n => rw [route, SendingTask.route_some, h.found]; exact hleads
    | none => exact h.route_none.mpr (.inl hleads)

theorem Listed.faithful_iff (h : s.Listed nameOf) :
    s.Faithful nameOf ↔
      ∀ n, (∃ b, IsUp s.told b ∧ nameOf b = n) → ∃ b, Leads s.told n b := by
  refine forall_congr' fun n => imp_congr_right fun _ => exists_congr fun b => ?_
  constructor
  · rintro ⟨hroute, -, hname⟩
    exact h.route_own.mp ⟨hroute, hname⟩
  · intro hleads
    obtain ⟨hroute, hname⟩ := h.route_own.mpr hleads
    exact ⟨hroute, hleads.isUp h.named, hname⟩

/-! ## Buses that stop alone -/

/-- A step after which every name leads to a bus of its own keeps it so if a bus that stops is the
only one of its name. -/
theorem Faithful.step (hfaithful : s.Faithful nameOf) (h : s.Listed nameOf)
    (hstep : s.Step nameOf e u) (halone : s.StopsAlone nameOf e) : u.Faithful nameOf := by
  rw [h.faithful_iff] at hfaithful
  rw [(h.step hstep).faithful_iff]
  have htold := hstep.told
  cases ha : s.heard? e with
  | none =>
    rw [ha, Option.toList_none, List.nil_append] at htold
    exact htold ▸ hfaithful
  | some a =>
    rw [ha, Option.toList_some, List.singleton_append] at htold
    rw [htold]
    rintro n ⟨b, hup, hname⟩
    by_cases hn : a.name = n
    · subst hn
      cases hevent : a.event with
      | started => exact ⟨a.bus, Announcement.leads_cons_self.mpr ⟨hevent, rfl⟩⟩
      | stopping =>
        -- another bus of this name would still be up
        have hne : a.bus ≠ b := by
          rintro rfl
          exact absurd (hevent.symm.trans (Announcement.isUp_cons_self.mp hup)) nofun
        have hold := (Announcement.isUp_cons_of_ne hne).mp hup
        exact absurd (halone a ha hevent b hold hname).symm hne
    · have hne : a.bus ≠ b := by
        rintro rfl
        exact hn ((hstep.named a ha).trans hname)
      obtain ⟨b', hleads⟩ := hfaithful n ⟨b, (Announcement.isUp_cons_of_ne hne).mp hup, hname⟩
      exact ⟨b', (Announcement.leads_cons_of_ne hn).mpr hleads⟩

/-- A bus that stops beside another one of its name takes the name with it. -/
theorem Faithful.stopsAlone (hfaithful : u.Faithful nameOf) (h : s.Listed nameOf)
    (hstep : s.Step nameOf e u) : s.StopsAlone nameOf e := by
  intro a ha hevent b hup hname
  rw [(h.step hstep).faithful_iff, hstep.told, ha, Option.toList_some, List.singleton_append]
    at hfaithful
  by_contra hne
  have hstill := (Announcement.isUp_cons_of_ne (x := a) (Ne.symm hne)).mpr hup
  obtain ⟨b', hleads⟩ := hfaithful a.name ⟨b, hstill, hname⟩
  exact absurd (hevent.symm.trans (Announcement.leads_cons_self.mp hleads).1) nofun

/-- Where no two buses share a name, every bus stops alone. -/
theorem Step.stopsAlone (hnames : Function.Injective nameOf) (hstep : s.Step nameOf e u) :
    s.StopsAlone nameOf e :=
  fun a ha _ _ _ hname => hnames (hname.trans (hstep.named a ha))

theorem run_faithful_iff_alone (h : s.Listed nameOf) (hfaithful : s.Faithful nameOf) :
    Run (fun s e u => s.Step nameOf e u ∧ u.Faithful nameOf) s es u ↔
      Run (fun s e u => s.Step nameOf e u ∧ s.StopsAlone nameOf e) s es u := by
  constructor
  · intro hrun
    refine hrun.mono_of_invariant (Listed nameOf) h fun s e u h ⟨hstep, hnext⟩ => ?_
    exact ⟨⟨hstep, hnext.stopsAlone h hstep⟩, h.step hstep⟩
  · intro hrun
    refine hrun.mono_of_invariant (fun s => s.Listed nameOf ∧ s.Faithful nameOf) ⟨h, hfaithful⟩ ?_
    rintro s e u ⟨h, hfaithful⟩ ⟨hstep, halone⟩
    have hnext := hfaithful.step h hstep halone
    exact ⟨⟨hstep, hnext⟩, h.step hstep, hnext⟩

theorem faithful_initial (settings : OutboxSettings) (inst : String) :
    (initial settings inst : Switchboard β).Faithful nameOf := by
  rintro n ⟨b, ⟨a, ⟨later, earlier, hsplit, -⟩, -⟩, -⟩
  simp [initial] at hsplit

/-- **A started bus is reached under its name as long as buses of one name stop alone.**  Whatever
buses tell a task, however what it does about it is interleaved, and whatever else goes on around
it:

* a row is never routed to a bus whose latest word is that it is stopping;
* a row is routed to a bus of its own name exactly if the latest word under that name is that this
  bus has started, and a row without a name, if there is no such unnamed bus, to the only bus that
  any name leads to;
* at no time of a run is there a started bus and no started bus of its name that rows of the name
  are routed to, exactly if no bus stops while another one of its name is started. -/
theorem routed_iff_stopping_alone {settings : OutboxSettings} {inst : String}
    (hrun : Run (Step nameOf) (initial settings inst : Switchboard β) es s) :
    (∀ n b, s.route n = some b → IsUp s.told b) ∧
    (∀ n b, (s.route n = some b ∧ nameOf b = n) ↔ Leads s.told n b) ∧
    (∀ b, s.route none = some b ↔
      Leads s.told none b ∨ ((∀ b', ¬Leads s.told none b') ∧
        ∃ n, Leads s.told n b ∧ ∀ m b', Leads s.told m b' → m = n)) ∧
    (Run (fun s e u => s.Step nameOf e u ∧ u.Faithful nameOf) (initial settings inst) es s ↔
      Run (fun s e u => s.Step nameOf e u ∧ s.StopsAlone nameOf e) (initial settings inst)
        es s) := by
  have h : s.Listed nameOf :=
    hrun.invariant (Listed nameOf) (listed_initial settings inst) fun _ _ _ h hstep => h.step hstep
  exact ⟨fun n b => h.isUp_of_route, fun n b => h.route_own, fun b => h.route_none,
    run_faithful_iff_alone (listed_initial settings inst) (faithful_initial settings inst)⟩

/-- Two buses with a name each. -/
def wires : Bool → Option String
  | false => some "orders"
  | true => some "billing"

/-- Two buses start, and the first one stops again. -/
def handover (nameOf : Bool → Option String) : List (Custody.Event Bool) :=
  [.notice .started (nameOf false) false, .proceed 0, .proceed 0, .proceed 0,
    .notice .started (nameOf true) true, .proceed 1, .proceed 1,
    .notice .stopping (nameOf false) false, .proceed 2, .proceed 2]

/-- The task has heard of all three whatever the two buses are called. -/
theorem run_handover (nameOf : Bool → Option String) : ∃ s,
    Run (Step nameOf) (initial {} "worker") (handover nameOf) s ∧
    s.told = [⟨.stopping, nameOf false, false⟩, ⟨.started, nameOf true, true⟩,
      ⟨.started, nameOf false, false⟩] :=
  ⟨_, .cons (.quiet (.notice .started (nameOf false) false) rfl) <|
    .cons (.hear (.proceed rfl (.list .started (nameOf false) false)) rfl rfl) <|
    .cons (.quiet (.proceed rfl (.count .started)) rfl) <|
    .cons (.quiet (.proceed rfl .launch) rfl) <|
    .cons (.quiet (.notice .started (nameOf true) true) rfl) <|
    .cons (.hear (.proceed rfl (.list .started (nameOf true) true)) rfl rfl) <|
    .cons (.quiet (.proceed rfl (.count .started)) rfl) <|
    .cons (.quiet (.notice .stopping (nameOf false) false) rfl) <|
    .cons (.hear (.proceed rfl (.list .stopping (nameOf false) false)) rfl rfl) <|
    .cons (.quiet (.proceed rfl (.count .stopping)) rfl) (.nil _), rfl⟩

/-- With a name each, the second bus is reached when the first one has stopped, as at all times
before. -/
theorem routed_iff_stopping_alone_billing : ∃ s : Switchboard Bool,
    Run (Step wires) (initial {} "worker") (handover wires) s ∧
    Run (fun s e u => s.Step wires e u ∧ u.Faithful wires) (initial {} "worker")
      (handover wires) s ∧
    s.route (some "billing") = some true := by
  obtain ⟨s, hrun, htold⟩ := run_handover wires
  obtain ⟨-, hown, -, hfaithful⟩ := routed_iff_stopping_alone hrun
  have hnames : ∀ a b, wires a = wires b → a = b := by decide
  have halone : Run (fun s e u => s.Step wires e u ∧ s.StopsAlone wires e) (initial {} "worker")
      (handover wires) s := hrun.mono fun _ _ _ h => ⟨h, h.stopsAlone fun a b => hnames a b⟩
  have hleads : Leads s.told (some "billing") true := by
    rw [htold]
    exact (Announcement.leads_cons_of_ne (by decide)).mpr
      (Announcement.leads_cons_self (x := ⟨.started, some "billing", true⟩).mpr ⟨rfl, rfl⟩)
  exact ⟨s, hrun, hfaithful.mpr halone, ((hown _ _).mpr hleads).1⟩

/-- **A bus that stops takes the name from another one.**  With one name for both, rows of that name
are routed to no bus when the first one has stopped, although the second one is started. -/
theorem unreachable_while_started : ∃ s : Switchboard Bool,
    Run (Step fun _ => some "orders") (initial {} "worker") (handover fun _ => some "orders") s ∧
    IsUp s.told true ∧ s.route (some "orders") = none := by
  obtain ⟨s, hrun, htold⟩ := run_handover fun _ => some "orders"
  have h : s.Listed fun _ => some "orders" :=
    hrun.invariant (Listed _) (listed_initial {} "worker") fun _ _ _ h hstep => h.step hstep
  refine ⟨s, hrun, ?_, Option.eq_none_iff_forall_ne_some.mpr fun b hroute => ?_⟩
  · rw [htold]
    exact (Announcement.isUp_cons_of_ne (by decide)).mpr
      (Announcement.isUp_cons_self (x := ⟨.started, some "orders", true⟩).mpr rfl)
  · rcases h.leads_of_route hroute with hleads | ⟨hnone, -⟩
    · -- the last word under the name is that a bus is stopping
      rw [htold] at hleads
      have hlast := Announcement.leads_cons_self (x := ⟨.stopping, some "orders", false⟩).mp hleads
      exact absurd hlast.1 nofun
    · exact absurd hnone nofun

end Switchboard
end Courier
