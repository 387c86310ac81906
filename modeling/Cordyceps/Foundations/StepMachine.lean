import Mathlib.Data.List.Basic
import Mathlib.Logic.Basic

/-!
# Step machines and guarded invariants

A step machine is a partial transition function: an event that is not enabled
in a state has no successor. A schedule is a list of events and a run plays it.
The rules below package the induction over schedules once. The guarded rules
compare what a run keeps with a condition on the states its steps are taken
from: `along_iff` turns a per-step characterization into one of whole runs.
-/

namespace Foundations.StepMachine

variable {State Event : Type*}

/-- Play a schedule. A disabled event stops the run without a result. -/
def run (step : State → Event → Option State) : State → List Event → Option State
  | state, [] => some state
  | state, event :: rest => (step state event).bind fun next ↦ run step next rest

/-- Every transition of the schedule satisfies `relation`. -/
def Along (step : State → Event → Option State) (relation : State → Event → State → Prop) :
    State → List Event → Prop
  | _, [] => True
  | state, event :: rest => ∀ next, step state event = some next →
      relation state event next ∧ Along step relation next rest

/-- Every step of the schedule is taken from a state that meets `condition`. -/
abbrev StepsMeet (step : State → Event → Option State) (condition : State → Event → Prop) :
    State → List Event → Prop :=
  Along step fun state event _ ↦ condition state event

/-- Every state the schedule visits, the first one included, has `property`. -/
def Throughout (step : State → Event → Option State) (property : State → Prop)
    (state : State) (schedule : List Event) : Prop :=
  property state ∧ Along step (fun _ _ next ↦ property next) state schedule

/-- What the steps of a schedule yield, one after the other, as far as the schedule goes. -/
def collect {Output : Type*} (step : State → Event → Option State)
    (yields : State → Event → List Output) : State → List Event → List Output
  | _, [] => []
  | state, event :: rest =>
    match step state event with
    | some next => yields state event ++ collect step yields next rest
    | none => []

variable {step : State → Event → Option State}

@[simp]
theorem run_nil (state : State) : run step state [] = some state := rfl

@[simp]
theorem run_cons (state : State) (event : Event) (rest : List Event) :
    run step state (event :: rest) = (step state event).bind fun next ↦ run step next rest := rfl

theorem run_append (state : State) (first second : List Event) :
    run step state (first ++ second) = (run step state first).bind fun next ↦ run step next second := by
  induction first generalizing state with
  | nil => rfl
  | cons event rest ih =>
    simp only [List.cons_append, run_cons, Option.bind_assoc, ih]

/-- A schedule that can be played can be played in two parts. -/
theorem run_getD {start : State} {before rest : List Event}
    (h : (run step start (before ++ rest)).isSome = true) :
    run step start before = some ((run step start before).getD start) ∧
      run step ((run step start before).getD start) rest =
        some ((run step start (before ++ rest)).getD start) := by
  obtain ⟨last, hlast⟩ := Option.isSome_iff_exists.mp h
  have hboth := hlast
  rw [run_append, Option.bind_eq_some_iff] at hboth
  obtain ⟨first, hfirst, hrest⟩ := hboth
  rw [hlast, hfirst, Option.getD_some, Option.getD_some]
  exact ⟨rfl, hrest⟩

@[simp]
theorem along_nil (relation : State → Event → State → Prop) (state : State) :
    Along step relation state [] := trivial

/-- A schedule that starts with a known step. -/
theorem along_of_step {relation : State → Event → State → Prop} {state next : State} {event : Event}
    {rest : List Event} (hnext : step state event = some next) (hrel : relation state event next)
    (hrest : Along step relation next rest) : Along step relation state (event :: rest) := by
  intro other hother
  rw [hnext, Option.some.injEq] at hother
  exact hother ▸ ⟨hrel, hrest⟩

/-- A condition that can be checked on each step can be checked on a schedule. -/
instance decidableAlong {relation : State → Event → State → Prop}
    [∀ state event next, Decidable (relation state event next)] (state : State) :
    (schedule : List Event) → Decidable (Along step relation state schedule)
  | [] => isTrue trivial
  | event :: rest =>
    match hnext : step state event with
    | none => isTrue fun other hother ↦ by
      rw [hnext] at hother
      cases hother
    | some next =>
      have : Decidable (Along step relation next rest) := decidableAlong next rest
      decidable_of_iff (relation state event next ∧ Along step relation next rest)
        ⟨fun h ↦ along_of_step hnext h.1 h.2, fun h ↦ h next hnext⟩

/-- An invariant kept by guarded steps holds along a run whose steps meet the guard. Each
transition may in addition be shown to satisfy a relation that only the invariant yields. -/
theorem along_of_invariant {condition : State → Event → Prop} {invariant : State → Prop}
    {relation : State → Event → State → Prop}
    (hstep : ∀ state event next, invariant state → condition state event →
      step state event = some next → invariant next ∧ relation state event next)
    {state : State} {schedule : List Event} (hinit : invariant state)
    (hmeet : StepsMeet step condition state schedule) : Along step relation state schedule := by
  induction schedule generalizing state with
  | nil => trivial
  | cons event rest ih =>
    intro next hnext
    obtain ⟨hguard, hrest⟩ := hmeet next hnext
    obtain ⟨hinv, hrel⟩ := hstep state event next hinit hguard hnext
    exact ⟨hrel, ih hinv hrest⟩

/-- The state rule: a guarded invariant holds in every state the run visits. -/
theorem throughout_of_invariant {condition : State → Event → Prop} {invariant : State → Prop}
    (hstep : ∀ state event next, invariant state → condition state event →
      step state event = some next → invariant next)
    {state : State} {schedule : List Event} (hinit : invariant state)
    (hmeet : StepsMeet step condition state schedule) :
    Throughout step invariant state schedule := by
  have hkeep : ∀ state event next, invariant state → condition state event →
      step state event = some next → invariant next ∧ invariant next :=
    fun state event next hinv hguard hnext ↦
      ⟨hstep state event next hinv hguard hnext, hstep state event next hinv hguard hnext⟩
  exact ⟨hinit, @along_of_invariant _ _ step condition invariant
    (fun _ _ next ↦ invariant next) hkeep state schedule hinit hmeet⟩

/-- Without a guard every schedule will do. -/
theorem stepsMeet_true (state : State) (schedule : List Event) :
    StepsMeet step (fun _ _ ↦ True) state schedule := by
  induction schedule generalizing state with
  | nil => trivial
  | cons event rest ih => exact fun next _ ↦ ⟨trivial, ih next⟩

/-- A condition on the events alone. -/
theorem stepsMeet_of_forall {condition : State → Event → Prop} {schedule : List Event}
    (h : ∀ event ∈ schedule, ∀ state, condition state event) (state : State) :
    StepsMeet step condition state schedule := by
  induction schedule generalizing state with
  | nil => trivial
  | cons event rest ih =>
    exact fun next _ ↦ ⟨h event List.mem_cons_self state,
      ih (fun other hmem ↦ h other (List.mem_cons_of_mem _ hmem)) next⟩

/-- What holds throughout a run holds where it ends. -/
theorem Throughout.last {property : State → Prop} {state final : State} {schedule : List Event}
    (h : Throughout step property state schedule) (hrun : run step state schedule = some final) :
    property final := by
  induction schedule generalizing state with
  | nil =>
    cases hrun
    exact h.1
  | cons event rest ih =>
    cases hnext : step state event with
    | none => simp [hnext] at hrun
    | some next =>
      rw [run_cons, hnext, Option.bind_some] at hrun
      exact ih (h.2 next hnext) hrun

theorem Along.mono {first second : State → Event → State → Prop}
    (himp : ∀ state event next, step state event = some next →
      first state event next → second state event next)
    {state : State} {schedule : List Event} (h : Along step first state schedule) :
    Along step second state schedule := by
  induction schedule generalizing state with
  | nil => trivial
  | cons event rest ih =>
    intro next hnext
    obtain ⟨hrel, hrest⟩ := h next hnext
    exact ⟨himp state event next hnext hrel, ih hrest⟩

theorem Along.and {first second : State → Event → State → Prop} {state : State}
    {schedule : List Event} (h : Along step first state schedule)
    (h' : Along step second state schedule) :
    Along step (fun state event next ↦ first state event next ∧ second state event next) state
      schedule := by
  induction schedule generalizing state with
  | nil => trivial
  | cons event rest ih =>
    exact fun next hnext ↦ ⟨⟨(h next hnext).1, (h' next hnext).1⟩, ih (h next hnext).2 (h' next hnext).2⟩

theorem Throughout.mono {first second : State → Prop} (himp : ∀ state, first state → second state)
    {state : State} {schedule : List Event} (h : Throughout step first state schedule) :
    Throughout step second state schedule :=
  ⟨himp _ h.1, h.2.mono fun _ _ next _ ↦ himp next⟩

/-- What guarded steps add to a list is, over a run, what they yield. -/
theorem collect_of_invariant {Output : Type*} {condition : State → Event → Prop}
    {invariant : State → Prop} {measure : State → List Output}
    {yields : State → Event → List Output}
    (hstep : ∀ state event next, invariant state → condition state event →
      step state event = some next →
        invariant next ∧ measure next = measure state ++ yields state event)
    {state last : State} {schedule : List Event} (hinit : invariant state)
    (hmeet : StepsMeet step condition state schedule) (hrun : run step state schedule = some last) :
    measure last = measure state ++ collect step yields state schedule := by
  induction schedule generalizing state with
  | nil =>
    cases hrun
    exact (List.append_nil _).symm
  | cons event rest ih =>
    rw [run_cons, Option.bind_eq_some_iff] at hrun
    obtain ⟨next, hnext, hrest⟩ := hrun
    obtain ⟨hguard, hlater⟩ := hmeet next hnext
    obtain ⟨hinv, hadded⟩ := hstep state event next hinit hguard hnext
    rw [ih hinv hlater hrest, hadded, List.append_assoc, collect, hnext]

/-- What the steps yield can be read one by one or at once. -/
theorem collect_hom {Output Read : Type*} {yields : State → Event → List Output}
    {read : List Output → List Read} (hnil : read [] = [])
    (happend : ∀ first second, read (first ++ second) = read first ++ read second)
    (state : State) (schedule : List Event) :
    collect step (fun state event ↦ read (yields state event)) state schedule =
      read (collect step yields state schedule) := by
  induction schedule generalizing state with
  | nil => exact hnil.symm
  | cons event rest ih =>
    rw [collect, collect]
    cases step state event with
    | none => exact hnil.symm
    | some next =>
      change _ ++ collect step _ next rest = read (_ ++ collect step _ next rest)
      rw [happend, ih]

/-- Two machines in lockstep: where a map of states takes each step of one to a step of the other,
as long as an invariant holds, it takes the runs of one to the runs of the other. -/
theorem map_run {Abstract AbstractEvent : Type*} {abstract : Abstract → AbstractEvent → Option Abstract}
    {read : State → Abstract} {readEvent : Event → AbstractEvent} {condition : Event → Prop}
    {invariant : State → Prop}
    (hstep : ∀ state event, invariant state → condition event →
      (step state event).map read = abstract (read state) (readEvent event))
    (hkeep : ∀ state event next, invariant state → condition event →
      step state event = some next → invariant next)
    {state : State} {schedule : List Event} (hinit : invariant state)
    (hall : ∀ event ∈ schedule, condition event) :
    (run step state schedule).map read = run abstract (read state) (schedule.map readEvent) := by
  induction schedule generalizing state with
  | nil => rfl
  | cons event rest ih =>
    have hevent := hall event List.mem_cons_self
    have hfirst := hstep state event hinit hevent
    rw [List.map_cons, run_cons, run_cons]
    cases hnext : step state event with
    | none =>
      rw [hnext, Option.map_none] at hfirst
      rw [← hfirst]
      rfl
    | some next =>
      rw [hnext, Option.map_some] at hfirst
      rw [← hfirst, Option.bind_some, Option.bind_some]
      exact ih (hkeep state event next hinit hevent hnext)
        fun other hmem ↦ hall other (List.mem_cons_of_mem _ hmem)

/-- If guarded steps keep an invariant and are good, and an unguarded step is bad, then a run
from an invariant state is good at every transition exactly when all its steps are guarded. -/
theorem along_iff {condition : State → Event → Prop} {invariant : State → Prop}
    {good : State → Event → State → Prop}
    (hkeep : ∀ state event next, invariant state → condition state event →
      step state event = some next → invariant next ∧ good state event next)
    (hbreak : ∀ state event next, invariant state → ¬ condition state event →
      step state event = some next → ¬ good state event next)
    {state : State} (hinit : invariant state) (schedule : List Event) :
    Along step good state schedule ↔ StepsMeet step condition state schedule := by
  constructor
  · intro hgood
    induction schedule generalizing state with
    | nil => trivial
    | cons event rest ih =>
      intro next hnext
      obtain ⟨hfirst, hrest⟩ := hgood next hnext
      have hguard : condition state event := by
        by_contra hnot
        exact hbreak state event next hinit hnot hnext hfirst
      exact ⟨hguard, ih (hkeep state event next hinit hguard hnext).1 hrest⟩
  · exact along_of_invariant hkeep hinit

/-- The state form of `along_iff`. -/
theorem throughout_iff {condition : State → Event → Prop} {invariant property : State → Prop}
    (hkeep : ∀ state event next, invariant state → condition state event →
      step state event = some next → invariant next)
    (hbreak : ∀ state event next, invariant state → ¬ condition state event →
      step state event = some next → ¬ property next)
    (hproperty : ∀ state, invariant state → property state)
    {state : State} (hinit : invariant state) (schedule : List Event) :
    Throughout step property state schedule ↔ StepsMeet step condition state schedule := by
  have hgood : ∀ state event next, invariant state → condition state event →
      step state event = some next → invariant next ∧ property next :=
    fun state event next hinv hguard hnext ↦
      ⟨hkeep state event next hinv hguard hnext,
        hproperty next (hkeep state event next hinv hguard hnext)⟩
  have halong := @along_iff _ _ step condition invariant (fun _ _ next ↦ property next)
    hgood hbreak state hinit schedule
  exact ⟨fun h ↦ halong.mp h.2, fun h ↦ ⟨hproperty state hinit, halong.mpr h⟩⟩

end Foundations.StepMachine
