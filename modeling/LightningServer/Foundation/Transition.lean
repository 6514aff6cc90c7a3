import Mathlib.Data.List.Induction

/-!
# Runs of deterministic transition functions

A component is a step function on states, driven by a list of events chosen
by its environment.  Nondeterminism (schedules, arrivals, timers) is the
choice of that list, so a statement about every run quantifies over lists of
events.

`Along` says that a condition on the state before a step and on the event
holds at every step of one run.  `outputs` collects what the steps of a run
give out.  The invariant rules are the only inductions over runs that the
developments built on this module need.
-/

namespace LightningServer.Foundation.Transition

variable {State Event : Type*}

/-- The state reached by a list of events. -/
def run (step : State → Event → State) (start : State)
    (events : List Event) : State :=
  events.foldl step start

@[simp]
theorem run_nil
    (step : State → Event → State) (start : State) :
    run step start [] = start :=
  rfl

@[simp]
theorem run_cons
    (step : State → Event → State) (start : State)
    (event : Event) (rest : List Event) :
    run step start (event :: rest) =
      run step (step start event) rest :=
  rfl

theorem run_append
    (step : State → Event → State) (start : State)
    (first second : List Event) :
    run step start (first ++ second) =
      run step (run step start first) second :=
  List.foldl_append

/-- A condition on each step of a run, read in the state before the step. -/
def Along (step : State → Event → State)
    (condition : State → Event → Prop) : State → List Event → Prop
  | _, [] => True
  | state, event :: rest =>
      condition state event ∧ Along step condition (step state event) rest

@[simp]
theorem along_nil
    (step : State → Event → State)
    (condition : State → Event → Prop) (start : State) :
    Along step condition start [] :=
  trivial

@[simp]
theorem along_cons
    (step : State → Event → State)
    (condition : State → Event → Prop) (start : State)
    (event : Event) (rest : List Event) :
    Along step condition start (event :: rest) ↔
      condition start event ∧
        Along step condition (step start event) rest :=
  Iff.rfl

instance instDecidableAlong
    (step : State → Event → State)
    (condition : State → Event → Prop)
    [∀ state event, Decidable (condition state event)] :
    ∀ start events, Decidable (Along step condition start events)
  | _, [] => .isTrue trivial
  | start, event :: rest =>
      haveI := instDecidableAlong step condition (step start event) rest
      inferInstanceAs (Decidable (_ ∧ _))

theorem along_append
    (step : State → Event → State)
    (condition : State → Event → Prop) (start : State)
    (first second : List Event) :
    Along step condition start (first ++ second) ↔
      Along step condition start first ∧
        Along step condition (run step start first) second := by
  induction first generalizing start with
  | nil => simp
  | cons event rest induction =>
      simp [induction, and_assoc]

/-- A condition on the events alone. -/
theorem along_of_forall_mem
    (step : State → Event → State) {condition : Event → Prop}
    (start : State) {events : List Event}
    (each : ∀ event ∈ events, condition event) :
    Along step (fun _ event => condition event) start events := by
  induction events generalizing start with
  | nil => trivial
  | cons event rest induction =>
      rw [List.forall_mem_cons] at each
      exact ⟨each.1, induction _ each.2⟩

theorem Along.take
    {step : State → Event → State}
    {condition : State → Event → Prop} {start : State}
    {events : List Event} (along : Along step condition start events)
    (count : Nat) :
    Along step condition start (events.take count) := by
  rw [← List.take_append_drop count events, along_append] at along
  exact along.1

theorem Along.imp
    {step : State → Event → State}
    {first second : State → Event → Prop}
    (implies : ∀ state event, first state event → second state event)
    {start : State} {events : List Event}
    (along : Along step first start events) :
    Along step second start events := by
  induction events generalizing start with
  | nil => trivial
  | cons event rest induction =>
      exact ⟨implies start event along.1, induction along.2⟩

theorem forall_mem_of_along
    {step : State → Event → State} {condition : Event → Prop}
    {start : State} {events : List Event}
    (along : Along step (fun _ event => condition event) start events) :
    ∀ event ∈ events, condition event := by
  induction events generalizing start with
  | nil => simp
  | cons event rest induction =>
      rw [List.forall_mem_cons]
      exact ⟨along.1, induction along.2⟩

theorem Along.and
    {step : State → Event → State}
    {first second : State → Event → Prop} {start : State}
    {events : List Event} (one : Along step first start events)
    (other : Along step second start events) :
    Along step
      (fun state event => first state event ∧ second state event)
      start events := by
  induction events generalizing start with
  | nil => trivial
  | cons event rest induction =>
      exact ⟨⟨one.1, other.1⟩, induction one.2 other.2⟩

/-- A property of every state of a run, read step by step. -/
theorem forall_take_iff
    (step : State → Event → State) (property : State → Prop)
    (start : State) (events : List Event) :
    (∀ count, property (run step start (events.take count))) ↔
      property start ∧
        Along step (fun state event => property (step state event))
          start events := by
  induction events generalizing start with
  | nil => simp
  | cons event rest induction =>
      rw [along_cons]
      constructor
      · intro always
        refine ⟨always 0, ?_⟩
        exact (induction (step start event)).mp
          fun count => always (count + 1)
      · rintro ⟨initial, later⟩ count
        cases count with
        | zero => exact initial
        | succ count =>
            exact (induction (step start event)).mpr later count

/-- A property of every state of a run, before each step. -/
theorem along_of_forall_take
    {step : State → Event → State} {property : State → Prop}
    {start : State} {events : List Event}
    (always : ∀ count, property (run step start (events.take count))) :
    Along step (fun state _ => property state) start events := by
  induction events generalizing start with
  | nil => trivial
  | cons event rest induction =>
      exact ⟨always 0, induction fun count => always (count + 1)⟩

/-- An invariant kept by every guarded step holds after every guarded run. -/
theorem run_invariant_along
    {step : State → Event → State}
    {condition : State → Event → Prop}
    (invariant : State → Prop)
    (preserved :
      ∀ state event, invariant state → condition state event →
        invariant (step state event))
    {start : State} {events : List Event}
    (initial : invariant start)
    (guarded : Along step condition start events) :
    invariant (run step start events) := by
  induction events generalizing start with
  | nil => exact initial
  | cons event rest induction =>
      exact induction
        (preserved start event initial guarded.1) guarded.2

/-- An invariant kept by every guarded step holds before each of them. -/
theorem Along.keeping
    {step : State → Event → State}
    {condition : State → Event → Prop}
    (invariant : State → Prop)
    (preserved :
      ∀ state event, invariant state → condition state event →
        invariant (step state event))
    {start : State} {events : List Event}
    (initial : invariant start)
    (guarded : Along step condition start events) :
    Along step (fun state event => condition state event ∧ invariant state)
      start events := by
  induction events generalizing start with
  | nil => trivial
  | cons event rest induction =>
      exact ⟨⟨guarded.1, initial⟩,
        induction (preserved start event initial guarded.1) guarded.2⟩

/-- An invariant kept by every step holds after every run. -/
theorem run_invariant
    {step : State → Event → State}
    (invariant : State → Prop)
    (preserved :
      ∀ state event, invariant state → invariant (step state event))
    {start : State} (events : List Event)
    (initial : invariant start) :
    invariant (run step start events) := by
  induction events generalizing start with
  | nil => exact initial
  | cons event rest induction =>
      exact induction (preserved start event initial)

/-- What grows by at most one in a step. -/
theorem measure_run_le
    {step : State → Event → State} (measure : State → Nat)
    (grows : ∀ state event, measure (step state event) ≤ measure state + 1)
    (start : State) (events : List Event) :
    measure (run step start events) ≤ measure start + events.length := by
  induction events generalizing start with
  | nil => exact Nat.le_refl _
  | cons event rest induction =>
      have here := grows start event
      have later := induction (step start event)
      rw [run_cons, List.length_cons]
      omega

/--
Two conditions that agree under an invariant hold along the same runs, when
a step that meets them keeps the invariant.
-/
theorem along_iff
    {step : State → Event → State}
    {allowed first second : State → Event → Prop}
    (invariant : State → Prop)
    (agree :
      ∀ state event, invariant state → allowed state event →
        (first state event ↔ second state event))
    (preserved :
      ∀ state event, invariant state → allowed state event →
        second state event → invariant (step state event))
    {start : State} {events : List Event} (initial : invariant start)
    (guarded : Along step allowed start events) :
    Along step first start events ↔ Along step second start events := by
  induction events generalizing start with
  | nil => exact Iff.rfl
  | cons event rest induction =>
      rcases guarded with ⟨here, later⟩
      rw [along_cons, along_cons, agree start event initial here]
      constructor
      · rintro ⟨holds, along⟩
        exact ⟨holds,
          (induction (preserved start event initial here holds) later).mp
            along⟩
      · rintro ⟨holds, along⟩
        exact ⟨holds,
          (induction (preserved start event initial here holds) later).mpr
            along⟩

/-! ## What a run gives out -/

section Outputs

variable {Output : Type*}
variable (step : State → Event → State)
variable (emit : State → Event → List Output)

/-- What the steps give out, read in the state before each of them. -/
def outputs : State → List Event → List Output
  | _, [] => []
  | state, event :: rest =>
      emit state event ++ outputs (step state event) rest

@[simp]
theorem outputs_nil (start : State) :
    outputs step emit start [] = [] :=
  rfl

@[simp]
theorem outputs_cons (start : State) (event : Event) (rest : List Event) :
    outputs step emit start (event :: rest) =
      emit start event ++ outputs step emit (step start event) rest :=
  rfl

theorem outputs_append
    (start : State) (first second : List Event) :
    outputs step emit start (first ++ second) =
      outputs step emit start first ++
        outputs step emit (run step start first) second := by
  induction first generalizing start with
  | nil => rfl
  | cons event rest induction =>
      rw [List.cons_append, outputs_cons, induction, outputs_cons,
        List.append_assoc, run_cons]

/--
An invariant of a state and of what has been given out so far, kept by every
guarded step.
-/
theorem run_outputs_invariant_along
    {step : State → Event → State}
    {emit : State → Event → List Output}
    {condition : State → Event → Prop}
    (invariant : State → List Output → Prop)
    (preserved :
      ∀ state produced event, invariant state produced →
        condition state event →
          invariant (step state event) (produced ++ emit state event))
    {start : State} {events : List Event} (initial : invariant start [])
    (guarded : Along step condition start events) :
    invariant (run step start events) (outputs step emit start events) := by
  induction events using List.reverseRecOn with
  | nil => exact initial
  | append_singleton rest event induction =>
      rcases (along_append ..).mp guarded with ⟨before, last, -⟩
      rw [run_append, outputs_append, outputs_cons, outputs_nil,
        List.append_nil]
      exact preserved _ _ event (induction before) last

/-- An invariant of both that every step keeps. -/
theorem run_outputs_invariant
    {step : State → Event → State}
    {emit : State → Event → List Output}
    (invariant : State → List Output → Prop)
    (preserved :
      ∀ state produced event, invariant state produced →
        invariant (step state event) (produced ++ emit state event))
    {start : State} (events : List Event) (initial : invariant start []) :
    invariant (run step start events) (outputs step emit start events) :=
  run_outputs_invariant_along invariant
    (fun state produced event holds _ =>
      preserved state produced event holds)
    initial
    (along_of_forall_mem step start fun _ _ => trivial)

end Outputs

end LightningServer.Foundation.Transition
