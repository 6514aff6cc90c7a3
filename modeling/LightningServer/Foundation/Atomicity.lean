import LightningServer.Foundation.Interleaving
import Mathlib.Data.List.Forall2

/-!
# Calls that are made by code

A call of a program may itself be made by a piece of code, in smaller actions
that can block and that interleave with the actions of other threads.
`expand` puts this code in the place of each call.

A piece of code is atomic for a call when, wherever it is interrupted, it has
either had no effect, or the effect of the call at once, and then all that is
left of it gives the reply of the call.  Both levels may depend on rulings of
the environment: which of the outcomes that the call allows takes place.
`Refines.run` then reads every interleaving of the actions as an interleaving
of whole calls, each made at one of the actions of its own thread.
-/

namespace LightningServer.Foundation

variable {Request Action : Type}
variable {Reply : Request → Type} {Answer : Action → Type}
variable {Failure Value Result Arrival Ruling Decision Change : Type}
variable {Thread World State : Type}

/-! ## Pools whose moves are ruled by the environment -/

inductive RuledEvent (Arrival Ruling Change : Type) where
  | arrive (arrival : Arrival)
  /-- the thread at this position moves, under a ruling -/
  | advance (index : Nat) (ruling : Ruling)
  /-- something else changes what the threads share -/
  | outside (change : Change)

namespace Pool

section Ruled

variable (enter : Arrival → Thread)
variable (move : Ruling → Thread → World → Thread × World)
variable (apply : Change → World → World)

def ruledStep (pool : Pool Thread World) :
    RuledEvent Arrival Ruling Change → Pool Thread World
  | .arrive arrival =>
      { pool with threads := pool.threads ++ [enter arrival] }
  | .advance index ruling =>
      pool.step enter (move ruling) (.advance index)
  | .outside change => { pool with world := apply change pool.world }

theorem ruledStep_advance_of_none
    {pool : Pool Thread World} {index : Nat}
    (absent : pool.threads[index]? = none) (ruling : Ruling) :
    pool.ruledStep enter move apply (.advance index ruling) = pool :=
  step_advance_of_none enter (move ruling) absent

theorem ruledStep_advance_of_some
    {pool : Pool Thread World} {index : Nat} {thread : Thread}
    (present : pool.threads[index]? = some thread) (ruling : Ruling) :
    pool.ruledStep enter move apply (.advance index ruling) =
      pool.moved index (move ruling thread pool.world) :=
  step_advance_of_some enter (move ruling) present

/-- A move leaves the other threads where they are. -/
theorem getElem?_ruledStep_of_ne
    (pool : Pool Thread World) {index other : Nat}
    (different : other ≠ index) (ruling : Ruling) :
    (pool.ruledStep enter move apply
        (.advance index ruling)).threads[other]? =
      pool.threads[other]? := by
  cases present : pool.threads[index]? with
  | none =>
      rw [ruledStep_advance_of_none enter move apply present]
  | some thread =>
      rw [ruledStep_advance_of_some enter move apply present]
      exact getElem?_moved_of_ne pool different _

theorem length_ruledStep_advance
    (pool : Pool Thread World) (index : Nat) (ruling : Ruling) :
    (pool.ruledStep enter move apply
        (.advance index ruling)).threads.length =
      pool.threads.length := by
  cases present : pool.threads[index]? with
  | none =>
      rw [ruledStep_advance_of_none enter move apply present]
  | some thread =>
      rw [ruledStep_advance_of_some enter move apply present]
      exact List.length_set

end Ruled

end Pool

/-! ## Code in the place of calls -/

namespace Program

/-- How a program has ended, if it has. -/
def outcome? : Program Reply Failure Value → Option (Except Failure Value)
  | .ret value => some (.ok value)
  | .throw failure => some (.error failure)
  | .call _ _ => none

/-- Each call is made by its code. -/
def expand (code : (request : Request) →
      Program Answer Failure (Reply request)) :
    Program Reply Failure Value → Program Answer Failure Value
  | .ret value => .ret value
  | .throw failure => .throw failure
  | .call request next =>
      code request >>= fun reply => (next reply).expand code

/-- The next action is made, unless it blocks. -/
def attempt
    (perform :
      (action : Action) → State → Option (Answer action × State)) :
    Program Answer Failure Value → State →
      Program Answer Failure Value × State
  | .call action next, state =>
      match perform action state with
      | none => (.call action next, state)
      | some (answer, later) => (next answer, later)
  | program, state => (program, state)

/-! ## Atomic code -/

section Atomic

variable
  (perform :
    Decision → (action : Action) → State → Option (Answer action × State))
variable (handler : Ruling → (request : Request) → World →
  Reply request × World)
variable (view : State → World) (invariant : World → Prop)

/-- What is left has no effect any more, and gives this value. -/
def Committed (value : Value) : Program Answer Failure Value → Prop
  | .ret result => result = value
  | .throw _ => False
  | .call action next =>
      ∀ decision state answer later, invariant (view state) →
        perform decision action state = some (answer, later) →
          view later = view state ∧ (next answer).Committed value

/-- There was no effect yet; it comes at once, with the reply. -/
def Pending (request : Request) :
    Program Answer Failure (Reply request) → Prop
  | .ret _ => False
  | .throw _ => False
  | .call action next =>
      ∀ decision state answer later, invariant (view state) →
        perform decision action state = some (answer, later) →
          view later = view state ∧ (next answer).Pending request ∨
            ∃ ruling,
              (handler ruling request (view state)).2 = view later ∧
                (next answer).Committed perform view invariant
                  (handler ruling request (view state)).1

/-- A program in the middle of its actions, and one between its calls. -/
inductive Implements
    (code : (request : Request) →
      Program Answer Failure (Reply request)) :
    Program Answer Failure Value → Program Reply Failure Value → Prop where
  | returned (value : Value) : Implements code (.ret value) (.ret value)
  | thrown (failure : Failure) :
      Implements code (.throw failure) (.throw failure)
  | before {request : Request}
      {body : Program Answer Failure (Reply request)}
      (next : Reply request → Program Reply Failure Value)
      (pending : body.Pending perform handler view invariant request) :
      Implements code
        (body >>= fun reply => (next reply).expand code)
        (.call request next)
  | after {Middle : Type} {action : Action} {value : Middle}
      {rest : Answer action → Program Answer Failure Middle}
      (next : Middle → Program Reply Failure Value)
      (committed :
        (Program.call action rest).Committed perform view invariant
          value) :
      Implements code
        (.call action rest >>= fun result => (next result).expand code)
        (next value)

variable {perform handler view invariant}
variable
  {code : (request : Request) → Program Answer Failure (Reply request)}
variable
  (atomic :
    ∀ request,
      (code request).Pending perform handler view invariant request)

include atomic

theorem implements_expand (program : Program Reply Failure Value) :
    Implements perform handler view invariant code
      (program.expand code) program := by
  cases program with
  | ret value => exact .returned value
  | throw failure => exact .thrown failure
  | call request next => exact .before next (atomic request)

theorem implements_of_committed
    {body : Program Answer Failure Result} {value : Result}
    (committed : body.Committed perform view invariant value)
    (next : Result → Program Reply Failure Value) :
    Implements perform handler view invariant code
      (body >>= fun result => (next result).expand code)
      (next value) := by
  cases body with
  | ret result =>
      rw [show result = value from committed]
      exact implements_expand atomic (next value)
  | throw failure => exact committed.elim
  | call action rest => exact .after next committed

/-- An action is silent, or it is the next call of the program. -/
theorem Implements.attempt
    {small : Program Answer Failure Value}
    {large : Program Reply Failure Value}
    (implements : Implements perform handler view invariant code small large)
    (decision : Decision) {state : State} (holds : invariant (view state)) :
    view (small.attempt (perform decision) state).2 = view state ∧
        Implements perform handler view invariant code
          (small.attempt (perform decision) state).1 large ∨
      ∃ ruling,
        (large.move (handler ruling) (view state)).2 =
            view (small.attempt (perform decision) state).2 ∧
          Implements perform handler view invariant code
            (small.attempt (perform decision) state).1
            (large.move (handler ruling) (view state)).1 := by
  cases implements with
  | returned value => exact Or.inl ⟨rfl, .returned value⟩
  | thrown failure => exact Or.inl ⟨rfl, .thrown failure⟩
  | @before request body next pending =>
      cases body with
      | ret reply => exact pending.elim
      | throw failure => exact pending.elim
      | call action rest =>
          rw [call_bind]
          simp only [Program.attempt]
          cases performed : perform decision action state with
          | none => exact Or.inl ⟨rfl, .before next pending⟩
          | some outcome =>
              rcases outcome with ⟨answer, later⟩
              rcases pending decision state answer later holds
                  performed with
                ⟨same, still⟩ | ⟨ruling, effect, committed⟩
              · exact Or.inl ⟨same, .before next still⟩
              · exact Or.inr ⟨ruling, effect,
                  implements_of_committed atomic committed next⟩
  | @after Middle action value rest next committed =>
      left
      rw [call_bind]
      simp only [Program.attempt]
      cases performed : perform decision action state with
      | none => exact ⟨rfl, .after next committed⟩
      | some outcome =>
          rcases outcome with ⟨answer, later⟩
          rcases committed decision state answer later holds
              performed with ⟨same, still⟩
          exact ⟨same, implements_of_committed atomic still next⟩

end Atomic

end Program

/-- How the thread at this position has ended, if it has. -/
def Pool.outcome?
    (pool : Pool (Program Reply Failure Value) World) (index : Nat) :
    Option (Except Failure Value) :=
  pool.threads[index]?.bind Program.outcome?

theorem Program.attempt_of_ended
    {program : Program Answer Failure Value}
    {outcome : Except Failure Value}
    (ended : program.outcome? = some outcome)
    (perform :
      (action : Action) → State → Option (Answer action × State))
    (state : State) :
    program.attempt perform state = (program, state) := by
  cases program with
  | ret value => rfl
  | throw failure => rfl
  | call action next => cases ended

/-- What has ended stays as it is. -/
theorem Pool.outcome?_ruledStep
    (enter : Arrival → Program Answer Failure Value)
    (perform :
      Decision → (action : Action) → State →
        Option (Answer action × State))
    (apply : Change → State → State)
    {pool : Pool (Program Answer Failure Value) State} {index : Nat}
    {outcome : Except Failure Value}
    (ended : pool.outcome? index = some outcome)
    (event : RuledEvent Arrival Decision Change) :
    (pool.ruledStep enter (fun decision => Program.attempt (perform decision))
        apply event).outcome? index = some outcome := by
  rcases Option.bind_eq_some_iff.mp ended with
    ⟨program, present, isOutcome⟩
  cases event with
  | arrive arrival =>
      have still :
          (pool.threads ++ [enter arrival])[index]? = some program :=
        getElem?_arrived_of_some present
      rw [Pool.outcome?, Pool.ruledStep, still]
      exact isOutcome
  | outside change => exact ended
  | advance moving decision =>
      by_cases same : index = moving
      · subst same
        rw [Pool.outcome?, ruledStep_advance_of_some _ _ _ present,
          Program.attempt_of_ended isOutcome, getElem?_moved_self present]
        exact isOutcome
      · rw [Pool.outcome?, getElem?_ruledStep_of_ne _ _ _ _ same]
        exact ended

/-! ## From actions to calls -/

/--
What an event of the actions is among the calls: an arrival or a change is
itself, and a move is the next call of its thread, or none.
-/
inductive Linearizes :
    RuledEvent Arrival Decision Change →
      List (RuledEvent Arrival Ruling Change) → Prop where
  | arrive (arrival : Arrival) :
      Linearizes (.arrive arrival) [.arrive arrival]
  | outside (change : Change) :
      Linearizes (.outside change) [.outside change]
  | silent (index : Nat) (decision : Decision) :
      Linearizes (.advance index decision) []
  | call (index : Nat) (decision : Decision) (ruling : Ruling) :
      Linearizes (.advance index decision) [.advance index ruling]

/-- Two lists that are related still are, with one pair replaced. -/
theorem forall₂_set
    {First Second : Type} {related : First → Second → Prop}
    {firsts : List First} {seconds : List Second}
    (all : List.Forall₂ related firsts seconds)
    {first : First} {second : Second} (here : related first second)
    (index : Nat) :
    List.Forall₂ related (firsts.set index first)
      (seconds.set index second) := by
  induction all generalizing index with
  | nil => exact .nil
  | cons head tail induction =>
      cases index with
      | zero => exact .cons here tail
      | succ index => exact .cons head (induction index)

/-- Never more calls than actions. -/
theorem Linearizes.length_le
    {event : RuledEvent Arrival Decision Change}
    {calls : List (RuledEvent Arrival Ruling Change)}
    (linearizes : Linearizes event calls) : calls.length ≤ 1 := by
  cases linearizes with
  | arrive arrival => exact Nat.le_refl 1
  | outside change => exact Nat.le_refl 1
  | silent index decision => exact Nat.zero_le 1
  | call index decision ruling => exact Nat.le_refl 1

theorem length_flatten_le
    {events : List (RuledEvent Arrival Decision Change)}
    {parts : List (List (RuledEvent Arrival Ruling Change))}
    (linearizes : List.Forall₂ Linearizes events parts) :
    parts.flatten.length ≤ events.length := by
  induction linearizes with
  | nil => exact Nat.le_refl 0
  | cons here later induction =>
      have atMostOne := here.length_le
      rw [List.flatten_cons, List.length_append, List.length_cons]
      omega

section Refines

variable
  (perform :
    Decision → (action : Action) → State → Option (Answer action × State))
variable (handler : Ruling → (request : Request) → World →
  Reply request × World)
variable (view : State → World) (invariant : World → Prop)
variable
  (code : (request : Request) → Program Answer Failure (Reply request))

/-- The same world, and each thread of the one in the code of the other. -/
structure Refines
    (small : Pool (Program Answer Failure Value) State)
    (large : Pool (Program Reply Failure Value) World) : Prop where
  world : large.world = view small.world
  threads :
    List.Forall₂
      (Program.Implements perform handler view invariant code)
      small.threads large.threads

variable {perform handler view invariant code}

theorem refines_empty (state : State) :
    Refines perform handler view invariant code
      (.empty state : Pool (Program Answer Failure Value) State)
      (.empty (view state)) where
  world := rfl
  threads := .nil

/-- The position of a thread is the same on both levels. -/
theorem Refines.thread
    {small : Pool (Program Answer Failure Value) State}
    {large : Pool (Program Reply Failure Value) World}
    (refines : Refines perform handler view invariant code small large)
    {index : Nat} {thread : Program Answer Failure Value}
    (present : small.threads[index]? = some thread) :
    ∃ program, large.threads[index]? = some program ∧
      Program.Implements perform handler view invariant code
        thread program := by
  rcases refines with ⟨-, threads⟩
  rcases List.getElem?_eq_some_iff.mp present with ⟨inside, rfl⟩
  have same := threads.length_eq
  exact ⟨large.threads[index], List.getElem?_eq_getElem (by omega),
    threads.get inside (by omega)⟩

/-- A thread that has ended has done so on both levels, in the same way. -/
theorem Refines.outcome?
    {small : Pool (Program Answer Failure Value) State}
    {large : Pool (Program Reply Failure Value) World}
    (refines : Refines perform handler view invariant code small large)
    {index : Nat} {outcome : Except Failure Value}
    (ended : small.outcome? index = some outcome) :
    large.outcome? index = some outcome := by
  rcases Option.bind_eq_some_iff.mp ended with
    ⟨thread, present, isOutcome⟩
  rcases refines.thread present with ⟨program, there, implements⟩
  rw [Pool.outcome?, there, Option.bind_some]
  cases implements with
  | returned value => exact isOutcome
  | thrown failure => exact isOutcome
  | @before request body next pending =>
      cases body with
      | ret reply => exact pending.elim
      | throw failure => exact pending.elim
      | call action rest => cases isOutcome
  | after next committed => cases isOutcome

variable {entry : Arrival → Program Reply Failure Value}
variable {applySmall : Change → State → State}
variable {applyLarge : Change → World → World}
variable
  (atomic :
    ∀ request,
      (code request).Pending perform handler view invariant request)
variable
  (changes :
    ∀ change state,
      view (applySmall change state) = applyLarge change (view state))

/-- The step of the actions. -/
abbrev smallStep
    (perform :
      Decision → (action : Action) → State →
        Option (Answer action × State))
    (code : (request : Request) →
      Program Answer Failure (Reply request))
    (entry : Arrival → Program Reply Failure Value)
    (applySmall : Change → State → State) :
    Pool (Program Answer Failure Value) State →
      RuledEvent Arrival Decision Change →
        Pool (Program Answer Failure Value) State :=
  Pool.ruledStep (fun arrival => (entry arrival).expand code)
    (fun decision => Program.attempt (perform decision)) applySmall

/-- The step of the calls. -/
abbrev largeStep
    (handler : Ruling → (request : Request) → World →
      Reply request × World)
    (entry : Arrival → Program Reply Failure Value)
    (applyLarge : Change → World → World) :
    Pool (Program Reply Failure Value) World →
      RuledEvent Arrival Ruling Change →
        Pool (Program Reply Failure Value) World :=
  Pool.ruledStep entry
    (fun ruling => Program.move (handler ruling)) applyLarge

theorem largeStep_of_none
    {pool : Pool (Program Reply Failure Value) World} {index : Nat}
    {ruling : Ruling} (absent : pool.threads[index]? = none) :
    largeStep handler entry applyLarge pool (.advance index ruling) =
      pool :=
  Pool.ruledStep_advance_of_none _ _ _ absent ruling

theorem largeStep_of_some
    {pool : Pool (Program Reply Failure Value) World} {index : Nat}
    {ruling : Ruling} {program : Program Reply Failure Value}
    (present : pool.threads[index]? = some program) :
    largeStep handler entry applyLarge pool (.advance index ruling) =
      pool.moved index (program.move (handler ruling) pool.world) :=
  Pool.ruledStep_advance_of_some _ _ _ present ruling

/-- What a step of the calls does to the world. -/
theorem world_largeStep_cases
    (pool : Pool (Program Reply Failure Value) World)
    (event : RuledEvent Arrival Ruling Change) :
    let later := (largeStep handler entry applyLarge pool event).world
    later = pool.world ∨
      (∃ ruling request, later = (handler ruling request pool.world).2) ∨
        ∃ change, later = applyLarge change pool.world := by
  intro later
  cases event with
  | arrive arrival => exact Or.inl rfl
  | outside change => exact Or.inr (Or.inr ⟨change, rfl⟩)
  | advance index ruling =>
      cases present : pool.threads[index]? with
      | none =>
          left
          simp only [later, largeStep_of_none present]
      | some program =>
          have moved :
              later = (program.move (handler ruling) pool.world).2 := by
            simp only [later, largeStep_of_some present]
            rfl
          cases program with
          | ret value => exact Or.inl moved
          | throw failure => exact Or.inl moved
          | call request next =>
              exact Or.inr (Or.inl ⟨ruling, request, moved⟩)

include atomic changes

theorem Refines.step
    {small : Pool (Program Answer Failure Value) State}
    {large : Pool (Program Reply Failure Value) World}
    (refines : Refines perform handler view invariant code small large)
    (holds : invariant large.world)
    (event : RuledEvent Arrival Decision Change) :
    ∃ calls : List (RuledEvent Arrival Ruling Change),
      Linearizes event calls ∧
        Refines perform handler view invariant code
          (smallStep perform code entry applySmall small event)
          (Transition.run (largeStep handler entry applyLarge) large
            calls) := by
  cases event with
  | arrive arrival =>
      refine ⟨[.arrive arrival], .arrive arrival, refines.world, ?_⟩
      exact List.rel_append refines.threads
        (.cons (Program.implements_expand atomic (entry arrival)) .nil)
  | outside change =>
      refine ⟨[.outside change], .outside change, ?_, refines.threads⟩
      show applyLarge change large.world =
        view (applySmall change small.world)
      rw [changes, refines.world]
  | advance index decision =>
      cases present : small.threads[index]? with
      | none =>
          refine ⟨[], .silent index decision, ?_⟩
          have idle :
              smallStep perform code entry applySmall small
                (.advance index decision) = small :=
            Pool.ruledStep_advance_of_none _ _ _ present decision
          rw [idle]
          exact refines
      | some thread =>
          rcases refines.thread present with ⟨program, there, implements⟩
          have moved :
              smallStep perform code entry applySmall small
                  (.advance index decision) =
                small.moved index
                  (thread.attempt (perform decision) small.world) :=
            Pool.ruledStep_advance_of_some _ _ _ present decision
          rw [moved]
          rw [refines.world] at holds
          rcases implements.attempt atomic decision holds with
            ⟨same, still⟩ | ⟨ruling, effect, next⟩
          · refine ⟨[], .silent index decision,
              refines.world.trans same.symm, ?_⟩
            have unmoved : large.threads.set index program =
                large.threads := by
              rcases List.getElem?_eq_some_iff.mp there with ⟨inside, rfl⟩
              exact List.set_getElem_self inside
            rw [Transition.run_nil, ← unmoved]
            exact forall₂_set refines.threads still index
          · refine ⟨[.advance index ruling],
              .call index decision ruling, ?_⟩
            rw [Transition.run_cons, Transition.run_nil,
              largeStep_of_some there, refines.world]
            exact ⟨effect, forall₂_set refines.threads next index⟩

/--
Every run of the actions is a run of whole calls, which take their effect in
the order of the actions that make them.
-/
theorem Refines.run
    {small : Pool (Program Answer Failure Value) State}
    {large : Pool (Program Reply Failure Value) World}
    (refines : Refines perform handler view invariant code small large)
    {events : List (RuledEvent Arrival Decision Change)}
    (holds :
      ∀ calls : List (RuledEvent Arrival Ruling Change),
        calls.length ≤ events.length →
          invariant
            (Transition.run (largeStep handler entry applyLarge) large
              calls).world) :
    ∃ parts : List (List (RuledEvent Arrival Ruling Change)),
      List.Forall₂ Linearizes events parts ∧
        ∀ count,
          Refines perform handler view invariant code
            (Transition.run (smallStep perform code entry applySmall) small
              (events.take count))
            (Transition.run (largeStep handler entry applyLarge) large
              (parts.take count).flatten) := by
  induction events generalizing small large with
  | nil =>
      refine ⟨[], .nil, fun count => ?_⟩
      rw [List.take_nil, List.take_nil]
      exact refines
  | cons event rest induction =>
      have here : invariant large.world := holds [] (Nat.zero_le _)
      rcases refines.step atomic changes here event with
        ⟨calls, linearizes, next⟩
      have later :
          ∀ others : List (RuledEvent Arrival Ruling Change),
            others.length ≤ rest.length →
              invariant
                (Transition.run (largeStep handler entry applyLarge)
                  (Transition.run (largeStep handler entry applyLarge)
                    large calls) others).world := by
        intro others few
        rw [← Transition.run_append]
        apply holds
        have atMostOne := linearizes.length_le
        rw [List.length_append, List.length_cons]
        omega
      rcases induction next later with ⟨parts, each, prefixes⟩
      refine ⟨calls :: parts, .cons linearizes each, fun count => ?_⟩
      cases count with
      | zero => exact refines
      | succ count =>
          rw [List.take_succ_cons, List.take_succ_cons,
            List.flatten_cons, Transition.run_append]
          exact prefixes count

end Refines

end LightningServer.Foundation
