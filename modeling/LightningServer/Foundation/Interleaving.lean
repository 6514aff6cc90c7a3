import LightningServer.Foundation.Program
import LightningServer.Foundation.Transition

/-!
# Interleaved execution

A pool runs any number of threads against one world.  An event lets a new
thread arrive, or lets one thread make its next move, which is atomic; a
schedule is a list of events, so a statement about every interleaving
quantifies over lists of events.

The threads may be programs, which move by making a call, or any other
description of the same code.  `run_map` carries a run over descriptions to
the run over the code they stand for.

`All` and `AtMostOne` are invariants of the threads alone; a condition on
what a thread may do while others are in a critical part of their code is
stated with `NoOther`, or with `NobodyElse` on the calls of programs.
-/

namespace LightningServer.Foundation

variable {Thread Code World Arrival : Type}

/-- Threads, by the order of their arrival, and what they share. -/
structure Pool (Thread World : Type) where
  threads : List Thread
  world : World

inductive PoolEvent (Arrival : Type) where
  | arrive (arrival : Arrival)
  /-- the thread at this position makes its next move -/
  | advance (index : Nat)
deriving DecidableEq

namespace Pool

/-! ## Steps -/

/-- The pool after a thread moved. -/
def moved (pool : Pool Thread World) (index : Nat)
    (result : Thread × World) : Pool Thread World :=
  { threads := pool.threads.set index result.1, world := result.2 }

section Step

variable (enter : Arrival → Thread)
variable (move : Thread → World → Thread × World)

def step (pool : Pool Thread World) :
    PoolEvent Arrival → Pool Thread World
  | .arrive arrival =>
      { pool with threads := pool.threads ++ [enter arrival] }
  | .advance index =>
      match pool.threads[index]? with
      | none => pool
      | some thread => pool.moved index (move thread pool.world)

/-- No threads yet. -/
def empty (world : World) : Pool Thread World :=
  { threads := [], world := world }

@[simp]
theorem step_arrive (pool : Pool Thread World) (arrival : Arrival) :
    pool.step enter move (.arrive arrival) =
      { pool with threads := pool.threads ++ [enter arrival] } :=
  rfl

theorem step_advance_of_none
    {pool : Pool Thread World} {index : Nat}
    (absent : pool.threads[index]? = none) :
    pool.step enter move (.advance index) = pool := by
  simp only [step, absent]

theorem step_advance_of_some
    {pool : Pool Thread World} {index : Nat} {thread : Thread}
    (present : pool.threads[index]? = some thread) :
    pool.step enter move (.advance index) =
      pool.moved index (move thread pool.world) := by
  simp only [step, present]

/-- An invariant of a pool, by what arrivals and moves do to it. -/
theorem step_invariant
    {enter : Arrival → Thread}
    {move : Thread → World → Thread × World}
    (invariant : Pool Thread World → Prop) {pool : Pool Thread World}
    (initial : invariant pool) (event : PoolEvent Arrival)
    (arrives :
      ∀ arrival, event = .arrive arrival →
        invariant
          { pool with threads := pool.threads ++ [enter arrival] })
    (moves :
      ∀ index thread, event = .advance index →
        pool.threads[index]? = some thread →
          invariant (pool.moved index (move thread pool.world))) :
    invariant (pool.step enter move event) := by
  cases event with
  | arrive arrival => exact arrives arrival rfl
  | advance index =>
      cases present : pool.threads[index]? with
      | none =>
          rw [step_advance_of_none enter move present]
          exact initial
      | some thread =>
          rw [step_advance_of_some enter move present]
          exact moves index thread rfl present

end Step

/-! ## The threads after a move -/

theorem getElem?_moved_self
    {pool : Pool Thread World} {index : Nat} {thread : Thread}
    (present : pool.threads[index]? = some thread)
    (result : Thread × World) :
    (pool.moved index result).threads[index]? = some result.1 := by
  rcases List.getElem?_eq_some_iff.mp present with ⟨inside, -⟩
  exact List.getElem?_set_self inside

theorem getElem?_moved_of_ne
    (pool : Pool Thread World) {index other : Nat}
    (different : other ≠ index) (result : Thread × World) :
    (pool.moved index result).threads[other]? = pool.threads[other]? :=
  List.getElem?_set_ne different.symm

/-- After a move, a thread is the one that moved or an old one elsewhere. -/
theorem getElem?_moved_cases
    {pool : Pool Thread World} {index other : Nat} {thread : Thread}
    {result : Thread × World}
    (present : (pool.moved index result).threads[other]? = some thread) :
    other = index ∧ thread = result.1 ∨
      other ≠ index ∧ pool.threads[other]? = some thread := by
  by_cases same : other = index
  · subst same
    left
    refine ⟨rfl, ?_⟩
    rcases List.getElem?_eq_some_iff.mp present with ⟨inside, value⟩
    simp only [moved, List.getElem_set_self] at value
    exact value.symm
  · right
    rw [getElem?_moved_of_ne pool same] at present
    exact ⟨same, present⟩

theorem getElem?_arrived_cases
    {threads : List Thread} {new thread : Thread} {index : Nat}
    (present : (threads ++ [new])[index]? = some thread) :
    index = threads.length ∧ thread = new ∨
      threads[index]? = some thread := by
  rcases Nat.lt_trichotomy index threads.length with
    before | same | beyond
  · right
    rwa [List.getElem?_append_left before] at present
  · left
    subst same
    rw [List.getElem?_concat_length] at present
    exact ⟨rfl, (Option.some.inj present).symm⟩
  · rw [List.getElem?_eq_none (by simp; omega)] at present
    cases present

theorem getElem?_arrived_of_some
    {threads : List Thread} {new thread : Thread} {index : Nat}
    (present : threads[index]? = some thread) :
    (threads ++ [new])[index]? = some thread := by
  rcases List.getElem?_eq_some_iff.mp present with ⟨inside, -⟩
  rw [List.getElem?_append_left inside]
  exact present

/-- A thread that no event advances stays as it is. -/
theorem getElem?_run_of_waiting
    {enter : Arrival → Thread}
    {move : Thread → World → Thread × World}
    {pool : Pool Thread World} {index : Nat} {thread : Thread}
    (present : pool.threads[index]? = some thread)
    {events : List (PoolEvent Arrival)}
    (waits : ∀ event ∈ events, event ≠ .advance index) :
    (Transition.run (step enter move) pool events).threads[index]? =
      some thread := by
  induction events generalizing pool with
  | nil => exact present
  | cons event rest induction =>
      rw [Transition.run_cons]
      refine induction ?_ fun other member =>
        waits other (List.mem_cons_of_mem event member)
      apply step_invariant
        (fun pool : Pool Thread World =>
          pool.threads[index]? = some thread) present
      · intro arrival _
        exact getElem?_arrived_of_some present
      · intro other mover isEvent _
        have different : index ≠ other := by
          rintro rfl
          exact waits event List.mem_cons_self isEvent
        exact (getElem?_moved_of_ne pool different _).trans present

/-! ## Threads of a kind -/

/-- Every thread is of the kind. -/
def All (pool : Pool Thread World) (kind : Thread → Prop) : Prop :=
  ∀ (index : Nat) (thread : Thread),
    pool.threads[index]? = some thread → kind thread

theorem all_empty (world : World) (kind : Thread → Prop) :
    (Pool.empty world).All kind := by
  intro index thread present
  simp [empty] at present

theorem All.step
    {enter : Arrival → Thread}
    {move : Thread → World → Thread × World}
    {kind : Thread → Prop} {pool : Pool Thread World}
    (all : pool.All kind) (event : PoolEvent Arrival)
    (arrives :
      ∀ arrival, event = .arrive arrival → kind (enter arrival))
    (moves : ∀ thread, kind thread → kind (move thread pool.world).1) :
    (pool.step enter move event).All kind := by
  apply step_invariant (fun pool : Pool Thread World => pool.All kind) all
  · intro arrival isArrival index thread present
    rcases getElem?_arrived_cases present with ⟨-, rfl⟩ | old
    · exact arrives arrival isArrival
    · exact all index thread old
  · intro index thread _ there other later present
    rcases getElem?_moved_cases present with ⟨-, rfl⟩ | ⟨-, old⟩
    · exact moves thread (all index thread there)
    · exact all other later old

/-- No thread but this one is of the kind. -/
def NoOther (pool : Pool Thread World) (index : Nat)
    (kind : Thread → Prop) : Prop :=
  ∀ (other : Nat) (thread : Thread), other ≠ index →
    pool.threads[other]? = some thread → ¬ kind thread

/-- At most one thread is of the kind. -/
def AtMostOne (pool : Pool Thread World) (kind : Thread → Prop) : Prop :=
  ∀ (index : Nat) (thread : Thread),
    pool.threads[index]? = some thread → kind thread →
      pool.NoOther index kind

/-- Only the positions of the pool matter. -/
theorem forall_thread_iff
    {pool : Pool Thread World} {condition : Nat → Thread → Prop} :
    (∀ (index : Nat) (thread : Thread),
        pool.threads[index]? = some thread → condition index thread) ↔
      ∀ index < pool.threads.length,
        ∀ thread ∈ pool.threads[index]?, condition index thread := by
  constructor
  · intro all index _ thread present
    exact all index thread present
  · intro all index thread present
    rcases List.getElem?_eq_some_iff.mp present with ⟨inside, -⟩
    exact all index inside thread present

section Kind

variable {kind : Thread → Prop}

instance [DecidablePred kind] (pool : Pool Thread World) :
    Decidable (pool.All kind) :=
  decidable_of_iff _ forall_thread_iff.symm

instance [DecidablePred kind] (pool : Pool Thread World) (index : Nat) :
    Decidable (pool.NoOther index kind) :=
  decidable_of_iff
    (∀ other < pool.threads.length, ∀ thread ∈ pool.threads[other]?,
      other ≠ index → ¬ kind thread)
    (forall_thread_iff.symm.trans
      ⟨fun all other thread different present =>
          all other thread present different,
        fun none other thread present different =>
          none other thread different present⟩)

instance [DecidablePred kind] (pool : Pool Thread World) :
    Decidable (pool.AtMostOne kind) :=
  decidable_of_iff
    (∀ index < pool.threads.length, ∀ thread ∈ pool.threads[index]?,
      kind thread → pool.NoOther index kind)
    forall_thread_iff.symm

theorem AtMostOne.arrived
    {pool : Pool Thread World} (atMostOne : pool.AtMostOne kind)
    {new : Thread} (other : ¬ kind new) :
    AtMostOne { pool with threads := pool.threads ++ [new] } kind := by
  intro first thread present isKind second another different there both
  rcases getElem?_arrived_cases present with ⟨-, rfl⟩ | old
  · exact other isKind
  · rcases getElem?_arrived_cases there with ⟨-, rfl⟩ | oldOther
    · exact other both
    · exact atMostOne first thread old isKind second another different
        oldOther both

/-- A thread that is alone can become of the kind. -/
theorem AtMostOne.of_noOther
    {pool : Pool Thread World} {index : Nat}
    (nobody : pool.NoOther index kind) (result : Thread × World) :
    AtMostOne (pool.moved index result) kind := by
  intro first thread present isKind second another different there both
  rcases getElem?_moved_cases present with ⟨rfl, -⟩ | ⟨notFirst, old⟩
  · rw [getElem?_moved_of_ne pool different] at there
    exact nobody second another different there both
  · exact nobody first thread notFirst old isKind

theorem AtMostOne.moved
    {pool : Pool Thread World} (atMostOne : pool.AtMostOne kind)
    {index : Nat} {result : Thread × World}
    (here : kind result.1 → pool.NoOther index kind) :
    AtMostOne (pool.moved index result) kind := by
  intro first thread present isKind second another different there both
  rcases getElem?_moved_cases present with ⟨rfl, rfl⟩ | ⟨-, old⟩
  · rw [getElem?_moved_of_ne pool different] at there
    exact here isKind second another different there both
  · rcases getElem?_moved_cases there with ⟨rfl, rfl⟩ | ⟨-, oldOther⟩
    · exact here both first thread different.symm old isKind
    · exact atMostOne first thread old isKind second another different
        oldOther both

end Kind

/-! ## Two descriptions of the same threads -/

/-- Replace each thread by what it stands for. -/
def map (code : Thread → Code) (pool : Pool Thread World) :
    Pool Code World :=
  { threads := pool.threads.map code, world := pool.world }

section Map

variable {code : Thread → Code}
variable {enter : Arrival → Thread} {enterCode : Arrival → Code}
variable {move : Thread → World → Thread × World}
variable {moveCode : Code → World → Code × World}

/-- A step of the descriptions is a step of the code. -/
theorem step_map
    (enters : ∀ arrival, enterCode arrival = code (enter arrival))
    (moves :
      ∀ thread world,
        moveCode (code thread) world =
          (code (move thread world).1, (move thread world).2))
    (pool : Pool Thread World) (event : PoolEvent Arrival) :
    (pool.map code).step enterCode moveCode event =
      (pool.step enter move event).map code := by
  cases event with
  | arrive arrival =>
      simp only [step_arrive, map, List.map_append, List.map_cons,
        List.map_nil, enters]
  | advance index =>
      cases present : pool.threads[index]? with
      | none =>
          have absent : (pool.map code).threads[index]? = none := by
            simp [map, present]
          rw [step_advance_of_none enterCode moveCode absent,
            step_advance_of_none enter move present]
      | some thread =>
          have there :
              (pool.map code).threads[index]? = some (code thread) := by
            simp [map, present]
          rw [step_advance_of_some enterCode moveCode there,
            step_advance_of_some enter move present]
          have sameWorld : (pool.map code).world = pool.world := rfl
          rw [sameWorld, moves]
          simp only [moved, map, List.map_set]

theorem run_map
    (enters : ∀ arrival, enterCode arrival = code (enter arrival))
    (moves :
      ∀ thread world,
        moveCode (code thread) world =
          (code (move thread world).1, (move thread world).2))
    (pool : Pool Thread World) (events : List (PoolEvent Arrival)) :
    Transition.run (step enterCode moveCode) (pool.map code) events =
      (Transition.run (step enter move) pool events).map code := by
  induction events generalizing pool with
  | nil => rfl
  | cons event rest induction =>
      rw [Transition.run_cons, step_map enters moves, induction]
      rfl

/-- A condition on a run of the code, read on the descriptions. -/
theorem along_map
    (enters : ∀ arrival, enterCode arrival = code (enter arrival))
    (moves :
      ∀ thread world,
        moveCode (code thread) world =
          (code (move thread world).1, (move thread world).2))
    {condition : Pool Code World → PoolEvent Arrival → Prop}
    {pool : Pool Thread World} {events : List (PoolEvent Arrival)}
    (guarded :
      Transition.Along (step enterCode moveCode) condition
        (pool.map code) events) :
    Transition.Along (step enter move)
      (fun pool event => condition (pool.map code) event) pool
        events := by
  induction events generalizing pool with
  | nil => trivial
  | cons event rest induction =>
      rcases guarded with ⟨here, later⟩
      rw [step_map enters moves] at later
      exact ⟨here, induction later⟩

/-- What a run of the code gives out, read on the descriptions. -/
theorem outputs_map
    {Output : Type}
    (enters : ∀ arrival, enterCode arrival = code (enter arrival))
    (moves :
      ∀ thread world,
        moveCode (code thread) world =
          (code (move thread world).1, (move thread world).2))
    (emit : Pool Code World → PoolEvent Arrival → List Output)
    (pool : Pool Thread World) (events : List (PoolEvent Arrival)) :
    Transition.outputs (step enterCode moveCode) emit (pool.map code)
        events =
      Transition.outputs (step enter move)
        (fun pool event => emit (pool.map code) event) pool events := by
  induction events generalizing pool with
  | nil => rfl
  | cons event rest induction =>
      rw [Transition.outputs_cons, Transition.outputs_cons,
        step_map enters moves, induction]

end Map

end Pool

/-! ## Programs as threads -/

namespace Program

variable {Request : Type} {Reply : Request → Type} {Failure Value : Type}

/-- A program moves by making its next call. -/
def move (handler : (request : Request) → World → Reply request × World) :
    Program Reply Failure Value → World →
      Program Reply Failure Value × World
  | .call request next, world =>
      (next (handler request world).1, (handler request world).2)
  | program, world => (program, world)

/-- The call that a program makes next. -/
def nextCall : Program Reply Failure Value → Option Request
  | .call request _ => some request
  | _ => none

/-- What a program that has returned gave. -/
def value? : Program Reply Failure Value → Option Value
  | .ret value => some value
  | _ => none

end Program

namespace Pool

variable {Request : Type} {Reply : Request → Type} {Failure Value : Type}

/-- The call that the thread at this position makes next. -/
def nextCall?
    (pool : Pool (Program Reply Failure Value) World) (index : Nat) :
    Option Request :=
  pool.threads[index]?.bind Program.nextCall

theorem nextCall?_map
    {code : Thread → Program Reply Failure Value}
    {pool : Pool Thread World} {index : Nat} {thread : Thread}
    (present : pool.threads[index]? = some thread) :
    (pool.map code).nextCall? index = (code thread).nextCall := by
  simp [nextCall?, map, present]

/-- The call that an event makes, with the position of its thread. -/
def callMade {Arrival : Type}
    (pool : Pool (Program Reply Failure Value) World) :
    PoolEvent Arrival → List (Nat × Request)
  | .arrive _ => []
  | .advance index =>
      (pool.nextCall? index).toList.map fun request => (index, request)

/-- What the thread at this position has returned. -/
def value?
    (pool : Pool (Program Reply Failure Value) World) (index : Nat) :
    Option Value :=
  pool.threads[index]?.bind Program.value?

/-- No other thread makes a call of this kind next. -/
def NobodyElse
    (pool : Pool (Program Reply Failure Value) World) (index : Nat)
    (kind : Request → Bool) : Prop :=
  ∀ other < pool.threads.length, other ≠ index →
    ∀ request ∈ pool.nextCall? other, kind request = false

instance
    (pool : Pool (Program Reply Failure Value) World) (index : Nat)
    (kind : Request → Bool) : Decidable (pool.NobodyElse index kind) :=
  inferInstanceAs (Decidable (∀ other < pool.threads.length, _))

/-- The same, on descriptions of the threads. -/
theorem NobodyElse.of_map
    {code : Thread → Program Reply Failure Value}
    {pool : Pool Thread World} {index : Nat} {kind : Request → Bool}
    (nobody : (pool.map code).NobodyElse index kind)
    {other : Nat} (different : other ≠ index) {thread : Thread}
    (present : pool.threads[other]? = some thread)
    {request : Request} (next : (code thread).nextCall = some request) :
    kind request = false := by
  rcases List.getElem?_eq_some_iff.mp present with ⟨inside, -⟩
  apply nobody other _ different request
  · rw [nextCall?_map present]
    exact next
  · simpa [map] using inside

end Pool

end LightningServer.Foundation
