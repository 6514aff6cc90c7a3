import LightningServer.Foundation.Tally

/-!
# What programs promise under rulings

`Ensures` keeps one invariant of the world.  Here the invariant may loosen as
the world grows older, one age at each event, and every call gets the outcome
that a ruling of the environment picks.  A program `Promises` a postcondition
when each of its calls keeps the invariant, under every ruling and up to a
limit of the age, and when it can only end as the postcondition says.

In a pool the promises of the threads hold together: in every interleaving
that is not longer than the limit, the invariant holds at the age of the run,
and each thread that has ended keeps the promise of what has arrived there.
-/

namespace LightningServer.Foundation

variable {Request : Type} {Reply : Request → Type}
variable {Failure Value Result Arrival Ruling Change World : Type}

namespace Program

/-! ## Calls up to a limit -/

section Promises

variable (handler : Ruling → (request : Request) → World →
  Reply request × World)
variable (invariant : Nat → World → Prop) (limit : Nat)

/-- Each call keeps the invariant, and the outcome satisfies `post`. -/
def Promises (post : Except Failure Value → Prop) :
    Program Reply Failure Value → Prop
  | .ret value => post (.ok value)
  | .throw failure => post (.error failure)
  | .call request next =>
      ∀ ruling age world, age < limit → invariant age world →
        invariant (age + 1) (handler ruling request world).2 ∧
          (next (handler ruling request world).1).Promises post

variable {handler invariant limit}

@[simp]
theorem promises_ofExcept_iff
    {post : Except Failure Value → Prop}
    (result : Except Failure Value) :
    (ofExcept result : Program Reply Failure Value).Promises
        handler invariant limit post ↔ post result := by
  cases result with
  | ok value => rfl
  | error failure => rfl

theorem promises_perform_bind
    {request : Request}
    {next : Reply request → Program Reply Failure Result}
    {post : Except Failure Result → Prop}
    (each :
      ∀ ruling age world, age < limit → invariant age world →
        invariant (age + 1) (handler ruling request world).2 ∧
          (next (handler ruling request world).1).Promises
            handler invariant limit post) :
    (perform request >>= next).Promises handler invariant limit post :=
  each

/-- A composed program goes on from the promise of its first part. -/
theorem promises_bind
    {program : Program Reply Failure Value}
    {next : Value → Program Reply Failure Result}
    {middle : Except Failure Value → Prop}
    {post : Except Failure Result → Prop}
    (first : program.Promises handler invariant limit middle)
    (throws : ∀ failure, middle (.error failure) → post (.error failure))
    (rest :
      ∀ value, middle (.ok value) →
        (next value).Promises handler invariant limit post) :
    (program >>= next).Promises handler invariant limit post := by
  induction program with
  | ret value => exact rest value first
  | throw failure => exact throws failure first
  | call request after induction =>
      intro ruling age world young holds
      rcases first ruling age world young holds with ⟨kept, later⟩
      exact ⟨kept, induction _ later⟩

/-- A `catch` starts from the promise of what it guards. -/
theorem promises_catching
    {recover : Failure → Program Reply Failure Value}
    {program : Program Reply Failure Value}
    {inner post : Except Failure Value → Prop}
    (guarded : program.Promises handler invariant limit inner)
    (returns : ∀ value, inner (.ok value) → post (.ok value))
    (handles :
      ∀ failure, inner (.error failure) →
        (recover failure).Promises handler invariant limit post) :
    (program.catching recover).Promises handler invariant limit post := by
  induction program with
  | ret value => exact returns value guarded
  | throw failure => exact handles failure guarded
  | call request after induction =>
      intro ruling age world young holds
      rcases guarded ruling age world young holds with ⟨kept, later⟩
      exact ⟨kept, induction _ later⟩

/-- A move keeps the promise, and the invariant at the next age. -/
theorem Promises.move
    {program : Program Reply Failure Value}
    {post : Except Failure Value → Prop}
    (promises : program.Promises handler invariant limit post)
    (older :
      ∀ age world, invariant age world → invariant (age + 1) world)
    (ruling : Ruling) {age : Nat} {world : World} (young : age < limit)
    (holds : invariant age world) :
    invariant (age + 1) (program.move (handler ruling) world).2 ∧
      (program.move (handler ruling) world).1.Promises
        handler invariant limit post := by
  cases program with
  | ret value => exact ⟨older age world holds, promises⟩
  | throw failure => exact ⟨older age world holds, promises⟩
  | call request next => exact promises ruling age world young holds

theorem Promises.ends
    {program : Program Reply Failure Value}
    {post : Except Failure Value → Prop}
    (promises : program.Promises handler invariant limit post)
    {outcome : Except Failure Value}
    (ended : program.outcome? = some outcome) :
    post outcome := by
  cases program with
  | ret value =>
      cases ended
      exact promises
  | throw failure =>
      cases ended
      exact promises
  | call request next => cases ended

end Promises

end Program

/-! ## The promises of a pool -/

section Pool

variable (handler : Ruling → (request : Request) → World →
  Reply request × World)
variable (invariant : Nat → World → Prop) (limit : Nat)
variable (post : Arrival → Except Failure Value → Prop)

/-- The invariant holds, and each thread promises what is asked of it. -/
structure Promised (arrived : List Arrival) (age : Nat)
    (pool : Pool (Program Reply Failure Value) World) : Prop where
  holds : invariant age pool.world
  threads :
    List.Forall₂
      (fun arrival program =>
        program.Promises handler invariant limit (post arrival))
      arrived pool.threads

variable {handler invariant limit post}
variable {entry : Arrival → Program Reply Failure Value}
variable {apply : Change → World → World}

/-- What has arrived, and how it has ended. -/
theorem Promised.outcome
    {arrived : List Arrival} {age : Nat}
    {pool : Pool (Program Reply Failure Value) World}
    (promised :
      Promised handler invariant limit post arrived age pool)
    {index : Nat} {outcome : Except Failure Value}
    (ended : pool.outcome? index = some outcome) :
    ∃ arrival, arrived[index]? = some arrival ∧ post arrival outcome := by
  rcases Option.bind_eq_some_iff.mp ended with
    ⟨program, present, isOutcome⟩
  rcases List.getElem?_eq_some_iff.mp present with ⟨inside, rfl⟩
  have there : index < arrived.length := by
    rw [promised.threads.length_eq]
    exact inside
  exact ⟨arrived[index], List.getElem?_eq_getElem there,
    (promised.threads.get there inside).ends isOutcome⟩

section Run

variable
  (older : ∀ age world, invariant age world → invariant (age + 1) world)
variable
  (changes :
    ∀ change age world, invariant age world →
      invariant (age + 1) (apply change world))
variable
  (enters :
    ∀ arrival,
      (entry arrival).Promises handler invariant limit (post arrival))

include older changes enters

theorem Promised.step
    {arrived : List Arrival} {age : Nat}
    {pool : Pool (Program Reply Failure Value) World}
    (promised :
      Promised handler invariant limit post arrived age pool)
    (young : age < limit) (event : RuledEvent Arrival Ruling Change) :
    Promised handler invariant limit post (arrived ++ arrivals [event])
      (age + 1) (largeStep handler entry apply pool event) := by
  rcases promised with ⟨holds, threads⟩
  cases event with
  | arrive arrival =>
      exact ⟨older age pool.world holds,
        List.rel_append threads (.cons (enters arrival) .nil)⟩
  | outside change =>
      rw [show arrivals [(.outside change :
        RuledEvent Arrival Ruling Change)] = [] from rfl, List.append_nil]
      exact ⟨changes change age pool.world holds, threads⟩
  | advance index ruling =>
      rw [show arrivals [(.advance index ruling :
        RuledEvent Arrival Ruling Change)] = [] from rfl, List.append_nil]
      cases present : pool.threads[index]? with
      | none =>
          rw [largeStep_of_none present]
          exact ⟨older age pool.world holds, threads⟩
      | some program =>
          rw [largeStep_of_some present]
          rcases List.getElem?_eq_some_iff.mp present with ⟨inside, same⟩
          have known : index < arrived.length := by
            rw [threads.length_eq]
            exact inside
          have own := threads.get known inside
          simp only [List.get_eq_getElem, same] at own
          rcases own.move older ruling young holds with ⟨kept, next⟩
          have self := List.set_getElem_self known
          refine ⟨kept, ?_⟩
          rw [← self]
          exact forall₂_set threads next index

/-- Every run up to the limit keeps all promises. -/
theorem promised_run
    {world : World} (holds : invariant 0 world)
    {events : List (RuledEvent Arrival Ruling Change)}
    (few : events.length ≤ limit) :
    Promised handler invariant limit post (arrivals events) events.length
      (Transition.run (largeStep handler entry apply) (.empty world)
        events) := by
  induction events using List.reverseRecOn with
  | nil => exact ⟨holds, .nil⟩
  | append_singleton rest event induction =>
      rw [List.length_append, List.length_singleton] at few ⊢
      rw [Transition.run_append, arrivals, List.filterMap_append]
      exact (induction (by omega)).step older changes enters (by omega)
        event

end Run

end Pool

end LightningServer.Foundation
