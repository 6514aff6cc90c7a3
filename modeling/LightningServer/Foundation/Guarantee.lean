import LightningServer.Foundation.Interleaving

/-!
# Programs under interference

While a program waits for a reply, other threads and the environment change
the world.  `Ensures` says that a program keeps an invariant of the world at
each of its calls, when nothing but that invariant is known before the call,
and that it ends with an outcome satisfying a postcondition.  `Within` bounds
the number of its calls.

When every thread of a pool keeps one invariant, and the environment keeps it
too, each thread ends as its own postcondition says, in every interleaving.
-/

namespace LightningServer.Foundation

namespace Program

variable {Request : Type} {Reply : Request → Type}
variable {Failure Value Result World : Type}

/-! ## Calls under an invariant -/

section Ensures

variable (handler : (request : Request) → World → Reply request × World)
variable (invariant : World → Prop)

/-- Each call keeps the invariant, and the outcome satisfies `post`. -/
def Ensures (post : Except Failure Value → Prop) :
    Program Reply Failure Value → Prop
  | .ret value => post (.ok value)
  | .throw failure => post (.error failure)
  | .call request next =>
      ∀ world, invariant world →
        invariant (handler request world).2 ∧
          (next (handler request world).1).Ensures post

@[simp]
theorem ensures_ret_iff
    {post : Except Failure Value → Prop} (value : Value) :
    (.ret value : Program Reply Failure Value).Ensures
        handler invariant post ↔ post (.ok value) :=
  Iff.rfl

@[simp]
theorem ensures_throw_iff
    {post : Except Failure Value → Prop} (failure : Failure) :
    (.throw failure : Program Reply Failure Value).Ensures
        handler invariant post ↔ post (.error failure) :=
  Iff.rfl

@[simp]
theorem ensures_ofExcept_iff
    {post : Except Failure Value → Prop}
    (result : Except Failure Value) :
    (ofExcept result : Program Reply Failure Value).Ensures
        handler invariant post ↔ post result := by
  cases result with
  | ok value => rfl
  | error failure => rfl

variable {handler invariant}

theorem Ensures.weaken
    {program : Program Reply Failure Value}
    {post weaker : Except Failure Value → Prop}
    (ensures : program.Ensures handler invariant post)
    (implies : ∀ outcome, post outcome → weaker outcome) :
    program.Ensures handler invariant weaker := by
  induction program with
  | ret value => exact implies _ ensures
  | throw failure => exact implies _ ensures
  | call request next induction =>
      intro world holds
      rcases ensures world holds with ⟨kept, rest⟩
      exact ⟨kept, induction _ rest⟩

theorem ensures_perform_bind
    {request : Request}
    {next : Reply request → Program Reply Failure Result}
    {post : Except Failure Result → Prop}
    (each :
      ∀ world, invariant world →
        invariant (handler request world).2 ∧
          (next (handler request world).1).Ensures
            handler invariant post) :
    (perform request >>= next).Ensures handler invariant post :=
  each

theorem ensures_bind
    {program : Program Reply Failure Value}
    {next : Value → Program Reply Failure Result}
    {middle : Except Failure Value → Prop}
    {post : Except Failure Result → Prop}
    (first : program.Ensures handler invariant middle)
    (throws : ∀ failure, middle (.error failure) → post (.error failure))
    (rest :
      ∀ value, middle (.ok value) →
        (next value).Ensures handler invariant post) :
    (program >>= next).Ensures handler invariant post := by
  induction program with
  | ret value => exact rest value first
  | throw failure => exact throws failure first
  | call request after induction =>
      intro world holds
      rcases first world holds with ⟨kept, later⟩
      exact ⟨kept, induction _ later⟩

/-- Calls that keep the invariant whatever the replies are. -/
theorem ensures_of_asks
    {allowed : Request → Prop}
    {program : Program Reply Failure Value}
    (asks : program.Asks allowed)
    (preserved :
      ∀ request world, allowed request → invariant world →
        invariant (handler request world).2) :
    program.Ensures handler invariant fun _ => True := by
  induction program with
  | ret value => trivial
  | throw failure => trivial
  | call request next induction =>
      rcases asks with ⟨here, later⟩
      intro world holds
      exact ⟨preserved request world here holds, induction _ (later _)⟩

/-- Alone, the program ends with its outcome and the invariant. -/
theorem Ensures.run
    {program : Program Reply Failure Value}
    {post : Except Failure Value → Prop}
    (ensures : program.Ensures handler invariant post)
    {world : World} (holds : invariant world) :
    invariant (program.run handler world).2 ∧
      post (program.run handler world).1 := by
  induction program generalizing world with
  | ret value => exact ⟨holds, ensures⟩
  | throw failure => exact ⟨holds, ensures⟩
  | call request next induction =>
      rcases ensures world holds with ⟨kept, rest⟩
      exact induction _ rest kept

theorem Ensures.move
    {program : Program Reply Failure Value}
    {post : Except Failure Value → Prop}
    (ensures : program.Ensures handler invariant post)
    {world : World} (holds : invariant world) :
    invariant (program.move handler world).2 ∧
      (program.move handler world).1.Ensures handler invariant post := by
  cases program with
  | ret value => exact ⟨holds, ensures⟩
  | throw failure => exact ⟨holds, ensures⟩
  | call request next => exact ensures world holds

end Ensures

/-! ## How many calls -/

/-- At most so many calls, whatever the replies are. -/
def Within : Program Reply Failure Value → Nat → Prop
  | .ret _, _ => True
  | .throw _, _ => True
  | .call _ _, 0 => False
  | .call _ next, count + 1 => ∀ reply, (next reply).Within count

theorem within_ofExcept
    (result : Except Failure Value) (count : Nat) :
    (ofExcept result : Program Reply Failure Value).Within count := by
  cases result with
  | ok value => trivial
  | error failure => trivial

theorem Within.move
    {program : Program Reply Failure Value} {count : Nat}
    (within : program.Within count)
    (handler : (request : Request) → World → Reply request × World)
    (world : World) :
    (program.move handler world).1.Within (count - 1) := by
  cases program with
  | ret value => trivial
  | throw failure => trivial
  | call request next =>
      cases count with
      | zero => exact within.elim
      | succ count => exact within _

end Program

/-! ## Pools with an environment -/

/-- What happens to a pool from the inside, and to its world from outside. -/
inductive OpenEvent (Arrival Change : Type) where
  | inside (event : PoolEvent Arrival)
  | outside (change : Change)

/-- The thread at this position makes a move. -/
def OpenEvent.moves {Arrival Change : Type} (index : Nat) :
    OpenEvent Arrival Change → Bool
  | .inside (.advance other) => other = index
  | _ => false

namespace Pool

variable {Request : Type} {Reply : Request → Type}
variable {Failure Value World Arrival Change : Type}
variable (handler : (request : Request) → World → Reply request × World)
variable (code : Arrival → Program Reply Failure Value)
variable (apply : Change → World → World)

/-- A step of the threads, or a change of their world. -/
def openStep (pool : Pool (Program Reply Failure Value) World) :
    OpenEvent Arrival Change → Pool (Program Reply Failure Value) World
  | .inside event => pool.step code (Program.move handler) event
  | .outside change => { pool with world := apply change pool.world }

variable {handler code apply}
variable {invariant : World → Prop}

/-- The invariant holds, and every thread keeps it. -/
def Safe (handler : (request : Request) → World → Reply request × World)
    (invariant : World → Prop)
    (pool : Pool (Program Reply Failure Value) World) : Prop :=
  invariant pool.world ∧
    pool.All fun program =>
      program.Ensures handler invariant fun _ => True

section Rely

variable
  (arrivals :
    ∀ arrival,
      (code arrival).Ensures handler invariant fun _ => True)
  (rely :
    ∀ change world, invariant world → invariant (apply change world))

include arrivals rely

theorem Safe.openStep
    {pool : Pool (Program Reply Failure Value) World}
    (safe : pool.Safe handler invariant)
    (event : OpenEvent Arrival Change) :
    (pool.openStep handler code apply event).Safe handler invariant := by
  rcases safe with ⟨holds, all⟩
  cases event with
  | outside change => exact ⟨rely change pool.world holds, all⟩
  | inside event =>
      constructor
      · apply step_invariant
          (fun pool : Pool (Program Reply Failure Value) World =>
            invariant pool.world) holds
        · intro arrival _
          exact holds
        · intro index program _ present
          exact ((all index program present).move holds).1
      · apply all.step event
        · intro arrival _
          exact arrivals arrival
        · intro program ensures
          exact (ensures.move holds).2

theorem Safe.run
    {pool : Pool (Program Reply Failure Value) World}
    (safe : pool.Safe handler invariant)
    (events : List (OpenEvent Arrival Change)) :
    (Transition.run (Pool.openStep handler code apply) pool
      events).Safe handler invariant :=
  Transition.run_invariant
    (fun pool : Pool (Program Reply Failure Value) World =>
      pool.Safe handler invariant)
    (fun _ event safe => safe.openStep arrivals rely event) events safe

/-- What one thread still ensures, and in how many calls, after a run. -/
theorem Safe.run_thread
    {pool : Pool (Program Reply Failure Value) World}
    (safe : pool.Safe handler invariant)
    {index : Nat} {program : Program Reply Failure Value}
    (present : pool.threads[index]? = some program)
    {post : Except Failure Value → Prop}
    (ensures : program.Ensures handler invariant post)
    {count : Nat} (within : program.Within count)
    (events : List (OpenEvent Arrival Change)) :
    ∃ later,
      (Transition.run (Pool.openStep handler code apply) pool
          events).threads[index]? = some later ∧
        later.Ensures handler invariant post ∧
        later.Within
          (count - (events.filter (OpenEvent.moves index)).length) := by
  induction events generalizing pool program count with
  | nil => exact ⟨program, present, ensures, within⟩
  | cons event rest induction =>
      have next := safe.openStep arrivals rely event
      cases event with
      | outside change => exact induction next present ensures within
      | inside event =>
          cases event with
          | arrive arrival =>
              exact induction next (getElem?_arrived_of_some present)
                ensures within
          | advance other =>
              by_cases same : other = index
              · subst same
                have stepped :
                    (pool.openStep handler code apply
                        (.inside (.advance other))).threads[other]? =
                      some (program.move handler pool.world).1 := by
                  rw [Pool.openStep, step_advance_of_some _ _ present]
                  exact getElem?_moved_self present _
                rcases induction next stepped
                    (ensures.move safe.1).2
                    (within.move handler pool.world) with
                  ⟨later, there, result, fewer⟩
                refine ⟨later, there, result, ?_⟩
                rw [List.filter_cons_of_pos (by simp [OpenEvent.moves]),
                  List.length_cons, Nat.add_comm, ← Nat.sub_sub]
                exact fewer
              · have still :
                    (pool.openStep handler code apply
                        (.inside (.advance other))).threads[index]? =
                      some program := by
                  rw [Pool.openStep, ← present]
                  cases there : pool.threads[other]? with
                  | none => rw [step_advance_of_none _ _ there]
                  | some thread =>
                      rw [step_advance_of_some _ _ there]
                      exact getElem?_moved_of_ne pool
                        (fun equal => same equal.symm) _
                rw [List.filter_cons_of_neg
                  (by simpa [OpenEvent.moves] using same)]
                exact induction next still ensures within

end Rely

end Pool

end LightningServer.Foundation
