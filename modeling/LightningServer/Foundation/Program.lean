import Mathlib.Data.List.Basic

/-!
# Programs that call services

A `Program` is the code of one request handler: it returns, throws, or makes
one call and goes on with the reply.  What the calls do is not part of it.
`run` executes a program alone, against a handler that gives every call its
reply and its effect; the interleaved execution of several programs is in
`LightningServer.Foundation.Interleaving`.

`Asks` bounds the calls that a program can make, whatever the replies are.
Frame properties follow from it by `run_invariant`: a program keeps what each
of its calls keeps.
-/

namespace LightningServer.Foundation

/-- A program over calls `Request`, each with its own type of reply. -/
inductive Program {Request : Type} (Reply : Request → Type)
    (Failure Value : Type) where
  | ret (value : Value)
  | throw (failure : Failure)
  | call (request : Request)
      (next : Reply request → Program Reply Failure Value)

namespace Program

variable {Request : Type} {Reply : Request → Type}
variable {Failure Value Result World : Type}

/-! ## Composition -/

/-- Go on with the value of a program. -/
def bind (program : Program Reply Failure Value)
    (next : Value → Program Reply Failure Result) :
    Program Reply Failure Result :=
  match program with
  | .ret value => next value
  | .throw failure => .throw failure
  | .call request rest => .call request fun reply => (rest reply).bind next

instance : Monad (Program Reply Failure) where
  pure := .ret
  bind := bind

@[simp]
theorem pure_eq (value : Value) :
    (pure value : Program Reply Failure Value) = .ret value :=
  rfl

@[simp]
theorem ret_bind
    (value : Value) (next : Value → Program Reply Failure Result) :
    (.ret value : Program Reply Failure Value) >>= next = next value :=
  rfl

@[simp]
theorem throw_bind
    (failure : Failure) (next : Value → Program Reply Failure Result) :
    (.throw failure : Program Reply Failure Value) >>= next =
      .throw failure :=
  rfl

@[simp]
theorem call_bind
    (request : Request) (rest : Reply request → Program Reply Failure Value)
    (next : Value → Program Reply Failure Result) :
    (.call request rest : Program Reply Failure Value) >>= next =
      .call request fun reply => rest reply >>= next :=
  rfl

/-- A composed program can be read from either end. -/
theorem assoc
    {Final : Type} (program : Program Reply Failure Value)
    (next : Value → Program Reply Failure Result)
    (last : Result → Program Reply Failure Final) :
    (program >>= next) >>= last =
      program >>= fun value => next value >>= last := by
  induction program with
  | ret value => rfl
  | throw failure => rfl
  | call request rest induction =>
      rw [call_bind, call_bind, call_bind]
      congr 1
      ext reply
      exact induction reply

/-- One call, whose reply is the value. -/
def perform (request : Request) :
    Program Reply Failure (Reply request) :=
  .call request .ret

@[simp]
theorem perform_bind
    (request : Request)
    (next : Reply request → Program Reply Failure Result) :
    perform request >>= next = .call request next :=
  rfl

/-- A computation without calls that may throw. -/
def ofExcept : Except Failure Value → Program Reply Failure Value
  | .ok value => .ret value
  | .error failure => .throw failure

@[simp]
theorem ofExcept_ok (value : Value) :
    (ofExcept (.ok value) : Program Reply Failure Value) = .ret value :=
  rfl

@[simp]
theorem ofExcept_error (failure : Failure) :
    (ofExcept (.error failure) : Program Reply Failure Value) =
      .throw failure :=
  rfl

/-- `try … catch`: the calls made before an exception remain made. -/
def catching (recover : Failure → Program Reply Failure Value) :
    Program Reply Failure Value → Program Reply Failure Value
  | .ret value => .ret value
  | .throw failure => recover failure
  | .call request next =>
      .call request fun reply => (next reply).catching recover

/-! ## Execution of one program -/

/-- Execute a program alone; what it did before a throw remains done. -/
def run (handler : (request : Request) → World → Reply request × World) :
    Program Reply Failure Value → World → Except Failure Value × World
  | .ret value, world => (.ok value, world)
  | .throw failure, world => (.error failure, world)
  | .call request next, world =>
      (next (handler request world).1).run handler
        (handler request world).2

section Run

variable (handler : (request : Request) → World → Reply request × World)

@[simp]
theorem run_ret (value : Value) (world : World) :
    (.ret value : Program Reply Failure Value).run handler world =
      (.ok value, world) :=
  rfl

@[simp]
theorem run_throw (failure : Failure) (world : World) :
    (.throw failure : Program Reply Failure Value).run handler world =
      (.error failure, world) :=
  rfl

@[simp]
theorem run_call
    (request : Request) (next : Reply request → Program Reply Failure Value)
    (world : World) :
    (.call request next : Program Reply Failure Value).run handler world =
      (next (handler request world).1).run handler
        (handler request world).2 :=
  rfl

/-- A composed program runs its parts one after the other. -/
theorem run_bind
    (program : Program Reply Failure Value)
    (next : Value → Program Reply Failure Result) (world : World) :
    (program >>= next).run handler world =
      match program.run handler world with
      | (.ok value, later) => (next value).run handler later
      | (.error failure, later) => (.error failure, later) := by
  induction program generalizing world with
  | ret value => rfl
  | throw failure => rfl
  | call request rest induction =>
      rw [call_bind, run_call, run_call]
      exact induction _ _

/-- What is done last without a call leaves the world as it is. -/
theorem world_run_bind
    {next : Value → Program Reply Failure Result}
    (silent :
      ∀ value world, ((next value).run handler world).2 = world)
    (program : Program Reply Failure Value) (world : World) :
    ((program >>= next).run handler world).2 =
      (program.run handler world).2 := by
  induction program generalizing world with
  | ret value => exact silent value world
  | throw failure => rfl
  | call request rest induction => exact induction _ _

theorem world_run_catching
    {recover : Failure → Program Reply Failure Value}
    (silent :
      ∀ failure world, ((recover failure).run handler world).2 = world)
    (program : Program Reply Failure Value) (world : World) :
    ((program.catching recover).run handler world).2 =
      (program.run handler world).2 := by
  induction program generalizing world with
  | ret value => rfl
  | throw failure => exact silent failure world
  | call request rest induction => exact induction _ _

@[simp]
theorem world_run_ofExcept
    (result : Except Failure Value) (world : World) :
    ((ofExcept result : Program Reply Failure Value).run
      handler world).2 = world := by
  cases result with
  | ok value => rfl
  | error failure => rfl

/-- A program that returns is not changed by a `catch` around it. -/
theorem run_catching_of_returns
    {recover : Failure → Program Reply Failure Value}
    {program : Program Reply Failure Value} {value : Value}
    {world later : World}
    (returns : program.run handler world = (.ok value, later)) :
    (program.catching recover).run handler world = (.ok value, later) := by
  induction program generalizing world with
  | ret value => exact returns
  | throw failure => cases congrArg Prod.fst returns
  | call request rest induction => exact induction _ returns

/-- A handler that carries more than another gives the same replies. -/
theorem run_projection
    {Larger : Type}
    {larger : (request : Request) → Larger → Reply request × Larger}
    {projection : Larger → World}
    (agrees :
      ∀ request state,
        (larger request state).1 =
            (handler request (projection state)).1 ∧
          projection (larger request state).2 =
            (handler request (projection state)).2)
    (program : Program Reply Failure Value) (state : Larger) :
    (program.run larger state).1 =
        (program.run handler (projection state)).1 ∧
      projection (program.run larger state).2 =
        (program.run handler (projection state)).2 := by
  induction program generalizing state with
  | ret value => exact ⟨rfl, rfl⟩
  | throw failure => exact ⟨rfl, rfl⟩
  | call request rest induction =>
      rcases agrees request state with ⟨sameReply, sameWorld⟩
      rw [run_call, run_call, sameReply, ← sameWorld]
      exact induction _ _

end Run

/-! ## The calls a program can make -/

/-- Every call the program can make, after any replies, is allowed. -/
def Asks (allowed : Request → Prop) :
    Program Reply Failure Value → Prop
  | .ret _ => True
  | .throw _ => True
  | .call request next =>
      allowed request ∧ ∀ reply, (next reply).Asks allowed

section Asks

variable {allowed : Request → Prop}

@[simp]
theorem asks_ret (value : Value) :
    (.ret value : Program Reply Failure Value).Asks allowed :=
  trivial

@[simp]
theorem asks_throw (failure : Failure) :
    (.throw failure : Program Reply Failure Value).Asks allowed :=
  trivial

@[simp]
theorem asks_call_iff
    (request : Request)
    (next : Reply request → Program Reply Failure Value) :
    (.call request next : Program Reply Failure Value).Asks allowed ↔
      allowed request ∧ ∀ reply, (next reply).Asks allowed :=
  Iff.rfl

@[simp]
theorem asks_ofExcept (result : Except Failure Value) :
    (ofExcept result : Program Reply Failure Value).Asks allowed := by
  cases result with
  | ok value => trivial
  | error failure => trivial

theorem Asks.weaken
    {program : Program Reply Failure Value}
    {weaker : Request → Prop} (asks : program.Asks allowed)
    (implies : ∀ request, allowed request → weaker request) :
    program.Asks weaker := by
  induction program with
  | ret value => trivial
  | throw failure => trivial
  | call request next induction =>
      rcases asks with ⟨here, later⟩
      exact ⟨implies request here,
        fun reply => induction reply (later reply)⟩

theorem asks_bind
    {program : Program Reply Failure Value}
    {next : Value → Program Reply Failure Result}
    (first : program.Asks allowed)
    (second : ∀ value, (next value).Asks allowed) :
    (program >>= next).Asks allowed := by
  induction program with
  | ret value => exact second value
  | throw failure => trivial
  | call request rest induction =>
      rcases first with ⟨here, later⟩
      exact ⟨here, fun reply => induction reply (later reply)⟩

theorem asks_perform_bind
    {request : Request}
    {next : Reply request → Program Reply Failure Result}
    (here : allowed request)
    (later : ∀ reply, (next reply).Asks allowed) :
    (perform request >>= next).Asks allowed :=
  ⟨here, later⟩

/-- A program keeps what each of its calls keeps. -/
theorem run_invariant
    {handler : (request : Request) → World → Reply request × World}
    {program : Program Reply Failure Value} (asks : program.Asks allowed)
    (invariant : World → Prop)
    (preserved :
      ∀ request world, allowed request → invariant world →
        invariant (handler request world).2)
    {world : World} (initial : invariant world) :
    invariant (program.run handler world).2 := by
  induction program generalizing world with
  | ret value => exact initial
  | throw failure => exact initial
  | call request rest induction =>
      rcases asks with ⟨here, later⟩
      exact induction _ (later _) (preserved request world here initial)

end Asks

/-! ## The values a program can return -/

/-- Every value the program can return, after any replies, is of the kind. -/
def Yields (kind : Value → Prop) : Program Reply Failure Value → Prop
  | .ret value => kind value
  | .throw _ => True
  | .call _ next => ∀ reply, (next reply).Yields kind

section Yields

variable {kind : Value → Prop}

theorem yields_bind
    {next : Result → Program Reply Failure Value}
    (last : ∀ result, (next result).Yields kind)
    (program : Program Reply Failure Result) :
    (program >>= next).Yields kind := by
  induction program with
  | ret result => exact last result
  | throw failure => trivial
  | call request rest induction => exact induction

theorem yields_catching
    {recover : Failure → Program Reply Failure Value}
    (handled : ∀ failure, (recover failure).Yields kind)
    {program : Program Reply Failure Value} (yields : program.Yields kind) :
    (program.catching recover).Yields kind := by
  induction program with
  | ret value => exact yields
  | throw failure => exact handled failure
  | call request rest induction =>
      exact fun reply => induction reply (yields reply)

theorem Yields.of_run
    {handler : (request : Request) → World → Reply request × World}
    {program : Program Reply Failure Value} (yields : program.Yields kind)
    {world : World} {value : Value}
    (returns : (program.run handler world).1 = .ok value) : kind value := by
  induction program generalizing world with
  | ret other =>
      cases returns
      exact yields
  | throw failure => cases returns
  | call request rest induction => exact induction _ (yields _) returns

end Yields

end Program

end LightningServer.Foundation
