import LightningServer.Foundation.Interleaving
import Mathlib.Algebra.Order.Ring.Nat
import Mathlib.Data.List.Nodup

/-!
# Items lent from shared stocks

Threads take items out of stocks that they share, use them, and put them
back by hand.  An item is taken with `wait`, which blocks while the stock is
empty, or with `waitFor`, which may give up instead.  Each access is atomic;
an event of the environment starts an operation on a thread or lets a thread
make its next access, and decides about timeouts and about the answers.

`Returns` is the discipline of a piece of code, by recursion over its
accesses: it never asks for an item of a kind of which it holds one, it uses
and releases only what it holds, and where it returns it holds nothing.  The
run of any number of threads whose operations keep the discipline keeps
every item in one place, as long as none of them throws.
-/

namespace LightningServer.Foundation

/-- What a thread can ask of a stock, or of an item that it holds. -/
inductive Access (Kind Item Query : Type) where
  | wait (kind : Kind)
  | waitFor (kind : Kind)
  | use (kind : Kind) (item : Item) (query : Query)
  | release (kind : Kind) (item : Item)

namespace Access

variable {Kind Item Query : Type}

@[reducible]
def Reply (Answer : Query → Type) : Access Kind Item Query → Type
  | .wait _ => Item
  | .waitFor _ => Option Item
  | .use _ _ query => Answer query
  | .release _ _ => Unit

/-- The kind of item that is asked for. -/
def requested : Access Kind Item Query → Option Kind
  | .wait kind => some kind
  | .waitFor kind => some kind
  | _ => none

/-- The item that is used or given back. -/
def employs : Access Kind Item Query → Option (Kind × Item)
  | .use kind item _ => some (kind, item)
  | .release kind item => some (kind, item)
  | _ => none

end Access

/-- What the environment decides about one access. -/
structure Choice {Query : Type} (Answer : Query → Type) where
  /-- a `waitFor` on an empty stock gives up now -/
  timesOut : Bool
  answer : (query : Query) → Answer query

variable {Kind Item Query : Type} {Answer : Query → Type}
variable {Failure Value Result Operation : Type}
variable [DecidableEq Kind]

/-! ## Shares -/

/-- The number of these items of a kind among the items held. -/
def shareOf (kind : Kind) (counts : Item → Bool)
    (held : List (Kind × Item)) : Nat :=
  held.countP fun loan => decide (loan.1 = kind) && counts loan.2

/-- One item more. -/
theorem shareOf_cons
    (kind other : Kind) (counts : Item → Bool) (item : Item)
    (held : List (Kind × Item)) :
    shareOf kind counts ((other, item) :: held) =
      shareOf kind counts held +
        if other = kind then [item].countP counts else 0 := by
  rw [shareOf, List.countP_cons, ← shareOf]
  congr 1
  by_cases same : other = kind
  · simp [same]
  · simp [same]

/-- The number of these items after a change of one stock. -/
theorem countP_update
    (stock : Kind → List Item) (kind other : Kind) (items : List Item)
    (counts : Item → Bool) :
    (Function.update stock other items kind).countP counts =
      if other = kind then items.countP counts
      else (stock kind).countP counts := by
  by_cases same : other = kind
  · subst same
    simp
  · rw [Function.update_of_ne (fun equal => same equal.symm), if_neg same]

/-- Taking the first item of a stock. -/
theorem share_taken
    {stock : Kind → List Item} {kind : Kind} {item : Item}
    {others : List Item} (isStock : stock kind = item :: others)
    (held : List (Kind × Item)) (other : Kind) (counts : Item → Bool) :
    (Function.update stock kind others other).countP counts +
        shareOf other counts ((kind, item) :: held) =
      (stock other).countP counts + shareOf other counts held := by
  rw [countP_update, shareOf_cons]
  by_cases same : kind = other
  · subst same
    have split :
        (stock kind).countP counts =
          [item].countP counts + others.countP counts := by
      rw [isStock, ← List.singleton_append, List.countP_append]
    rw [if_pos rfl, if_pos rfl, split]
    omega
  · rw [if_neg same, if_neg same]
    rfl

variable [DecidableEq Item]

theorem shareOf_eq_count
    (kind : Kind) (item : Item) (held : List (Kind × Item)) :
    shareOf kind (fun other => other = item) held =
      held.count (kind, item) := by
  rw [shareOf, List.count_eq_countP]
  apply List.countP_congr
  rintro ⟨otherKind, other⟩ -
  simp

/-- Putting an item back as the last one of its stock. -/
theorem share_released
    {held : List (Kind × Item)} {kind : Kind} {item : Item}
    (holds : (kind, item) ∈ held) (stock : Kind → List Item)
    (other : Kind) (counts : Item → Bool) :
    (Function.update stock kind (stock kind ++ [item]) other).countP
          counts +
        shareOf other counts (held.erase (kind, item)) =
      (stock other).countP counts + shareOf other counts held := by
  have erased :
      shareOf other counts held =
        shareOf other counts ((kind, item) :: held.erase (kind, item)) :=
    (List.perm_cons_erase holds).countP_eq _
  rw [countP_update, erased, shareOf_cons]
  by_cases same : kind = other
  · subst same
    rw [if_pos rfl, if_pos rfl, List.countP_append]
    omega
  · rw [if_neg same, if_neg same]
    rfl

/-! ## One access -/

namespace Access

/--
The reply, the items held and the stocks after the access, or nothing while
it blocks.
-/
def grant (choice : Choice Answer) (held : List (Kind × Item))
    (stock : Kind → List Item) :
    (access : Access Kind Item Query) →
      Option
        (access.Reply Answer × List (Kind × Item) × (Kind → List Item))
  | .wait kind =>
      match stock kind with
      | [] => none
      | item :: rest =>
          some (item, (kind, item) :: held, Function.update stock kind rest)
  | .waitFor kind =>
      match stock kind with
      | [] => if choice.timesOut then some (none, held, stock) else none
      | item :: rest =>
          some
            (some item, (kind, item) :: held,
              Function.update stock kind rest)
  | .use _ _ query => some (choice.answer query, held, stock)
  | .release kind item =>
      some
        ((), held.erase (kind, item),
          Function.update stock kind (stock kind ++ [item]))

/-- The access is allowed to who holds this, and so is what follows. -/
def Sound (held : List (Kind × Item)) :
    (access : Access Kind Item Query) →
      (access.Reply Answer → List (Kind × Item) → Prop) → Prop
  | .wait kind, later =>
      (∀ loan ∈ held, loan.1 ≠ kind) ∧
        ∀ item, later item ((kind, item) :: held)
  | .waitFor kind, later =>
      (∀ loan ∈ held, loan.1 ≠ kind) ∧
        later none held ∧ ∀ item, later (some item) ((kind, item) :: held)
  | .use kind item _, later =>
      (kind, item) ∈ held ∧ ∀ answer, later answer held
  | .release kind item, later =>
      (kind, item) ∈ held ∧ later () (held.erase (kind, item))

end Access

theorem Access.Sound.weaken
    {access : Access Kind Item Query} {held : List (Kind × Item)}
    {later weaker : access.Reply Answer → List (Kind × Item) → Prop}
    (sound : access.Sound held later)
    (implies : ∀ reply after, later reply after → weaker reply after) :
    access.Sound held weaker := by
  cases access with
  | wait kind => exact ⟨sound.1, fun item => implies _ _ (sound.2 item)⟩
  | waitFor kind =>
      exact ⟨sound.1, implies _ _ sound.2.1,
        fun item => implies _ _ (sound.2.2 item)⟩
  | use kind item query =>
      exact ⟨sound.1, fun answer => implies _ _ (sound.2 answer)⟩
  | release kind item => exact ⟨sound.1, implies _ _ sound.2⟩

/-- A granted access moves items between the stocks and the thread. -/
theorem Access.Sound.of_grant
    {access : Access Kind Item Query} {held : List (Kind × Item)}
    {later : access.Reply Answer → List (Kind × Item) → Prop}
    (sound : access.Sound held later) {choice : Choice Answer}
    {stock : Kind → List Item} {reply : access.Reply Answer}
    {after : List (Kind × Item)} {rest : Kind → List Item}
    (granted : access.grant choice held stock = some (reply, after, rest)) :
    later reply after ∧
      ∀ kind counts,
        (rest kind).countP counts + shareOf kind counts after =
          (stock kind).countP counts + shareOf kind counts held := by
  cases access with
  | wait kind =>
      simp only [grant] at granted
      split at granted
      · cases granted
      · next isStock =>
          cases granted
          exact ⟨sound.2 _, share_taken isStock held⟩
  | waitFor kind =>
      simp only [grant] at granted
      split at granted
      · split at granted
        · cases granted
          exact ⟨sound.2.1, fun _ _ => rfl⟩
        · cases granted
      · next isStock =>
          cases granted
          exact ⟨sound.2.2 _, share_taken isStock held⟩
  | use kind item query =>
      cases granted
      exact ⟨sound.2 _, fun _ _ => rfl⟩
  | release kind item =>
      cases granted
      exact ⟨sound.2, share_released sound.1 stock⟩

/-! ## The discipline of a piece of code -/

/-- Code that asks for items and uses them. -/
abbrev Borrower (Kind Item : Type) {Query : Type} (Answer : Query → Type)
    (Failure Value : Type) :=
  Program (@Access.Reply Kind Item Query Answer) Failure Value

namespace Program

/-- Holding this, the code keeps the discipline until it returns. -/
def Returns :
    Borrower Kind Item Answer Failure Value → List (Kind × Item) → Prop
  | .ret _, held => held = []
  | .throw _, _ => True
  | .call access next, held =>
      access.Sound held fun reply after => (next reply).Returns after

section Rules

variable {held : List (Kind × Item)} {kind : Kind} {item : Item}

theorem returns_wait_bind
    {next : Item → Borrower Kind Item Answer Failure Result}
    (lacks : ∀ loan ∈ held, loan.1 ≠ kind)
    (later : ∀ item, (next item).Returns ((kind, item) :: held)) :
    (perform (.wait kind) >>= next).Returns held :=
  ⟨lacks, later⟩

theorem returns_waitFor_bind
    {next : Option Item → Borrower Kind Item Answer Failure Result}
    (lacks : ∀ loan ∈ held, loan.1 ≠ kind)
    (without : (next none).Returns held)
    (later : ∀ item, (next (some item)).Returns ((kind, item) :: held)) :
    (perform (.waitFor kind) >>= next).Returns held :=
  ⟨lacks, without, later⟩

theorem returns_use_bind
    {query : Query}
    {next : Answer query → Borrower Kind Item Answer Failure Result}
    (holds : (kind, item) ∈ held)
    (later : ∀ answer, (next answer).Returns held) :
    (perform (.use kind item query) >>= next).Returns held :=
  ⟨holds, later⟩

theorem returns_release_bind
    {next : Unit → Borrower Kind Item Answer Failure Result}
    (holds : (kind, item) ∈ held)
    (later : (next ()).Returns (held.erase (kind, item))) :
    (perform (.release kind item) >>= next).Returns held :=
  ⟨holds, later⟩

/-- A computation that may throw asks for nothing. -/
theorem returns_ofExcept_bind
    {result : Except Failure Value}
    {next : Value → Borrower Kind Item Answer Failure Result}
    (later : ∀ value, (next value).Returns held) :
    (ofExcept result >>= next).Returns held := by
  cases result with
  | ok value => exact later value
  | error failure => trivial

/-- What is done with the value of the code asks for nothing. -/
theorem Returns.map
    {program : Borrower Kind Item Answer Failure Value}
    (returns : program.Returns held) (use : Value → Result) :
    (program >>= fun value => .ret (use value)).Returns held := by
  induction program generalizing held with
  | ret value => exact returns
  | throw failure => trivial
  | call access next induction =>
      exact Access.Sound.weaken returns
        fun reply after later => induction reply later

end Rules

/-- The code has ended with an exception. -/
def threw {Request : Type} {Reply : Request → Type} :
    Program Reply Failure Value → Bool
  | .throw _ => true
  | _ => false

end Program

/-! ## Threads and their operations -/

/-- A thread: the items it holds, and the code of its operation. -/
structure Client (Kind Item Code : Type) where
  held : List (Kind × Item)
  code : Code

inductive BorrowEvent {Query : Type} (Operation : Type)
    (Answer : Query → Type) where
  /-- a new thread, with its first operation -/
  | arrive (operation : Operation)
  /-- the thread at this position starts another operation -/
  | again (index : Nat) (operation : Operation)
  /-- it makes its next access -/
  | advance (index : Nat) (choice : Choice Answer)

namespace Client

/-- The next access is made, unless it blocks. -/
def move (choice : Choice Answer)
    (client : Client Kind Item (Borrower Kind Item Answer Failure Value))
    (stock : Kind → List Item) :
    Client Kind Item (Borrower Kind Item Answer Failure Value) ×
      (Kind → List Item) :=
  match client.code with
  | .call access next =>
      match access.grant choice client.held stock with
      | none => (client, stock)
      | some (reply, held, rest) => (⟨held, next reply⟩, rest)
  | _ => (client, stock)

/-- A thread that is between two operations goes on with this one. -/
def restart
    (client : Client Kind Item (Borrower Kind Item Answer Failure Value))
    (next : Borrower Kind Item Answer Failure Value) :
    Client Kind Item (Borrower Kind Item Answer Failure Value) :=
  if client.code.nextCall.isNone then { client with code := next }
  else client

/-- The items of a kind that the thread holds, counted. -/
def share {Code : Type} (client : Client Kind Item Code) (kind : Kind)
    (counts : Item → Bool) : Nat :=
  shareOf kind counts client.held

end Client

/-! ## Runs -/

/-- Threads that borrow from the stocks. -/
abbrev Lending (Kind Item : Type) {Query : Type} (Answer : Query → Type)
    (Failure Value : Type) :=
  Pool (Client Kind Item (Borrower Kind Item Answer Failure Value))
    (Kind → List Item)

namespace Lending

section Step

variable (code : Operation → Borrower Kind Item Answer Failure Value)

/-- A new thread holds nothing. -/
def enter (operation : Operation) :
    Client Kind Item (Borrower Kind Item Answer Failure Value) :=
  ⟨[], code operation⟩

def step (lending : Lending Kind Item Answer Failure Value) :
    BorrowEvent Operation Answer → Lending Kind Item Answer Failure Value
  | .arrive operation =>
      Pool.step (enter code) Prod.mk lending (.arrive operation)
  | .again index operation =>
      Pool.step (enter code)
        (fun client stock => (client.restart (code operation), stock))
        lending (.advance index)
  | .advance index choice =>
      Pool.step (enter code) (Client.move choice) lending (.advance index)

end Step

/-- No operation has ended with an exception. -/
def Calm (lending : Lending Kind Item Answer Failure Value) : Prop :=
  ∀ client ∈ lending.threads, client.code.threw = false

instance (lending : Lending Kind Item Answer Failure Value) :
    Decidable lending.Calm :=
  inferInstanceAs (Decidable (∀ client ∈ lending.threads, _))

/-- Every item is accounted for, and every thread keeps the discipline. -/
structure Accounted (initial : Kind → List Item)
    (lending : Lending Kind Item Answer Failure Value) : Prop where
  census :
    ∀ kind counts,
      (lending.world kind).countP counts +
          (lending.threads.map fun client => client.share kind counts).sum =
        (initial kind).countP counts
  returns : lending.All fun client => client.code.Returns client.held

/-- The sum over the threads after one of them is replaced. -/
theorem sum_map_set
    {Thread : Type} {threads : List Thread} {index : Nat} {thread : Thread}
    (present : threads[index]? = some thread) (new : Thread)
    (measure : Thread → Nat) :
    ((threads.set index new).map measure).sum + measure thread =
      (threads.map measure).sum + measure new := by
  induction threads generalizing index with
  | nil => cases present
  | cons first rest induction =>
      cases index with
      | zero =>
          cases present
          simp only [List.set_cons_zero, List.map_cons, List.sum_cons]
          omega
      | succ index =>
          have later := induction present
          simp only [List.set_cons_succ, List.map_cons, List.sum_cons]
          omega

section Invariant

variable {code : Operation → Borrower Kind Item Answer Failure Value}
variable {initial : Kind → List Item}
variable {lending : Lending Kind Item Answer Failure Value}

theorem accounted_empty :
    Accounted initial
      (Pool.empty initial : Lending Kind Item Answer Failure Value) where
  census := by
    intro kind counts
    rfl
  returns := Pool.all_empty _ _

/-- A move that keeps the items of the thread and the stocks together. -/
theorem Accounted.moved
    (accounted : lending.Accounted initial) {index : Nat}
    {client : Client Kind Item (Borrower Kind Item Answer Failure Value)}
    (present : lending.threads[index]? = some client)
    {later : Client Kind Item (Borrower Kind Item Answer Failure Value)}
    {rest : Kind → List Item}
    (kept :
      ∀ kind counts,
        (rest kind).countP counts + later.share kind counts =
          (lending.world kind).countP counts + client.share kind counts)
    (returns : later.code.Returns later.held) :
    Accounted initial (lending.moved index (later, rest)) where
  census := by
    intro kind counts
    have before := accounted.census kind counts
    have here := kept kind counts
    have replaced :=
      sum_map_set present later fun client => client.share kind counts
    simp only [Pool.moved]
    omega
  returns := by
    intro other thread there
    rcases Pool.getElem?_moved_cases there with ⟨-, rfl⟩ | ⟨-, old⟩
    · exact returns
    · exact accounted.returns other thread old

theorem Accounted.arrived
    (accounted : lending.Accounted initial)
    {new : Borrower Kind Item Answer Failure Value}
    (returns : new.Returns []) :
    Accounted initial
      { lending with threads := lending.threads ++ [⟨[], new⟩] } where
  census := by
    intro kind counts
    have before := accounted.census kind counts
    simpa [Client.share, shareOf] using before
  returns := by
    intro other thread there
    rcases Pool.getElem?_arrived_cases there with ⟨-, rfl⟩ | old
    · exact returns
    · exact accounted.returns other thread old

/-- A thread that has returned holds nothing. -/
theorem Accounted.held_of_returned
    (accounted : lending.Accounted initial) (calm : lending.Calm)
    {index : Nat}
    {client : Client Kind Item (Borrower Kind Item Answer Failure Value)}
    (present : lending.threads[index]? = some client)
    (ended : client.code.nextCall = none) :
    client.held = [] := by
  have returns : client.code.Returns client.held :=
    accounted.returns index client present
  have quiet := calm client (List.mem_of_getElem? present)
  cases isCode : client.code with
  | ret value =>
      rw [isCode] at returns
      exact returns
  | throw failure =>
      rw [isCode] at quiet
      cases quiet
  | call access next =>
      rw [isCode] at ended
      cases ended

/-- The next access of a thread keeps every item accounted for. -/
theorem Accounted.advanced
    (accounted : lending.Accounted initial) {index : Nat}
    {client : Client Kind Item (Borrower Kind Item Answer Failure Value)}
    (present : lending.threads[index]? = some client)
    (choice : Choice Answer) :
    Accounted initial
      (lending.moved index (client.move choice lending.world)) := by
  have returns : client.code.Returns client.held :=
    accounted.returns index client present
  have idle :
      Accounted initial (lending.moved index (client, lending.world)) :=
    accounted.moved present (fun _ _ => rfl) returns
  cases isCode : client.code with
  | ret value => simpa only [Client.move, isCode] using idle
  | throw failure => simpa only [Client.move, isCode] using idle
  | call access next =>
      simp only [Client.move, isCode]
      split
      · exact idle
      · next reply after rest granted =>
          rw [isCode] at returns
          rcases Access.Sound.of_grant returns granted with ⟨sound, kept⟩
          exact accounted.moved present kept sound

variable (disciplined : ∀ operation, (code operation).Returns [])

include disciplined

theorem Accounted.step
    (accounted : lending.Accounted initial) (calm : lending.Calm)
    (event : BorrowEvent Operation Answer) :
    Accounted initial (lending.step code event) := by
  cases event with
  | arrive operation => exact accounted.arrived (disciplined operation)
  | again index operation =>
      rw [Lending.step]
      apply Pool.step_invariant (Accounted initial) accounted
      · intro other impossible
        cases impossible
      · rintro other client same present
        apply accounted.moved present
        · intro kind counts
          rw [Client.restart]
          split
          · rfl
          · rfl
        · rw [Client.restart]
          split
          · next ended =>
              rw [accounted.held_of_returned calm present
                (Option.isNone_iff_eq_none.mp ended)]
              exact disciplined operation
          · exact accounted.returns other client present
  | advance index choice =>
      rw [Lending.step]
      apply Pool.step_invariant (Accounted initial) accounted
      · intro operation impossible
        cases impossible
      · intro other client _ present
        exact accounted.advanced present choice

/-- Without exceptions every item stays accounted for. -/
theorem accounted_run
    {events : List (BorrowEvent Operation Answer)}
    (calm :
      Transition.Along (Lending.step code)
        (fun lending event => (lending.step code event).Calm)
        (.empty initial) events) :
    Accounted initial
        (Transition.run (Lending.step code) (.empty initial) events) ∧
      (Transition.run (Lending.step code) (.empty initial) events).Calm := by
  refine Transition.run_invariant_along
    (fun lending : Lending Kind Item Answer Failure Value =>
      lending.Accounted initial ∧ lending.Calm)
    ?_ ⟨accounted_empty, ?_⟩ calm
  · rintro lending event ⟨accounted, before⟩ after
    exact ⟨accounted.step disciplined before event, after⟩
  · intro client impossible
    cases impossible

end Invariant

/-! ## Where an item is -/

/-- How many items of a kind the threads hold. -/
def heldCount (lending : Lending Kind Item Answer Failure Value)
    (kind : Kind) : Nat :=
  (lending.threads.map fun client =>
    client.held.countP fun loan => loan.1 = kind).sum

/-- The item is once in its stock, or held once by one thread. -/
def OwnedOnce (lending : Lending Kind Item Answer Failure Value)
    (kind : Kind) (item : Item) : Prop :=
  (lending.world kind).count item = 1 ∧
      (∀ client ∈ lending.threads, (kind, item) ∉ client.held) ∨
    item ∉ lending.world kind ∧
      ∃ (index : Nat)
          (client : Client Kind Item
            (Borrower Kind Item Answer Failure Value)),
        lending.threads[index]? = some client ∧
          client.held.count (kind, item) = 1 ∧
          ∀ (other : Nat) another, other ≠ index →
            lending.threads[other]? = some another →
              (kind, item) ∉ another.held

/-- A sum of one comes from one thread. -/
theorem exists_of_sum_eq_one
    {Thread : Type} {threads : List Thread} {measure : Thread → Nat}
    (one : (threads.map measure).sum = 1) :
    ∃ (index : Nat) (thread : Thread),
      threads[index]? = some thread ∧ measure thread = 1 ∧
        ∀ (other : Nat) (another : Thread), other ≠ index →
          threads[other]? = some another → measure another = 0 := by
  induction threads with
  | nil => cases one
  | cons first rest induction =>
      rw [List.map_cons, List.sum_cons] at one
      by_cases here : measure first = 1
      · refine ⟨0, first, rfl, here, ?_⟩
        intro other another apart there
        have empty : (rest.map measure).sum = 0 := by omega
        cases other with
        | zero => exact absurd rfl apart
        | succ other =>
            exact List.sum_eq_zero_iff_forall_eq_nat.mp empty _
              (List.mem_map_of_mem (List.mem_of_getElem? there))
      · have nothing : measure first = 0 := by omega
        rcases induction (by omega) with
          ⟨index, thread, present, once, alone⟩
        refine ⟨index + 1, thread, present, once, ?_⟩
        intro other another apart there
        cases other with
        | zero =>
            cases there
            exact nothing
        | succ other =>
            exact alone other another
              (fun same => apart (congrArg (· + 1) same)) there

section Consequences

variable {initial : Kind → List Item}
variable {lending : Lending Kind Item Answer Failure Value}

theorem Accounted.ownedOnce
    (accounted : lending.Accounted initial) {kind : Kind}
    (distinct : (initial kind).Nodup) {item : Item}
    (known : item ∈ initial kind) :
    lending.OwnedOnce kind item := by
  have census := accounted.census kind fun other => other = item
  have single : (initial kind).countP (fun other => other = item) = 1 := by
    rw [← List.count_eq_one_of_mem distinct known, List.count_eq_countP]
    rfl
  have inStock :
      (lending.world kind).countP (fun other => other = item) =
        (lending.world kind).count item := by
    rw [List.count_eq_countP]
    rfl
  have free {client : Client Kind Item
        (Borrower Kind Item Answer Failure Value)}
      (none : client.share kind (fun other => other = item) = 0) :
      (kind, item) ∉ client.held := by
    rw [Client.share, shareOf_eq_count] at none
    exact List.count_eq_zero.mp none
  rw [single, inStock] at census
  rw [OwnedOnce]
  by_cases stocked : (lending.world kind).count item = 0
  · right
    refine ⟨List.count_eq_zero.mp stocked, ?_⟩
    rw [stocked, Nat.zero_add] at census
    rcases exists_of_sum_eq_one census with
      ⟨index, client, present, once, alone⟩
    refine ⟨index, client, present, ?_, ?_⟩
    · rw [← shareOf_eq_count]
      exact once
    · intro other another apart there
      exact free (alone other another apart there)
  · left
    refine ⟨by omega, ?_⟩
    intro client member
    have empty :
        (lending.threads.map fun client =>
          client.share kind fun other => other = item).sum = 0 := by
      omega
    exact free
      (List.sum_eq_zero_iff_forall_eq_nat.mp empty _
        (List.mem_map_of_mem member))

theorem Accounted.length_add_heldCount
    (accounted : lending.Accounted initial) (kind : Kind) :
    (lending.world kind).length + lending.heldCount kind =
      (initial kind).length := by
  have census := accounted.census kind fun _ => true
  simpa [heldCount, Client.share, shareOf] using census

/-- The next access of a thread is allowed to it. -/
theorem Accounted.sound
    (accounted : lending.Accounted initial) {index : Nat}
    {client : Client Kind Item (Borrower Kind Item Answer Failure Value)}
    (present : lending.threads[index]? = some client)
    {access : Access Kind Item Query}
    (isNext : client.code.nextCall = some access) :
    ∃ later : access.Reply Answer → List (Kind × Item) → Prop,
      access.Sound client.held later := by
  have returns : client.code.Returns client.held :=
    accounted.returns index client present
  cases isCode : client.code with
  | ret value =>
      rw [isCode] at isNext
      cases isNext
  | throw failure =>
      rw [isCode] at isNext
      cases isNext
  | call request rest =>
      rw [isCode] at isNext returns
      cases isNext
      exact ⟨_, returns⟩

/-- A thread does not ask for an item of a kind of which it holds one. -/
theorem Accounted.holds_none_of_requested
    (accounted : lending.Accounted initial) {index : Nat}
    {client : Client Kind Item (Borrower Kind Item Answer Failure Value)}
    (present : lending.threads[index]? = some client)
    {access : Access Kind Item Query} {kind : Kind}
    (isNext : client.code.nextCall = some access)
    (asks : access.requested = some kind) :
    ∀ loan ∈ client.held, loan.1 ≠ kind := by
  rcases accounted.sound present isNext with ⟨later, sound⟩
  cases access with
  | wait kind =>
      cases asks
      exact sound.1
  | waitFor kind =>
      cases asks
      exact sound.1
  | use kind item query => cases asks
  | release kind item => cases asks

/-- A thread uses and gives back only what it holds. -/
theorem Accounted.mem_held_of_employs
    (accounted : lending.Accounted initial) {index : Nat}
    {client : Client Kind Item (Borrower Kind Item Answer Failure Value)}
    (present : lending.threads[index]? = some client)
    {access : Access Kind Item Query} {loan : Kind × Item}
    (isNext : client.code.nextCall = some access)
    (employs : access.employs = some loan) :
    loan ∈ client.held := by
  rcases accounted.sound present isNext with ⟨later, sound⟩
  cases access with
  | wait kind => cases employs
  | waitFor kind => cases employs
  | use kind item query =>
      cases employs
      exact sound.1
  | release kind item =>
      cases employs
      exact sound.1

end Consequences

end Lending

end LightningServer.Foundation
