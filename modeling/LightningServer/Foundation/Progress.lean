import LightningServer.Foundation.Atomicity

/-!
# Threads that can always come to their end

Threads take items out of one stock and wait while it is empty.  A thread
that holds an item does nothing else than use it and give it back, so it
never waits; one that holds none may take one.  Code of this kind is
`Disciplined`.

The census of a pool, free items plus holding threads, stays what it was, and
from it `Census.exists_drained` finds the way out of every state: first the
holders give back, then one thread after the other runs to its end.
-/

namespace LightningServer.Foundation

variable {Action : Type} {Answer : Action → Type}
variable {Request : Type} {Reply : Request → Type}
variable {Failure Value Result Arrival Decision Change State : Type}

/-! ## The discipline -/

/-- What an action does with the stock. -/
inductive Role where
  | takes
  | employs
  | givesBack
  | ignores
  /-- it has no place in the code -/
  | forbidden
deriving DecidableEq

/-- Whether an item is held after the action, if the action is allowed. -/
def Role.after : Role → Bool → Option Bool
  | .takes, false => some true
  | .employs, true => some true
  | .givesBack, true => some false
  | .ignores, false => some false
  | _, _ => none

/-- An item that a thread holds, counted. -/
def heldBy (holds : Bool) : Nat :=
  if holds then 1 else 0

namespace Program

variable (role : Action → Role)

/-- Code that holds an item, or none. -/
def Disciplined : Bool → Program Answer Failure Value → Prop
  | holds, .ret _ => holds = false
  | holds, .throw _ => holds = false
  | holds, .call action next =>
      ∃ later, (role action).after holds = some later ∧
        ∀ answer, (next answer).Disciplined later

variable {role}

theorem disciplined_bind
    {holds : Bool} {program : Program Answer Failure Result}
    {next : Result → Program Answer Failure Value}
    (first : program.Disciplined role holds)
    (later : ∀ value, (next value).Disciplined role false) :
    (program >>= next).Disciplined role holds := by
  induction program generalizing holds with
  | ret value =>
      rw [show holds = false from first]
      exact later value
  | throw failure => exact first
  | call action rest induction =>
      rcases first with ⟨after, allowed, each⟩
      exact ⟨after, allowed, fun answer => induction answer (each answer)⟩

theorem disciplined_expand
    {code : (request : Request) → Program Answer Failure (Reply request)}
    (disciplined : ∀ request, (code request).Disciplined role false)
    (program : Program Reply Failure Value) :
    (program.expand code).Disciplined role false := by
  induction program with
  | ret value => rfl
  | throw failure => rfl
  | call request next induction =>
      exact disciplined_bind (disciplined request) induction

/-- Code that leaves the stock alone. -/
theorem disciplined_of_asks
    {program : Program Answer Failure Value}
    (asks : program.Asks fun action => role action = .ignores) :
    program.Disciplined role false := by
  induction program with
  | ret value => rfl
  | throw failure => rfl
  | call action next induction =>
      refine ⟨false, ?_, fun answer => induction answer (asks.2 answer)⟩
      rw [asks.1]
      rfl

end Program

/-! ## The stock -/

section Stock

variable
  (perform :
    Decision → (action : Action) → State → Option (Answer action × State))
variable (role : Action → Role) (free : State → Nat)

/-- The actions keep count of the items, and wait only for a free one. -/
structure Stocked : Prop where
  counts :
    ∀ {action holds later}, (role action).after holds = some later →
      ∀ {decision state answer next},
        perform decision action state = some (answer, next) →
          free next + heldBy later = free state + heldBy holds
  ready :
    ∀ {action holds later}, (role action).after holds = some later →
      ∀ {state}, (holds = false → 0 < free state) →
        ∃ decision outcome, perform decision action state = some outcome

variable {perform role free}

/-- A move keeps the items of the thread and of the stock together. -/
theorem Stocked.attempt
    (stocked : Stocked perform role free) {holds : Bool}
    {program : Program Answer Failure Value}
    (disciplined : program.Disciplined role holds) (decision : Decision)
    (state : State) :
    ∃ later,
      (program.attempt (perform decision) state).1.Disciplined role later ∧
        free (program.attempt (perform decision) state).2 + heldBy later =
          free state + heldBy holds := by
  cases program with
  | ret value => exact ⟨holds, disciplined, rfl⟩
  | throw failure => exact ⟨holds, disciplined, rfl⟩
  | call action next =>
      simp only [Program.attempt]
      cases performed : perform decision action state with
      | none => exact ⟨holds, disciplined, rfl⟩
      | some outcome =>
          rcases disciplined with ⟨later, allowed, each⟩
          exact ⟨later, each outcome.1, stocked.counts allowed performed⟩

/-! ## The census of a pool -/

/-- The number of threads that hold an item. -/
def holders (holding : List Bool) : Nat :=
  holding.count true

/-- Every thread is disciplined, and no item has been lost. -/
structure Census (role : Action → Role) (free : State → Nat)
    (total : Nat) (holding : List Bool)
    (pool : Pool (Program Answer Failure Value) State) : Prop where
  threads :
    List.Forall₂ (Program.Disciplined role) holding pool.threads
  items : free pool.world + holders holding = total

theorem holders_cons (first : Bool) (rest : List Bool) :
    holders (first :: rest) = holders rest + heldBy first := by
  rw [holders, List.count_cons]
  cases first with
  | false => rfl
  | true => rfl

theorem holders_set
    {holding : List Bool} {index : Nat} {old : Bool}
    (present : holding[index]? = some old) (new : Bool) :
    holders (holding.set index new) + heldBy old =
      holders holding + heldBy new := by
  induction holding generalizing index with
  | nil => cases present
  | cons first rest induction =>
      cases index with
      | zero =>
          cases present
          rw [List.set_cons_zero, holders_cons, holders_cons]
          omega
      | succ index =>
          have later := induction present
          rw [List.set_cons_succ, holders_cons, holders_cons]
          omega

theorem heldBy_le_holders
    {holding : List Bool} {index : Nat} {holds : Bool}
    (held : holding[index]? = some holds) :
    heldBy holds ≤ holders holding := by
  have replaced := holders_set held false
  simp only [heldBy, Bool.false_eq_true, if_false] at replaced
  simp only [heldBy]
  omega

/-- Where items are held, some thread holds one. -/
theorem exists_holder
    {holding : List Bool} (positive : 0 < holders holding) :
    ∃ index : Nat, holding[index]? = some true := by
  have isHeld : true ∈ holding := List.count_pos_iff.mp positive
  exact List.mem_iff_getElem?.mp isHeld

/-- The thread at a position, with what it holds. -/
theorem Census.thread
    {total : Nat} {holding : List Bool}
    {pool : Pool (Program Answer Failure Value) State}
    (census : Census role free total holding pool) {index : Nat}
    {program : Program Answer Failure Value}
    (present : pool.threads[index]? = some program) :
    ∃ holds, holding[index]? = some holds ∧
      program.Disciplined role holds := by
  rcases List.getElem?_eq_some_iff.mp present with ⟨inside, rfl⟩
  have there : index < holding.length := by
    rw [census.threads.length_eq]
    exact inside
  exact ⟨holding[index], List.getElem?_eq_getElem there,
    census.threads.get there inside⟩

theorem Census.program
    {total : Nat} {holding : List Bool}
    {pool : Pool (Program Answer Failure Value) State}
    (census : Census role free total holding pool) {index : Nat}
    {holds : Bool} (held : holding[index]? = some holds) :
    ∃ program, pool.threads[index]? = some program := by
  have inside := (List.getElem?_eq_some_iff.mp held).1
  rw [census.threads.length_eq] at inside
  exact ⟨pool.threads[index], List.getElem?_eq_getElem inside⟩

/-- The census after a thread has moved. -/
theorem Census.moved
    {total : Nat} {holding : List Bool}
    {pool : Pool (Program Answer Failure Value) State}
    (census : Census role free total holding pool) {index : Nat}
    {old : Bool} (held : holding[index]? = some old) {later : Bool}
    {result : Program Answer Failure Value × State}
    (disciplined : result.1.Disciplined role later)
    (items : free result.2 + heldBy later = free pool.world + heldBy old) :
    Census role free total (holding.set index later)
      (pool.moved index result) where
  threads := forall₂_set census.threads disciplined index
  items := by
    have before := census.items
    have replaced := holders_set held later
    simp only [Pool.moved]
    omega

section Runs

variable {entry : Arrival → Program Answer Failure Value}
variable {apply : Change → State → State}

/-- The step of threads whose actions can block. -/
abbrev blockingStep
    (perform :
      Decision → (action : Action) → State →
        Option (Answer action × State))
    (entry : Arrival → Program Answer Failure Value)
    (apply : Change → State → State) :
    Pool (Program Answer Failure Value) State →
      RuledEvent Arrival Decision Change →
        Pool (Program Answer Failure Value) State :=
  Pool.ruledStep entry
    (fun decision => Program.attempt (perform decision)) apply

variable
  (stocked : Stocked perform role free)
  (entries : ∀ arrival, (entry arrival).Disciplined role false)
  (unseen : ∀ change state, free (apply change state) = free state)

include stocked entries unseen

theorem Census.step
    {total : Nat} {holding : List Bool}
    {pool : Pool (Program Answer Failure Value) State}
    (census : Census role free total holding pool)
    (event : RuledEvent Arrival Decision Change) :
    ∃ later,
      Census role free total later
        (blockingStep perform entry apply pool event) := by
  cases event with
  | arrive arrival =>
      refine ⟨holding ++ [false], ?_, ?_⟩
      · exact List.rel_append census.threads (.cons (entries arrival) .nil)
      · have none : holders (holding ++ [false]) = holders holding := by
          simp [holders]
        rw [none]
        exact census.items
  | outside change =>
      exact ⟨holding, census.threads,
        (congrArg (· + holders holding)
          (unseen change pool.world)).trans census.items⟩
  | advance index decision =>
      cases present : pool.threads[index]? with
      | none =>
          rw [blockingStep, Pool.ruledStep_advance_of_none _ _ _ present]
          exact ⟨holding, census⟩
      | some program =>
          rw [blockingStep, Pool.ruledStep_advance_of_some _ _ _ present]
          rcases census.thread present with ⟨holds, held, disciplined⟩
          rcases stocked.attempt disciplined decision pool.world with
            ⟨later, still, items⟩
          exact ⟨_, census.moved held still items⟩

theorem exists_census
    (state : State) (events : List (RuledEvent Arrival Decision Change)) :
    ∃ holding,
      Census role free (free state) holding
        (Transition.run (blockingStep perform entry apply) (.empty state)
          events) :=
  Transition.run_invariant
    (fun pool : Pool (Program Answer Failure Value) State =>
      ∃ holding, Census role free (free state) holding pool)
    (fun _ event holds =>
      holds.elim fun _ census =>
        census.step stocked entries unseen event)
    events ⟨[], .nil, rfl⟩

end Runs

/-! ## The way to the end -/

/-- An entry is put in its own place. -/
theorem set_of_getElem?
    {Entry : Type} {entries : List Entry} {index : Nat} {entry : Entry}
    (present : entries[index]? = some entry) :
    entries.set index entry = entries := by
  rcases List.getElem?_eq_some_iff.mp present with ⟨inside, rfl⟩
  exact List.set_getElem_self inside

/-- The event lets a thread act. -/
def RuledEvent.isAdvance : RuledEvent Arrival Decision Change → Bool
  | .advance _ _ => true
  | _ => false

/-- Every thread has returned or thrown. -/
def Pool.AllEnded (pool : Pool (Program Answer Failure Value) State) :
    Prop :=
  pool.All fun program => program.outcome?.isSome

/-- When all threads have ended, every item is back. -/
theorem Census.free_of_allEnded
    {total : Nat} {holding : List Bool}
    {pool : Pool (Program Answer Failure Value) State}
    (census : Census role free total holding pool)
    (ended : pool.AllEnded) : free pool.world = total := by
  have nobody : holders holding = 0 := by
    by_contra positive
    rcases exists_holder (Nat.pos_of_ne_zero positive) with ⟨index, held⟩
    rcases census.program held with ⟨program, present⟩
    rcases census.thread present with ⟨holds, same, disciplined⟩
    rw [held] at same
    cases same
    have finished := ended index program present
    cases program with
    | ret value => cases disciplined
    | throw failure => cases disciplined
    | call action next => cases finished
  have items := census.items
  omega

section Drain

variable (entry : Arrival → Program Answer Failure Value)
variable (apply : Change → State → State)

/-- One thread acts, and what it holds then. -/
theorem Census.acted
    {total : Nat} {holding : List Bool}
    {pool : Pool (Program Answer Failure Value) State}
    (stocked : Stocked perform role free)
    (census : Census role free total holding pool) {index : Nat}
    {action : Action} {next : Answer action → Program Answer Failure Value}
    (present : pool.threads[index]? = some (.call action next))
    {holds later : Bool} (held : holding[index]? = some holds)
    (allowed : (role action).after holds = some later)
    (each : ∀ answer, (next answer).Disciplined role later)
    (items : holds = false → 0 < free pool.world) :
    ∃ (decision : Decision) (answer : Answer action) (state : State),
      blockingStep perform entry apply pool (.advance index decision) =
          pool.moved index (next answer, state) ∧
        Census role free total (holding.set index later)
          (pool.moved index (next answer, state)) := by
  rcases stocked.ready allowed items with
    ⟨decision, ⟨answer, state⟩, performed⟩
  refine ⟨decision, answer, state, ?_, ?_⟩
  · rw [blockingStep, Pool.ruledStep_advance_of_some _ _ _ present]
    simp only [Program.attempt, performed]
  · exact census.moved held (each answer)
      (stocked.counts allowed performed)

/-- A thread that holds an item can give it back, whatever others do. -/
theorem Census.exists_freed
    {total : Nat} {program : Program Answer Failure Value}
    (stocked : Stocked perform role free) {holding : List Bool}
    {pool : Pool (Program Answer Failure Value) State}
    (census : Census role free total holding pool) {index : Nat}
    (present : pool.threads[index]? = some program)
    (held : holding[index]? = some true) :
    ∃ events : List (RuledEvent Arrival Decision Change),
      (∀ event ∈ events, event.isAdvance = true) ∧
        Census role free total (holding.set index false)
          (Transition.run (blockingStep perform entry apply) pool
            events) := by
  induction program generalizing holding pool with
  | ret value =>
      rcases census.thread present with ⟨holds, same, ended⟩
      rw [held] at same
      cases same
      cases ended
  | throw failure =>
      rcases census.thread present with ⟨holds, same, ended⟩
      rw [held] at same
      cases same
      cases ended
  | call action next induction =>
      rcases census.thread present with ⟨holds, same, disciplined⟩
      rw [held] at same
      cases same
      rcases disciplined with ⟨later, allowed, each⟩
      rcases census.acted entry apply stocked present held allowed each
          (by simp) with ⟨decision, answer, state, stepped, after⟩
      cases later with
      | false =>
          refine ⟨[.advance index decision], by
            simp [RuledEvent.isAdvance], ?_⟩
          rw [Transition.run_cons, Transition.run_nil, stepped]
          exact after
      | true =>
          have inside := (List.getElem?_eq_some_iff.mp held).1
          have stillHeld :
              (holding.set index true)[index]? = some true :=
            List.getElem?_set_self inside
          rcases induction answer after
              (Pool.getElem?_moved_self present _) stillHeld with
            ⟨events, advance, freed⟩
          refine ⟨.advance index decision :: events, ?_, ?_⟩
          · rw [List.forall_mem_cons]
            exact ⟨rfl, advance⟩
          · rw [List.set_set] at freed
            rw [Transition.run_cons, stepped]
            exact freed

/-- While nobody else holds an item, a thread can run to its end. -/
theorem Census.exists_ended
    {total : Nat} {program : Program Answer Failure Value}
    (stocked : Stocked perform role free) (positive : 0 < total)
    {holding : List Bool}
    {pool : Pool (Program Answer Failure Value) State}
    (census : Census role free total holding pool) {index : Nat}
    (present : pool.threads[index]? = some program)
    {holds : Bool} (held : holding[index]? = some holds)
    (alone : holders holding = heldBy holds) :
    ∃ (events : List (RuledEvent Arrival Decision Change))
        (later : List Bool) (ended : Program Answer Failure Value),
      (∀ event ∈ events, event.isAdvance = true) ∧
        Census role free total later
          (Transition.run (blockingStep perform entry apply) pool
            events) ∧
        holders later = 0 ∧ ended.outcome?.isSome = true ∧
        (Transition.run (blockingStep perform entry apply) pool
            events).threads = pool.threads.set index ended := by
  induction program generalizing holding pool holds with
  | ret value =>
      rcases census.thread present with ⟨other, isHeld, ended⟩
      rw [held] at isHeld
      cases isHeld
      cases ended
      exact ⟨[], holding, .ret value, by simp, census, alone, rfl,
        (set_of_getElem? present).symm⟩
  | throw failure =>
      rcases census.thread present with ⟨other, isHeld, ended⟩
      rw [held] at isHeld
      cases isHeld
      cases ended
      exact ⟨[], holding, .throw failure, by simp, census, alone, rfl,
        (set_of_getElem? present).symm⟩
  | call action next induction =>
      rcases census.thread present with ⟨other, isHeld, disciplined⟩
      rw [held] at isHeld
      cases isHeld
      rcases disciplined with ⟨after, allowed, each⟩
      have items : holds = false → 0 < free pool.world := by
        rintro rfl
        have all := census.items
        rw [alone] at all
        simp only [heldBy, Bool.false_eq_true, if_false] at all
        omega
      rcases census.acted entry apply stocked present held allowed each
          items with ⟨decision, answer, state, stepped, moved⟩
      have there : (holding.set index after)[index]? = some after :=
        List.getElem?_set_self (List.getElem?_eq_some_iff.mp held).1
      have still : holders (holding.set index after) = heldBy after := by
        have replaced := holders_set held after
        omega
      rcases induction answer moved (Pool.getElem?_moved_self present _)
          there still with
        ⟨events, later, ended, advance, last, nobody, isEnded, threads⟩
      refine ⟨.advance index decision :: events, later, ended, ?_, ?_,
        nobody, isEnded, ?_⟩
      · rw [List.forall_mem_cons]
        exact ⟨rfl, advance⟩
      · rw [Transition.run_cons, stepped]
        exact last
      · rw [Transition.run_cons, stepped, threads]
        exact List.set_set ..

/-- First those who hold an item give it back. -/
theorem Census.exists_allFreed
    {total : Nat} (stocked : Stocked perform role free)
    {holding : List Bool}
    {pool : Pool (Program Answer Failure Value) State}
    (census : Census role free total holding pool) :
    ∃ (events : List (RuledEvent Arrival Decision Change))
        (later : List Bool),
      (∀ event ∈ events, event.isAdvance = true) ∧
        Census role free total later
          (Transition.run (blockingStep perform entry apply) pool
            events) ∧
        holders later = 0 := by
  generalize isCount : holders holding = count
  induction count generalizing holding pool with
  | zero => exact ⟨[], holding, by simp, census, isCount⟩
  | succ count induction =>
      rcases exists_holder (by omega : 0 < holders holding) with
        ⟨index, held⟩
      rcases census.program held with ⟨program, present⟩
      rcases census.exists_freed entry apply stocked present held with
        ⟨events, advance, freed⟩
      have fewer : holders (holding.set index false) = count := by
        have replaced := holders_set held false
        simp only [heldBy, Bool.false_eq_true, if_false, if_true]
          at replaced
        omega
      rcases induction freed fewer with ⟨more, later, others, last, none⟩
      refine ⟨events ++ more, later, ?_, ?_, none⟩
      · rw [List.forall_mem_append]
        exact ⟨advance, others⟩
      · rw [Transition.run_append]
        exact last

/-- Then the threads run to their end, one after the other. -/
theorem Census.exists_endedBelow
    {total : Nat} (stocked : Stocked perform role free)
    (positive : 0 < total) {holding : List Bool}
    {pool : Pool (Program Answer Failure Value) State}
    (census : Census role free total holding pool)
    (nobody : holders holding = 0) (count : Nat) :
    ∃ (events : List (RuledEvent Arrival Decision Change))
        (later : List Bool),
      let reached :=
        Transition.run (blockingStep perform entry apply) pool events
      (∀ event ∈ events, event.isAdvance = true) ∧
        Census role free total later reached ∧ holders later = 0 ∧
        reached.threads.length = pool.threads.length ∧
        ∀ index program, index < count →
          reached.threads[index]? = some program →
            program.outcome?.isSome = true := by
  induction count with
  | zero => exact ⟨[], holding, by simp, census, nobody, rfl, by omega⟩
  | succ count induction =>
      rcases induction with
        ⟨events, later, advance, reached, none, length, below⟩
      generalize isPool :
        Transition.run (blockingStep perform entry apply) pool events =
          middle at reached length below
      cases present : middle.threads[count]? with
      | none =>
          refine ⟨events, later, advance, isPool ▸ reached, none,
            isPool ▸ length, ?_⟩
          intro index program before there
          rw [isPool] at there
          rcases Nat.lt_succ_iff_lt_or_eq.mp before with earlier | rfl
          · exact below index program earlier there
          · rw [present] at there
            cases there
      | some program =>
          rcases reached.thread present with ⟨holds, held, -⟩
          have alone := heldBy_le_holders held
          rcases reached.exists_ended entry apply stocked positive present
              held (by omega) with
            ⟨more, last, ended, others, census, still, isEnded, threads⟩
          refine ⟨events ++ more, last, ?_, ?_, still, ?_, ?_⟩
          · rw [List.forall_mem_append]
            exact ⟨advance, others⟩
          · rw [Transition.run_append, isPool]
            exact census
          · rw [Transition.run_append, isPool, threads, List.length_set]
            exact length
          · intro index other before there
            rw [Transition.run_append, isPool, threads] at there
            by_cases here : index = count
            · subst here
              rw [List.getElem?_set_self
                (List.getElem?_eq_some_iff.mp present).1] at there
              cases there
              exact isEnded
            · rw [List.getElem?_set_ne (Ne.symm here)] at there
              exact below index other (by omega) there

/-- Every thread can come to its end, and every item back. -/
theorem Census.exists_drained
    {total : Nat} (stocked : Stocked perform role free)
    (positive : 0 < total) {holding : List Bool}
    {pool : Pool (Program Answer Failure Value) State}
    (census : Census role free total holding pool) :
    ∃ events : List (RuledEvent Arrival Decision Change),
      let reached :=
        Transition.run (blockingStep perform entry apply) pool events
      (∀ event ∈ events, event.isAdvance = true) ∧
        reached.AllEnded ∧ free reached.world = total := by
  rcases census.exists_allFreed entry apply stocked with
    ⟨first, holding, advance, freed, nobody⟩
  rcases freed.exists_endedBelow entry apply stocked positive nobody
      holding.length with
    ⟨rest, later, others, reached, none, length, below⟩
  refine ⟨first ++ rest, ?_, ?_, ?_⟩
  · rw [List.forall_mem_append]
    exact ⟨advance, others⟩
  · intro index program present
    rw [Transition.run_append] at present
    refine below index program ?_ present
    rw [freed.threads.length_eq, ← length]
    exact (List.getElem?_eq_some_iff.mp present).1
  · have items := reached.items
    rw [none, Nat.add_zero] at items
    rw [Transition.run_append]
    exact items

end Drain

end Stock

end LightningServer.Foundation
