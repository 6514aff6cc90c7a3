import LightningServer.Foundation.Atomicity

/-!
# What the calls of threads add up to

Some calls of a program leave a record, read off the reply.  `Tallies` bounds
the records of one program: what they can be while it runs, and how they
agree with the way in which it ends, whatever the replies are.

In a pool the records of all threads come in one order.  Whatever the
interleaving is, they are the records of the threads put together, so what
each thread leaves alone adds up: nothing is recorded twice, and nothing is
recorded by nobody.
-/

namespace LightningServer.Foundation

variable {Request : Type} {Reply : Request → Type}
variable {Failure Value Result Arrival Ruling Change World Record : Type}

namespace Program

/-! ## The records of one program -/

section Tallies

variable (record : (request : Request) → Reply request → List Record)
variable (running : List Record → Prop)
variable (final : List Record → Except Failure Value → Prop)

/-- With these records so far, the program keeps to `running` and `final`. -/
def Tallies (records : List Record) :
    Program Reply Failure Value → Prop
  | .ret value => running records ∧ final records (.ok value)
  | .throw failure => running records ∧ final records (.error failure)
  | .call request next =>
      running records ∧
        ∀ reply,
          (next reply).Tallies (records ++ record request reply)

variable {record running final} {records : List Record}

theorem Tallies.runs
    {program : Program Reply Failure Value}
    (tallies : program.Tallies record running final records) :
    running records := by
  cases program with
  | ret value => exact tallies.1
  | throw failure => exact tallies.1
  | call request next => exact tallies.1

theorem Tallies.ends
    {program : Program Reply Failure Value}
    (tallies : program.Tallies record running final records)
    {outcome : Except Failure Value}
    (ended : program.outcome? = some outcome) :
    final records outcome := by
  cases program with
  | ret value =>
      cases ended
      exact tallies.2
  | throw failure =>
      cases ended
      exact tallies.2
  | call request next => cases ended

/-- The records of the next move, if there is one. -/
def recordsOfMove
    (record : (request : Request) → Reply request → List Record)
    (handler : (request : Request) → World → Reply request × World)
    (program : Program Reply Failure Value) (world : World) :
    List Record :=
  match program.nextCall with
  | some request => record request (handler request world).1
  | none => []

theorem Tallies.move
    {program : Program Reply Failure Value}
    (tallies : program.Tallies record running final records)
    (handler : (request : Request) → World → Reply request × World)
    (world : World) :
    (program.move handler world).1.Tallies record running final
      (records ++ program.recordsOfMove record handler world) := by
  cases program with
  | ret value => simpa [recordsOfMove, nextCall, Program.move] using tallies
  | throw failure => simpa [recordsOfMove, nextCall, Program.move] using tallies
  | call request next => exact tallies.2 _

/-- A program without records, by the values that it can return. -/
theorem tallies_of_asks
    {kind : Value → Prop} {program : Program Reply Failure Value}
    (asks :
      program.Asks fun request => ∀ reply, record request reply = [])
    (yields : program.Yields kind) (holds : running records)
    (returns : ∀ value, kind value → final records (.ok value))
    (throws : ∀ failure, final records (.error failure)) :
    program.Tallies record running final records := by
  induction program with
  | ret value => exact ⟨holds, returns value yields⟩
  | throw failure => exact ⟨holds, throws failure⟩
  | call request next induction =>
      refine ⟨holds, fun reply => ?_⟩
      rw [asks.1 reply, List.append_nil]
      exact induction reply (asks.2 reply) (yields reply)

theorem tallies_ofExcept_bind
    {result : Except Failure Result}
    {next : Result → Program Reply Failure Value}
    (holds : running records)
    (throws :
      ∀ failure, result = .error failure → final records (.error failure))
    (later :
      ∀ value, result = .ok value →
        (next value).Tallies record running final records) :
    (ofExcept result >>= next).Tallies record running final records := by
  cases result with
  | ok value => exact later value rfl
  | error failure => exact ⟨holds, throws failure rfl⟩

/-- A `catch` starts with the records of what it guards. -/
theorem tallies_catching
    {recover : Failure → Program Reply Failure Value}
    {inner : List Record → Except Failure Value → Prop}
    {program : Program Reply Failure Value}
    (tallies : program.Tallies record running inner records)
    (returns :
      ∀ records value, inner records (.ok value) →
        final records (.ok value))
    (handles :
      ∀ records failure, running records →
        inner records (.error failure) →
          (recover failure).Tallies record running final records) :
    (program.catching recover).Tallies record running final records := by
  induction program generalizing records with
  | ret value => exact ⟨tallies.1, returns _ _ tallies.2⟩
  | throw failure => exact handles _ _ tallies.1 tallies.2
  | call request next induction =>
      exact ⟨tallies.1, fun reply => induction reply (tallies.2 reply)⟩

/-- A composed program goes on with the records of its first part. -/
theorem tallies_bind
    {inner : List Record → Except Failure Result → Prop}
    {program : Program Reply Failure Result}
    {next : Result → Program Reply Failure Value}
    (tallies : program.Tallies record running inner records)
    (throws :
      ∀ records failure, inner records (.error failure) →
        final records (.error failure))
    (later :
      ∀ records value, running records → inner records (.ok value) →
        (next value).Tallies record running final records) :
    (program >>= next).Tallies record running final records := by
  induction program generalizing records with
  | ret value => exact later _ _ tallies.1 tallies.2
  | throw failure => exact ⟨tallies.1, throws _ _ tallies.2⟩
  | call request rest induction =>
      exact ⟨tallies.1, fun reply => induction reply (tallies.2 reply)⟩

end Tallies

end Program

/-! ## The records of a pool -/

/-- The arrivals among the events, in their order. -/
def arrivals (events : List (RuledEvent Arrival Ruling Change)) :
    List Arrival :=
  events.filterMap fun event =>
    match event with
    | .arrive arrival => some arrival
    | _ => none

/-- The calls of a run of actions have the same arrivals. -/
theorem arrivals_flatten
    {Decision : Type}
    {events : List (RuledEvent Arrival Decision Change)}
    {parts : List (List (RuledEvent Arrival Ruling Change))}
    (linearizes : List.Forall₂ Linearizes events parts) :
    arrivals parts.flatten = arrivals events := by
  induction linearizes with
  | nil => rfl
  | @cons event calls events parts here later induction =>
      have same : arrivals calls = arrivals [event] := by
        cases here with
        | arrive arrival => rfl
        | outside change => rfl
        | silent index decision => rfl
        | call index decision ruling => rfl
      rw [List.flatten_cons, ← List.singleton_append, arrivals, arrivals,
        List.filterMap_append, List.filterMap_append]
      exact congrArg₂ (· ++ ·) same induction

/-- One list grows by some elements, and so does what they are together. -/
theorem perm_flatten_set
    {Element : Type} {lists : List (List Element)} {index : Nat}
    {old : List Element} (present : lists[index]? = some old)
    (more : List Element) :
    ((lists.set index (old ++ more)).flatten).Perm
      (lists.flatten ++ more) := by
  induction lists generalizing index with
  | nil => cases present
  | cons first rest induction =>
      cases index with
      | zero =>
          cases present
          rw [List.set_cons_zero, List.flatten_cons, List.flatten_cons,
            List.append_assoc, List.append_assoc]
          exact List.perm_append_comm.append_left old
      | succ index =>
          rw [List.set_cons_succ, List.flatten_cons, List.flatten_cons,
            List.append_assoc]
          exact (induction present).append_left first

section Pool

variable (record : (request : Request) → Reply request → List Record)
variable (handler : Ruling → (request : Request) → World →
  Reply request × World)
variable (entry : Arrival → Program Reply Failure Value)
variable (apply : Change → World → World)

/-- The records that an event leaves. -/
def recorded (pool : Pool (Program Reply Failure Value) World) :
    RuledEvent Arrival Ruling Change → List Record
  | .advance index ruling =>
      match pool.threads[index]? with
      | some program =>
          program.recordsOfMove record (handler ruling) pool.world
      | none => []
  | _ => []

/-- The records of a run, in their order. -/
abbrev records
    (start : Pool (Program Reply Failure Value) World)
    (events : List (RuledEvent Arrival Ruling Change)) : List Record :=
  Transition.outputs (largeStep handler entry apply)
    (recorded record handler) start events

variable (running : Arrival → List Record → Prop)
variable (final : Arrival → List Record → Except Failure Value → Prop)

/-- Each thread, with what arrived and the records that it has left. -/
structure PoolTallies
    (arrived : List Arrival) (produced : List Record)
    (pool : Pool (Program Reply Failure Value) World)
    (ledger : List (Arrival × List Record)) : Prop where
  arrived : ledger.map Prod.fst = arrived
  produced : (ledger.map Prod.snd).flatten.Perm produced
  threads :
    List.Forall₂
      (fun account program =>
        program.Tallies record (running account.1) (final account.1)
          account.2)
      ledger pool.threads

variable {record handler entry apply running final}

/-- The account of a thread, and what it says when the thread has ended. -/
theorem PoolTallies.account
    {arrived : List Arrival} {produced : List Record}
    {pool : Pool (Program Reply Failure Value) World}
    {ledger : List (Arrival × List Record)}
    (tallies :
      PoolTallies record running final arrived produced pool ledger)
    {index : Nat} {arrival : Arrival} {own : List Record}
    (entered : ledger[index]? = some (arrival, own)) :
    running arrival own ∧
      ∀ outcome, pool.outcome? index = some outcome →
        final arrival own outcome := by
  rcases List.getElem?_eq_some_iff.mp entered with ⟨inside, same⟩
  have there : index < pool.threads.length := by
    rw [← tallies.threads.length_eq]
    exact inside
  have account := tallies.threads.get inside there
  simp only [List.get_eq_getElem, same] at account
  refine ⟨account.runs, fun outcome ended => account.ends ?_⟩
  rw [Pool.outcome?, List.getElem?_eq_getElem there] at ended
  exact ended

theorem poolTallies_empty (world : World) :
    PoolTallies record running final [] []
      (.empty world : Pool (Program Reply Failure Value) World) [] where
  arrived := rfl
  produced := .refl _
  threads := .nil

/-- A move of a thread is entered into its account. -/
theorem PoolTallies.advance
    {pool : Pool (Program Reply Failure Value) World}
    {arrived : List Arrival} {produced : List Record}
    {ledger : List (Arrival × List Record)}
    (tallies :
      PoolTallies record running final arrived produced pool ledger)
    (index : Nat) (ruling : Ruling) :
    ∃ later,
      PoolTallies record running final arrived
        (produced ++
          recorded record handler pool
            (.advance index ruling :
              RuledEvent Arrival Ruling Change))
        (largeStep handler entry apply pool (.advance index ruling))
        later := by
  cases present : pool.threads[index]? with
  | none =>
      refine ⟨ledger, ?_⟩
      rw [largeStep_of_none present]
      simpa only [recorded, present, List.append_nil] using tallies
  | some program =>
      rw [largeStep_of_some present]
      simp only [recorded, present]
      rcases List.getElem?_eq_some_iff.mp present with ⟨inside, same⟩
      have inLedger : index < ledger.length := by
        rw [tallies.threads.length_eq]
        exact inside
      have own := tallies.threads.get inLedger inside
      simp only [List.get_eq_getElem, same] at own
      have next := own.move (handler ruling) pool.world
      generalize program.recordsOfMove record (handler ruling) pool.world =
        new at next ⊢
      refine ⟨ledger.set index
        (ledger[index].1, ledger[index].2 ++ new), ?_, ?_, ?_⟩
      · have inNames : index < (ledger.map Prod.fst).length := by
          simpa using inLedger
        have self := List.set_getElem_self inNames
        rw [List.map_set, ← tallies.arrived]
        simpa using self
      · have present :
            (ledger.map Prod.snd)[index]? = some ledger[index].2 := by
          simp [List.getElem?_eq_getElem inLedger]
        rw [List.map_set]
        exact (perm_flatten_set present new).trans
          (tallies.produced.append_right new)
      · exact forall₂_set tallies.threads next index

theorem PoolTallies.step
    {pool : Pool (Program Reply Failure Value) World}
    {arrived : List Arrival} {produced : List Record}
    {ledger : List (Arrival × List Record)}
    (enters :
      ∀ arrival,
        (entry arrival).Tallies record (running arrival) (final arrival) [])
    (tallies :
      PoolTallies record running final arrived produced pool ledger)
    (event : RuledEvent Arrival Ruling Change) :
    ∃ later,
      PoolTallies record running final (arrived ++ arrivals [event])
        (produced ++ recorded record handler pool event)
        (largeStep handler entry apply pool event) later := by
  cases event with
  | arrive arrival =>
      refine ⟨ledger ++ [(arrival, [])], ?_, ?_, ?_⟩
      · rw [List.map_append, tallies.arrived]
        rfl
      · simpa [recorded] using tallies.produced
      · exact List.rel_append tallies.threads
          (.cons (enters arrival) .nil)
  | advance index ruling =>
      rw [show arrivals [(.advance index ruling :
        RuledEvent Arrival Ruling Change)] = [] from rfl, List.append_nil]
      exact tallies.advance index ruling
  | outside change =>
      refine ⟨ledger, ?_, ?_, tallies.threads⟩
      · rw [show arrivals [(.outside change :
          RuledEvent Arrival Ruling Change)] = [] from rfl, List.append_nil]
        exact tallies.arrived
      · simpa [recorded] using tallies.produced

/-- The records of every run are those of its threads together. -/
theorem exists_poolTallies
    (enters :
      ∀ arrival,
        (entry arrival).Tallies record (running arrival) (final arrival) [])
    (world : World) (events : List (RuledEvent Arrival Ruling Change)) :
    ∃ ledger,
      PoolTallies record running final (arrivals events)
        (records record handler entry apply (.empty world) events)
        (Transition.run (largeStep handler entry apply) (.empty world)
          events) ledger := by
  induction events using List.reverseRecOn with
  | nil => exact ⟨[], poolTallies_empty world⟩
  | append_singleton rest event induction =>
      rcases induction with ⟨ledger, tallies⟩
      rcases tallies.step enters event with ⟨later, next⟩
      refine ⟨later, ?_⟩
      rw [records, Transition.outputs_append, Transition.outputs_cons,
        Transition.outputs_nil, List.append_nil, Transition.run_append,
        arrivals, List.filterMap_append]
      exact next

end Pool

end LightningServer.Foundation
