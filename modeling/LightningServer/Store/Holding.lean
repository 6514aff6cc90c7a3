import LightningServer.Store.ProxyActions

/-!
# Which connections the threads hold

The discipline of `Foundation.Lending`, for threads that call the proxies
between other actions: a thread uses and gives back only connections that it
has taken and still holds.  An exception of a conversion leaves a thread with
the connection that it held, for ever.

`Owned` says who holds what, and `placed` counts the places of a connection;
no action changes that count.
-/

namespace LightningServer.Store

open LightningServer.Foundation
open LightningServer.Foundation.Numerals

/-- Connections that a thread holds, with the server that each belongs to. -/
abbrev Loans :=
  List (Server × Connection)

/-! ## The discipline -/

/-- The action is allowed to who holds this, and so is what follows. -/
def Action.Sound (held : Loans) :
    (action : Action) → (action.Answer → Loans → Prop) → Prop
  | .proxy access, later => access.Sound held later
  | .localTime, later => ∀ now, later now held

/-- Holding this, the code keeps the discipline until it ends. -/
def Holds {Value : Type} : Actions Value → Loans → Prop
  | .ret _, held => held = []
  | .throw _, _ => True
  | .call action next, held =>
      action.Sound held fun answer after => Holds (next answer) after

section Discipline

variable {Value Result : Type}

theorem Action.Sound.weaken
    {action : Action} {held : Loans}
    {later weaker : action.Answer → Loans → Prop}
    (sound : action.Sound held later)
    (implies : ∀ answer after, later answer after → weaker answer after) :
    action.Sound held weaker := by
  cases action with
  | proxy access => exact Access.Sound.weaken sound implies
  | localTime => exact fun now => implies now held (sound now)

theorem holds_bind
    {program : Actions Result} {next : Result → Actions Value}
    {held : Loans} (first : Holds program held)
    (later : ∀ value, Holds (next value) []) :
    Holds (program >>= next) held := by
  induction program generalizing held with
  | ret value =>
      rw [show held = [] from first]
      exact later value
  | throw exception => trivial
  | call action rest induction =>
      exact Action.Sound.weaken first
        fun answer after holds => induction answer holds

theorem holds_actions
    {driver : Driver Value} {held : Loans} (returns : driver.Returns held) :
    Holds (actions driver) held := by
  induction driver generalizing held with
  | ret value => exact returns
  | throw exception => trivial
  | call access next induction =>
      exact Access.Sound.weaken returns
        fun reply after later => induction reply later

theorem Call.holds_actions (call : Call) : Holds call.actions [] := by
  by_cases isClock : call = .localTime
  · subst isClock
    exact fun now => rfl
  · rw [Call.actions, dif_neg isClock]
    exact Store.holds_actions
      (Operation.returns_driver (.service call isClock))

theorem holds_expand
    {Outcome : Type} (program : Program Call.Reply StdException Outcome) :
    Holds (program.expand Call.actions) [] := by
  induction program with
  | ret value => rfl
  | throw exception => trivial
  | call call next induction =>
      exact holds_bind call.holds_actions induction

end Discipline

/-! ## One action -/

/-- At most one connection of each server. -/
def Single (held : Loans) : Prop :=
  ∀ server, shareOf server (fun _ => true) held ≤ 1

/-- What is granted does not depend on what the thread holds already. -/
theorem exists_grant_held
    {access : Access Server Connection Query} {choice : Choice Query.Answer}
    {stock : Server → List Connection}
    {granted :
      access.Reply Query.Answer × Loans × (Server → List Connection)}
    (isGranted : access.grant choice [] stock = some granted)
    (held : Loans) :
    ∃ after,
      access.grant choice held stock =
        some (granted.1, after, granted.2.2) := by
  cases access with
  | wait server =>
      simp only [Access.grant] at isGranted ⊢
      split at isGranted
      · cases isGranted
      · cases isGranted
        exact ⟨_, rfl⟩
  | waitFor server =>
      simp only [Access.grant] at isGranted ⊢
      split at isGranted
      · split at isGranted
        · next isOver =>
            cases isGranted
            exact ⟨_, if_pos isOver⟩
        · cases isGranted
      · cases isGranted
        exact ⟨_, rfl⟩
  | use server conn query =>
      cases isGranted
      exact ⟨_, rfl⟩
  | release server conn =>
      cases isGranted
      exact ⟨_, rfl⟩

theorem shareOf_erase_le
    (server : Server) (counts : Connection → Bool) (held : Loans)
    (loan : Server × Connection) :
    shareOf server counts (held.erase loan) ≤
      shareOf server counts held :=
  (List.erase_sublist ..).countP_le

/-- Who holds no connection of a server may take one. -/
theorem single_cons
    {held : Loans} (single : Single held) {server : Server}
    (lacks : ∀ loan ∈ held, loan.1 ≠ server) (conn : Connection) :
    Single ((server, conn) :: held) := by
  intro other
  rw [shareOf_cons]
  by_cases same : server = other
  · subst same
    have none : shareOf server (fun _ => true) held = 0 := by
      rw [shareOf, List.countP_eq_zero]
      intro loan isHeld
      simp [lacks loan isHeld]
    rw [none, if_pos rfl]
    exact Nat.le_refl 1
  · rw [if_neg same]
    exact single other

theorem Access.Sound.single
    {access : Access Server Connection Query} {held : Loans}
    {later : access.Reply Query.Answer → Loans → Prop}
    (sound : access.Sound held later) (single : Single held)
    {choice : Choice Query.Answer} {stock rest : Server → List Connection}
    {reply : access.Reply Query.Answer} {after : Loans}
    (granted : access.grant choice held stock = some (reply, after, rest)) :
    Single after := by
  cases access with
  | wait server =>
      simp only [Access.grant] at granted
      split at granted
      · cases granted
      · cases granted
        exact single_cons single sound.1 _
  | waitFor server =>
      simp only [Access.grant] at granted
      split at granted
      · split at granted
        · cases granted
          exact single
        · cases granted
      · cases granted
        exact single_cons single sound.1 _
  | use server conn query =>
      cases granted
      exact single
  | release server conn =>
      cases granted
      exact fun other =>
        Nat.le_trans (shareOf_erase_le ..) (single other)

section Move

variable {Value : Type}
variable {unsent : Statement → World → Option (List Row) × World}

/-- A move keeps the connections of the thread and the pools together. -/
theorem exists_loans_attempt
    {program : Actions Value} {held : Loans}
    (holds : Holds program held) (single : Single held)
    (decision : Decision) (servers : Servers) :
    let moved := program.attempt (perform unsent decision) servers
    ∃ after, Holds moved.1 after ∧ Single after ∧
      ∀ server counts,
        (moved.2.stock server).countP counts +
            shareOf server counts after =
          (servers.stock server).countP counts +
            shareOf server counts held := by
  intro moved
  cases program with
  | ret value => exact ⟨held, holds, single, fun _ _ => rfl⟩
  | throw exception => exact ⟨held, holds, single, fun _ _ => rfl⟩
  | call action next =>
      simp only [moved, Program.attempt]
      cases performed : perform unsent decision action servers with
      | none => exact ⟨held, holds, single, fun _ _ => rfl⟩
      | some outcome =>
          cases action with
          | localTime =>
              cases performed
              exact ⟨held, holds _, single, fun _ _ => rfl⟩
          | proxy access =>
              rcases Option.map_eq_some_iff.mp performed with
                ⟨granted, isGranted, same⟩
              cases same
              rcases exists_grant_held isGranted held with
                ⟨after, grantedHeld⟩
              rcases Access.Sound.of_grant holds grantedHeld with
                ⟨later, kept⟩
              exact ⟨after, later,
                Access.Sound.single holds single grantedHeld, kept⟩

end Move

/-! ## All threads -/

section Threads

variable {Value : Type}
variable {unsent : Statement → World → Option (List Row) × World}

/-- What each thread holds. -/
def Owned (holding : List Loans) (pool : Pool (Actions Value) Servers) :
    Prop :=
  List.Forall₂ (fun held program => Holds program held ∧ Single held)
    holding pool.threads

/-- In how many places a connection is, outside of the servers. -/
def placed (holding : List Loans) (stock : Server → List Connection)
    (server : Server) (conn : Connection) : Nat :=
  (stock server).count conn +
    (holding.map fun held => held.count (server, conn)).sum

theorem single_nil : Single [] :=
  fun _ => Nat.zero_le 1

/-- The thread at a position, with what it holds. -/
theorem Owned.thread
    {holding : List Loans} {pool : Pool (Actions Value) Servers}
    (owned : Owned holding pool) {index : Nat} {program : Actions Value}
    (present : pool.threads[index]? = some program) :
    ∃ held, holding[index]? = some held ∧ Holds program held ∧
      Single held := by
  rcases List.getElem?_eq_some_iff.mp present with ⟨inside, rfl⟩
  have there : index < holding.length := by
    rw [List.Forall₂.length_eq owned]
    exact inside
  exact ⟨holding[index], List.getElem?_eq_getElem there,
    List.Forall₂.get owned there inside⟩

/-- The connections that are counted one by one. -/
theorem countP_decide_eq (conn : Connection) (conns : List Connection) :
    conns.countP (fun other => decide (other = conn)) =
      conns.count conn := by
  rw [List.count_eq_countP]
  exact List.countP_congr fun other _ => by simp

variable {Arrival Change : Type}
variable {entry : Arrival → Actions Value}
variable {apply : Change → Servers → Servers}

/-- An event leaves every connection in as many places as before. -/
theorem Owned.step
    {holding : List Loans} {pool : Pool (Actions Value) Servers}
    (owned : Owned holding pool)
    (entries : ∀ arrival, Holds (entry arrival) [])
    (unseen : ∀ change servers, (apply change servers).stock = servers.stock)
    (event : RuledEvent Arrival Decision Change) :
    let next :=
      Pool.ruledStep entry
        (fun decision => Program.attempt (perform unsent decision)) apply
        pool event
    ∃ later, Owned later next ∧
      ∀ server conn,
        placed later next.world.stock server conn =
          placed holding pool.world.stock server conn := by
  intro next
  cases event with
  | arrive arrival =>
      refine ⟨holding ++ [[]], ?_, fun server conn => ?_⟩
      · exact List.rel_append owned
          (.cons ⟨entries arrival, single_nil⟩ .nil)
      · simp [placed, next, Pool.ruledStep]
  | outside change =>
      refine ⟨holding, owned, fun server conn => ?_⟩
      simp only [placed, next, Pool.ruledStep, unseen]
  | advance index decision =>
      cases present : pool.threads[index]? with
      | none =>
          have same : next = pool :=
            Pool.ruledStep_advance_of_none _ _ _ present decision
          rw [same]
          exact ⟨holding, owned, fun _ _ => rfl⟩
      | some program =>
          have isNext :
              next =
                pool.moved index
                  (program.attempt (perform unsent decision) pool.world) :=
            Pool.ruledStep_advance_of_some _ _ _ present decision
          rcases owned.thread present with ⟨held, isHeld, holds, single⟩
          rcases exists_loans_attempt holds single decision pool.world with
            ⟨after, later, stillSingle, kept⟩
          rw [isNext]
          refine ⟨holding.set index after,
            forall₂_set owned ⟨later, stillSingle⟩ index,
            fun server conn => ?_⟩
          have counted := kept server fun other => decide (other = conn)
          rw [shareOf_eq_count, shareOf_eq_count, countP_decide_eq,
            countP_decide_eq] at counted
          have replaced :=
            Lending.sum_map_set isHeld after
              fun held => held.count (server, conn)
          simp only [placed, Pool.moved]
          omega

/-- The connection that a thread works with is its own. -/
theorem Owned.mem_of_employs
    {holding : List Loans} {pool : Pool (Actions Value) Servers}
    (owned : Owned holding pool) {index : Nat} {program : Actions Value}
    (present : pool.threads[index]? = some program)
    {access : Access Server Connection Query}
    (isNext : program.nextCall = some (.proxy access))
    {server : Server} {conn : Connection}
    (employs : access.employs = some (server, conn)) :
    0 < (holding.map fun held => held.count (server, conn)).sum := by
  rcases owned.thread present with ⟨held, isHeld, holds, -⟩
  have mine : (server, conn) ∈ held := by
    cases program with
    | ret value => cases isNext
    | throw exception => cases isNext
    | call action next =>
        cases isNext
        cases access with
        | wait server => cases employs
        | waitFor server => cases employs
        | use server conn query =>
            cases employs
            exact holds.1
        | release server conn =>
            cases employs
            exact holds.1
  have one : 0 < held.count (server, conn) := List.count_pos_iff.mpr mine
  have without :=
    Lending.sum_map_set isHeld [] fun held => held.count (server, conn)
  rw [List.count_nil] at without
  omega

end Threads

end LightningServer.Store
