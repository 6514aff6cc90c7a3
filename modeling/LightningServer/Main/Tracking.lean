import LightningServer.Main.Tasks
import LightningServer.Store.Holding

/-!
# Where the connections are

A connection that `init` has opened is in its pool, held by one task, or
closed; only a connection that `init` fails to get may be nowhere.
-/

namespace LightningServer.Main

open LightningServer.Foundation
open LightningServer.Foundation.Numerals
open LightningServer.Net
open LightningServer.Store
open LightningServer.Handler

/-- The places of a connection: closed, in its pool, or held. -/
def places (process : Process) (holding : List Loans) (server : Server)
    (conn : Connection) : Nat :=
  (process.closed server).count conn +
    placed holding process.tasks.world.stock server conn

/-- A connection that has been opened, counted. -/
def openings (process : Process) (server : Server) (conn : Connection) :
    Nat :=
  if conn < process.opened server then 1 else 0

/-- Every connection that was opened is in one place, or was lost early. -/
structure Tracked (process : Process) (holding : List Loans) : Prop where
  owned : Owned holding process.tasks
  once :
    ∀ server conn,
      places process holding server conn ≤ openings process server conn
  exact :
    process.stage.unharmed = true →
      ∀ server conn,
        places process holding server conn =
          openings process server conn

/-- An action of the tasks leaves every connection where it is counted. -/
theorem owned_actionStep
    {json : JsonLibrary}
    {unsent : Statement → World → Option (List Row) × World}
    {holding : List Loans} {tasks : Tasks} (owned : Owned holding tasks)
    (event : ActionEvent) :
    let next := actionStep json unsent tasks event
    ∃ later, Owned later next ∧
      ∀ server conn,
        placed later next.world.stock server conn =
          placed holding tasks.world.stock server conn := by
  have entries :
      ∀ task, Holds ((taskCode json task).expand Call.actions) [] :=
    fun task => holds_expand _
  have unseen :
      ∀ key servers, (timeOutKey key servers).stock = servers.stock :=
    fun _ _ => rfl
  exact owned.step entries unseen event

section Tracked

variable {config : ServerConfig} {json : JsonLibrary}
variable {unsent : Statement → World → Option (List Row) × World}
variable {process later : Process} {holding more : List Loans}

theorem tracked_start (world : World) : Tracked (.start world) [] where
  owned := .nil
  once _ _ := Nat.zero_le _
  exact _ _ _ := rfl

/-- A step that opens nothing and moves connections about. -/
theorem Tracked.congr
    (tracked : Tracked process holding) (owned : Owned more later.tasks)
    (opened : later.opened = process.opened)
    (stage : later.stage.unharmed = true → process.stage.unharmed = true)
    (same :
      ∀ server conn,
        places later more server conn =
          places process holding server conn) :
    Tracked later more where
  owned := owned
  once server conn := by
    rw [same, openings, opened]
    exact tracked.once server conn
  exact unharmed server conn := by
    rw [same, openings, opened]
    exact tracked.exact (stage unharmed) server conn

theorem Tracked.ioStep
    (tracked : Tracked process holding)
    {started : Option ApiTask}
    (isStep : IoStep json unsent process later started)
    (frame : Frame process later) :
    ∃ more, Tracked later more := by
  have stage :
      later.stage.unharmed = true → process.stage.unharmed = true := by
    intro unharmed
    rcases frame.stage with same | dead
    · rw [← same]
      exact unharmed
    · rw [dead] at unharmed
      cases unharmed
  have acts (event : ActionEvent)
      (stepped :
        later.tasks = actionStep json unsent process.tasks event) :
      ∃ more, Tracked later more := by
    rcases @owned_actionStep json unsent holding process.tasks
        tracked.owned event with ⟨more, owned, same⟩
    refine ⟨more, tracked.congr (stepped ▸ owned) frame.opened stage ?_⟩
    intro server conn
    rw [places, places, frame.closed, stepped]
    exact congrArg _ (same server conn)
  rcases isStep.tasks_cases with
    ⟨same, -⟩ | ⟨key, timedOut, -⟩ | ⟨-, event, stepped, -⟩
  · refine ⟨holding, tracked.congr ?_ frame.opened stage ?_⟩
    · rw [same]
      exact tracked.owned
    · intro server conn
      rw [places, places, frame.closed, same]
  · exact acts _ timedOut
  · exact acts event stepped

/-- The stock and the closed connections of one server are exchanged. -/
theorem places_update
    (process : Process) (holding : List Loans) (server other : Server)
    (closed stock : List Connection) (conn : Connection) :
    (Function.update process.closed server closed other).count conn +
        placed holding
          (Function.update process.tasks.world.stock server stock) other
          conn =
      if other = server then
        closed.count conn + stock.count conn +
          (holding.map fun held => held.count (other, conn)).sum
      else places process holding other conn := by
  by_cases same : other = server
  · subst same
    rw [if_pos rfl, placed, Function.update_self, Function.update_self,
      Nat.add_assoc]
  · rw [if_neg same, placed, Function.update_of_ne same,
      Function.update_of_ne same, places, placed]

theorem Tracked.shutdown
    (tracked : Tracked process holding) (server : Server) {next : Stage}
    (stage : next.unharmed = true → process.stage.unharmed = true) :
    Tracked { process.shutdown server with stage := next } holding := by
  rw [Process.shutdown]
  split
  · refine tracked.congr tracked.owned rfl stage fun other conn => ?_
    refine (places_update process holding server other _ _ conn).trans ?_
    by_cases same : other = server
    · subst same
      rw [if_pos rfl, places, placed, List.count_append, List.count_nil]
      omega
    · rw [if_neg same]
  · exact tracked.congr tracked.owned rfl stage fun _ _ => rfl

/-- One more connection is opened, and put into one place or none. -/
theorem Tracked.opened
    (tracked : Tracked process holding) (server : Server)
    {put : List Connection}
    (opened :
      later.opened =
        Function.update process.opened server (process.opened server + 1))
    (owned : Owned holding later.tasks)
    (added :
      ∀ other conn,
        places later holding other conn =
          places process holding other conn +
            if other = server then put.count conn else 0)
    (most : put.Sublist [process.opened server])
    (exact :
      later.stage.unharmed = true →
        process.stage.unharmed = true ∧ put = [process.opened server]) :
    Tracked later holding := by
  have openings_later (other : Server) (conn : Connection) :
      openings later other conn =
        openings process other conn +
          if other = server then [process.opened server].count conn
          else 0 := by
    rw [openings, opened, openings]
    by_cases same : other = server
    · subst same
      rw [Function.update_self, if_pos rfl, List.count_singleton]
      by_cases isNew : process.opened other = conn
      · simp [isNew]
      · have apart :
            conn < process.opened other + 1 ↔
              conn < process.opened other :=
          ⟨fun less => Nat.lt_of_le_of_ne (Nat.le_of_lt_succ less)
            (Ne.symm isNew), Nat.lt_succ_of_lt⟩
        simp [isNew, apart]
    · rw [Function.update_of_ne same, if_neg same, Nat.add_zero]
  refine ⟨owned, ?_, ?_⟩
  · intro other conn
    have before := tracked.once other conn
    have few := most.count_le conn
    rw [added, openings_later]
    split
    · omega
    · omega
  · intro unharmed other conn
    rcases exact unharmed with ⟨still, rfl⟩
    rw [added, openings_later, tracked.exact still]

theorem Tracked.init
    (tracked : Tracked process holding) (server : Server) {next : Stage}
    (unharmed : process.stage.unharmed = true) (size : Int)
    (attempt : Attempt) :
    Tracked (process.init server size next attempt) holding := by
  rw [Process.init]
  split
  · exact tracked.congr tracked.owned rfl (fun _ => unharmed)
      fun _ _ => rfl
  · cases attempt with
    | noHandle =>
        refine tracked.opened server rfl tracked.owned ?_
          (List.nil_sublist _) (absurd · Bool.false_ne_true)
        intro other conn
        rw [List.count_nil, ite_self]
        rfl
    | succeeds =>
        refine tracked.opened server rfl tracked.owned ?_
          (List.Sublist.refl _) fun same => ⟨same, rfl⟩
        intro other conn
        simp only [places, placed, Process.setStock]
        by_cases same : other = server
        · subst same
          rw [if_pos rfl, Function.update_self, List.count_append]
          omega
        · rw [if_neg same, Function.update_of_ne same]
          rfl
    | fails =>
        cases server with
        | redis =>
            refine tracked.opened .redis rfl tracked.owned ?_
              (List.nil_sublist _) (absurd · Bool.false_ne_true)
            intro other conn
            simp [places]
        | mysql =>
            refine tracked.opened .mysql rfl tracked.owned ?_
              (List.Sublist.refl _) (absurd · Bool.false_ne_true)
            intro other conn
            cases other with
            | redis => simp [places]
            | mysql =>
                simp only [places, Function.update_self, if_true,
                  List.count_append]
                omega

theorem Tracked.mainStep
    (tracked : Tracked process holding) (attempt : Attempt) :
    Tracked (process.mainStep config attempt) holding := by
  have stage := (goes_mainStep config process attempt).unharmed_of
  revert stage
  rw [Process.mainStep]
  split
  · next isStage =>
      intro _
      exact tracked.init .mysql (by rw [isStage]; rfl) _ attempt
  · next isStage =>
      intro _
      exact tracked.init .redis (by rw [isStage]; rfl) _ attempt
  · split
    · exact fun stage => tracked.congr tracked.owned rfl stage fun _ _ => rfl
    · exact fun stage => tracked.congr tracked.owned rfl stage fun _ _ => rfl
  · exact fun stage => tracked.congr tracked.owned rfl stage fun _ _ => rfl
  · exact fun stage => tracked.congr tracked.owned rfl stage fun _ _ => rfl
  · rw [Process.startThread]
    split
    · exact fun stage => tracked.congr tracked.owned rfl stage fun _ _ => rfl
    split
    · exact fun stage => tracked.congr tracked.owned rfl stage fun _ _ => rfl
    split
    · exact fun stage => tracked.congr tracked.owned rfl stage fun _ _ => rfl
    · exact fun stage => tracked.congr tracked.owned rfl stage fun _ _ => rfl
  · split
    · exact fun _ => tracked
    · exact fun stage => tracked.congr tracked.owned rfl stage fun _ _ => rfl
  · exact fun stage => tracked.congr tracked.owned rfl stage fun _ _ => rfl
  · exact fun stage => tracked.congr tracked.owned rfl stage fun _ _ => rfl
  · exact fun stage => tracked.congr tracked.owned rfl stage fun _ _ => rfl
  · split
    · exact fun stage => tracked.congr tracked.owned rfl stage fun _ _ => rfl
    · exact fun stage => tracked.congr tracked.owned rfl stage fun _ _ => rfl
    · exact fun _ => tracked
  · exact fun stage => tracked.shutdown .redis stage
  · exact fun stage => tracked.shutdown .mysql stage
  · exact fun stage => tracked.shutdown .redis stage
  · exact fun stage => tracked.shutdown .mysql stage
  · exact fun _ => tracked
  · exact fun _ => tracked

theorem exists_tracked (world : World) (events : List ProcessEvent) :
    ∃ holding,
      Tracked (processRun json unsent config world events) holding := by
  refine Transition.run_invariant
    (fun process => ∃ holding, Tracked process holding) ?_ events
    ⟨[], tracked_start world⟩
  rintro process event ⟨holding, tracked⟩
  cases step_cases config process event with
  | ceased isOver same =>
      rw [same]
      exact ⟨holding, tracked⟩
  | main attempt isMain isStep =>
      rw [isStep]
      exact ⟨holding, tracked.mainStep attempt⟩
  | outside alive _ isStep frame => exact tracked.ioStep isStep frame

end Tracked

end LightningServer.Main
