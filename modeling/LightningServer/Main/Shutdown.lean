import LightningServer.Handler.ApiProgress
import LightningServer.Main.Tracking

/-!
# Every connection is closed once

`CacheProxy::shutdown` and `DatabaseProxy::shutdown` close what is in their
pools, and `main` calls them after it has joined the IO threads.  So no
connection is closed that a handler still uses, and none is closed twice,
although the destructors call `shutdown` again.  All connections of Redis are
in the pool by then; of the connections of MySQL those are missing that were
held when a conversion threw.
-/

namespace LightningServer.Main

open LightningServer.Foundation
open LightningServer.Foundation.Numerals
open LightningServer.Net
open LightningServer.Store
open LightningServer.Handler

/-! ## The connections of Redis -/

section Redis

variable {config : ServerConfig} {json : JsonLibrary}
variable {unsent : Statement → World → Option (List Row) × World}
variable {process : Process}

/-- The connections of Redis that nobody holds. -/
def returnedRedis (process : Process) : Nat :=
  (process.closed .redis).length +
    (process.tasks.world.stock .redis).length

theorem returnedRedis_shutdown (process : Process) (server : Server) :
    returnedRedis (process.shutdown server) = returnedRedis process := by
  rw [Process.shutdown]
  split
  · cases server with
    | redis => simp [returnedRedis, Process.setStock]
    | mysql => simp [returnedRedis, Process.setStock]
  · rfl

/-- At the end of `main` only its own steps matter. -/
theorem returnedRedis_mainStep
    (ends : process.stage.ends = true) (attempt : Attempt) :
    returnedRedis (process.mainStep config attempt) =
      returnedRedis process := by
  rw [Process.mainStep]
  split
  · next isStage =>
      rw [isStage] at ends
      cases ends
  · next isStage =>
      rw [isStage] at ends
      cases ends
  · next isStage =>
      rw [isStage] at ends
      cases ends
  · rfl
  · rfl
  · next isStage =>
      rw [isStage] at ends
      cases ends
  · next isStage =>
      rw [isStage] at ends
      cases ends
  · rfl
  · rfl
  · rfl
  · next isStage =>
      rw [isStage] at ends
      cases ends
  · exact returnedRedis_shutdown process .redis
  · exact returnedRedis_shutdown process .mysql
  · exact returnedRedis_shutdown process .redis
  · exact returnedRedis_shutdown process .mysql
  · rfl
  · rfl

/-- Before the shutdown every connection of Redis is in the pool. -/
theorem free_of_allEnded
    {world : World} {actions : List ActionEvent}
    (ended :
      (actionRun json unsent (fullStock config) world actions).AllEnded) :
    ((actionRun json unsent (fullStock config) world
        actions).world.stock .redis).length =
      (config.poolSize .redis).toNat := by
  rcases exists_redisCensus json unsent (fullStock config) world actions
    with ⟨holding, census⟩
  exact (census.free_of_allEnded ended).trans List.length_range

/-- The shutdown begins with a full pool of Redis, and loses nothing. -/
def RedisKept (config : ServerConfig) (process : Process) : Prop :=
  process.stage.ends = true → process.stage.unharmed = true →
    (config.poolSize .redis).toNat ≤ returnedRedis process

theorem RedisKept.mainStep
    (kept : RedisKept config process) (sound : Sound config process)
    (drained :
      process.stage.serves = true → process.tasks.AllEnded →
        (config.poolSize .redis).toNat ≤ returnedRedis process)
    (attempt : Attempt) :
    RedisKept config (process.mainStep config attempt) := by
  intro ends unharmed
  have goes := goes_mainStep config process attempt
  rcases goes.joined_of ends unharmed with
    before | ⟨index, isStage, finished⟩
  · rw [returnedRedis_mainStep before]
    exact kept before (goes.unharmed_of unharmed)
  · have isLast :
        process.mainStep config attempt =
          { process with stage := .shutdownCache } := by
      simp only [Process.mainStep, isStage, finished]
    have later := sound.mainStep attempt
    rw [isLast] at later ⊢
    exact drained (by rw [isStage]; rfl) (later.allEnded (later.ends rfl))

theorem RedisKept.ioStep
    {later : Process} (kept : RedisKept config process)
    (sound : Sound config process)
    {started : Option ApiTask}
    (isStep : IoStep json unsent process later started)
    (frame : Frame process later) : RedisKept config later := by
  intro ends unharmed
  rcases frame.stage with same | dead
  · rw [same] at ends unharmed
    have stock :
        later.tasks.world.stock = process.tasks.world.stock := by
      rcases isStep.tasks_of_left (sound.ends ends) with
        sameTasks | ⟨key, timedOut⟩
      · rw [sameTasks]
      · rw [timedOut]
        rfl
    rw [returnedRedis, frame.closed, stock]
    exact kept ends unharmed
  · rw [dead] at ends
    cases ends

theorem redisKept_run (world : World) (events : List ProcessEvent) :
    RedisKept config (processRun json unsent config world events) := by
  induction events using List.reverseRecOn with
  | nil => nofun
  | append_singleton rest event induction =>
      have sound : Sound config (processRun json unsent config world rest) :=
        sound_run world rest
      rcases @exists_follows config json unsent world rest with
        ⟨actions, -, -, follows⟩
      rw [processRun_concat]
      cases step_cases config (processRun json unsent config world rest)
          event with
      | ceased isOver same =>
          rw [same]
          exact induction
      | main attempt isMain isStep =>
          rw [isStep]
          refine induction.mainStep sound (fun serves ended => ?_) attempt
          rw [returnedRedis, follows.tasks_eq serves]
          rw [follows.tasks_eq serves] at ended
          rw [free_of_allEnded ended]
          exact Nat.le_add_left _ _
      | outside alive _ isStep frame =>
          exact induction.ioStep sound isStep frame

end Redis

/-! ## The pools after the shutdown -/

namespace Stage

/-- The proxy has been initialized, and not been shut down. -/
def keepsOpen : Stage → Server → Bool
  | .initCache, .mysql => true
  | .construct, _ => true
  | .scheduleSync, _ => true
  | .startAccept, _ => true
  | .shutdownCache, _ => true
  | .shutdownDatabase, .mysql => true
  | stage, _ => stage.serves

/-- The proxy has been shut down. -/
def emptied : Stage → Server → Bool
  | .shutdownDatabase, .redis => true
  | .destroyCache status, _ => status = 0
  | .destroyDatabase status, _ => status = 0
  | .returned status, _ => status = 0
  | _, _ => false

end Stage

/-- What `initialized_` and the pools are. -/
structure Switched (process : Process) : Prop where
  initialized :
    ∀ server, process.stage.keepsOpen server = true →
      process.initialized server = true
  emptied :
    ∀ server, process.stage.emptied server = true →
      process.tasks.world.stock server = []

section Switched

variable {config : ServerConfig} {json : JsonLibrary}
variable {unsent : Statement → World → Option (List Row) × World}
variable {process later : Process}

theorem switched_start (world : World) : Switched (.start world) where
  initialized _ := nofun
  emptied _ := nofun

theorem Switched.congr
    (switched : Switched process)
    (initialized : later.initialized = process.initialized)
    (opens :
      ∀ server, later.stage.keepsOpen server = true →
        process.stage.keepsOpen server = true)
    (emptied :
      ∀ server, later.stage.emptied server = true →
        process.stage.emptied server = true ∧
          later.tasks.world.stock = process.tasks.world.stock) :
    Switched later where
  initialized server isOpen := by
    rw [initialized]
    exact switched.initialized server (opens server isOpen)
  emptied server isEmptied := by
    rcases emptied server isEmptied with ⟨before, same⟩
    rw [same]
    exact switched.emptied server before

/-- A step that leaves the proxies alone, on the way to the shutdown. -/
theorem Switched.moved
    (switched : Switched process)
    (initialized : later.initialized = process.initialized)
    {stage : Stage} (isStage : process.stage = stage)
    (opens : ∀ server, stage.keepsOpen server = true)
    (notYet : ∀ server, later.stage.emptied server = false) :
    Switched later := by
  refine switched.congr initialized (fun server _ => isStage ▸ opens server)
    fun server isEmptied => ?_
  rw [notYet] at isEmptied
  cases isEmptied

/-- Nothing is asked of the proxies at a stage of neither kind. -/
theorem switched_of_neither
    (closed : ∀ server, process.stage.keepsOpen server = false)
    (notYet : ∀ server, process.stage.emptied server = false) :
    Switched process where
  initialized server isOpen := by
    rw [closed] at isOpen
    cases isOpen
  emptied server isEmptied := by
    rw [notYet] at isEmptied
    cases isEmptied

theorem Switched.ioStep
    (switched : Switched process) (sound : Sound config process)
    {started : Option ApiTask}
    (isStep : IoStep json unsent process later started)
    (frame : Frame process later) : Switched later := by
  rcases frame.stage with same | dead
  · refine switched.congr frame.initialized (by simp [same]) ?_
    intro server isEmptied
    rw [same] at isEmptied
    refine ⟨isEmptied, ?_⟩
    have ends : process.stage.ends = true := by
      cases isStage : process.stage
      all_goals first
        | rfl
        | (rw [isStage] at isEmptied
           cases isEmptied)
    rcases isStep.tasks_of_left (sound.ends ends) with
      sameTasks | ⟨key, timedOut⟩
    · rw [sameTasks]
    · rw [timedOut]
      rfl
  · refine switched.congr frame.initialized ?_ ?_
    · rw [dead]
      exact fun _ impossible => by cases impossible
    · rw [dead]
      exact fun _ impossible => by cases impossible

theorem stock_shutdown
    {server : Server} (initialized : process.initialized server = true) :
    (process.shutdown server).tasks.world.stock server = [] := by
  rw [Process.shutdown, if_pos initialized]
  exact Function.update_self ..

theorem stock_shutdown_of_nil
    {other : Server} (isNil : process.tasks.world.stock other = [])
    (server : Server) :
    (process.shutdown server).tasks.world.stock other = [] := by
  rw [Process.shutdown]
  split
  · by_cases same : other = server
    · subst same
      exact Function.update_self ..
    · exact (Function.update_of_ne same _ _).trans isNil
  · exact isNil

theorem initialized_shutdown
    {server other : Server} (apart : other ≠ server) :
    (process.shutdown server).initialized other =
      process.initialized other := by
  rw [Process.shutdown]
  split
  · exact Function.update_of_ne apart ..
  · rfl

theorem Switched.init
    (switched : Switched process) {server : Server} {next : Stage}
    (opens :
      ∀ other, next.keepsOpen other = true →
        other = server ∨ process.stage.keepsOpen other = true)
    (before : ∀ other, ¬ process.stage.emptied other = true)
    (nothing : ∀ other, ¬ next.emptied other = true) (size : Int)
    (attempt : Attempt) :
    Switched (process.init server size next attempt) := by
  rw [Process.init]
  split
  · constructor
    · intro other isOpen
      by_cases same : other = server
      · subst same
        exact Function.update_self ..
      · rcases opens other isOpen with rfl | already
        · exact absurd rfl same
        · exact (Function.update_of_ne same _ _).trans
            (switched.initialized other already)
    · intro other isEmptied
      exact absurd isEmptied (nothing other)
  · cases attempt with
    | succeeds =>
        refine ⟨switched.initialized, fun other isEmptied => ?_⟩
        exact absurd isEmptied (before other)
    | fails => exact switched_of_neither (fun _ => rfl) fun _ => rfl
    | noHandle => exact switched_of_neither (fun _ => rfl) fun _ => rfl

/-- The shutdown of one proxy, when the pools of the others are known. -/
theorem Switched.shutdown
    (switched : Switched process) {server : Server} {next : Stage}
    (opens :
      ∀ other, next.keepsOpen other = true →
        other ≠ server ∧ process.stage.keepsOpen other = true)
    (emptied :
      ∀ other, next.emptied other = true →
        process.stage.emptied other = true ∨
          other = server ∧ process.stage.keepsOpen server = true) :
    Switched { process.shutdown server with stage := next } where
  initialized other isOpen := by
    rcases opens other isOpen with ⟨apart, already⟩
    exact (initialized_shutdown apart).trans
      (switched.initialized other already)
  emptied other isEmptied := by
    rcases emptied other isEmptied with before | ⟨rfl, isOpen⟩
    · exact stock_shutdown_of_nil (switched.emptied other before) server
    · exact stock_shutdown (switched.initialized other isOpen)

theorem Switched.startThread
    (switched : Switched process) (isStage : process.stage = .startThreads)
    (threadNum : Int) (attempt : Attempt) :
    Switched (process.startThread threadNum attempt) := by
  rw [Process.startThread]
  split
  · exact switched_of_neither (fun _ => rfl) fun _ => rfl
  split
  · exact switched.moved rfl isStage (fun _ => rfl) fun _ => rfl
  split
  · exact switched.congr rfl (fun _ same => same) fun _ same => ⟨same, rfl⟩
  · exact switched_of_neither (fun _ => rfl) fun _ => rfl

theorem Switched.mainStep
    (switched : Switched process) (attempt : Attempt) :
    Switched (process.mainStep config attempt) := by
  rw [Process.mainStep]
  split
  · next isStage =>
      refine switched.init ?_ ?_ ?_ _ attempt
      · intro other isOpen
        cases other with
        | mysql => exact .inl rfl
        | redis => cases isOpen
      · rw [isStage]
        exact fun _ flag => absurd flag Bool.false_ne_true
      · intro other isEmptied
        cases other with
        | mysql => cases isEmptied
        | redis => cases isEmptied
  · next isStage =>
      refine switched.init ?_ ?_ ?_ _ attempt
      · intro other _
        cases other with
        | redis => exact .inl rfl
        | mysql =>
            rw [isStage]
            exact .inr rfl
      · rw [isStage]
        exact fun _ flag => absurd flag Bool.false_ne_true
      · intro other isEmptied
        cases other with
        | mysql => cases isEmptied
        | redis => cases isEmptied
  · next isStage =>
      split
      · exact switched.moved rfl isStage (fun _ => rfl) fun _ => rfl
      · exact switched_of_neither (fun _ => rfl) fun _ => rfl
  · next isStage =>
      exact switched.moved rfl isStage (fun _ => rfl) fun _ => rfl
  · next isStage =>
      exact switched.moved rfl isStage (fun _ => rfl) fun _ => rfl
  · next isStage => exact switched.startThread isStage _ attempt
  · next isStage =>
      split
      · exact switched
      · exact switched.moved rfl isStage (fun _ => rfl) fun _ => rfl
  · next isStage =>
      exact switched.moved rfl isStage (fun _ => rfl) fun _ => rfl
  · next isStage =>
      exact switched.moved rfl isStage (fun _ => rfl) fun _ => rfl
  · next isStage =>
      exact switched.moved rfl isStage (fun _ => rfl) fun _ => rfl
  · next index isStage =>
      split
      · exact switched.moved rfl isStage (fun _ => rfl) fun _ => rfl
      · exact switched.moved rfl isStage (fun _ => rfl) fun _ => rfl
      · exact switched
  · next isStage =>
      refine switched.shutdown ?_ ?_
      · rw [isStage]
        intro other isOpen
        cases other with
        | mysql => exact ⟨by decide, rfl⟩
        | redis => cases isOpen
      · rw [isStage]
        intro other isEmptied
        cases other with
        | mysql => cases isEmptied
        | redis => exact .inr ⟨rfl, rfl⟩
  · next isStage =>
      refine switched.shutdown ?_ ?_
      · rw [isStage]
        intro other isOpen
        cases isOpen
      · rw [isStage]
        intro other _
        cases other with
        | mysql => exact .inr ⟨rfl, rfl⟩
        | redis => exact .inl rfl
  · next status isStage =>
      refine switched.shutdown ?_ ?_
      · rw [isStage]
        intro other isOpen
        cases isOpen
      · rw [isStage]
        exact fun other isEmptied => .inl isEmptied
  · next status isStage =>
      refine switched.shutdown ?_ ?_
      · rw [isStage]
        intro other isOpen
        cases isOpen
      · rw [isStage]
        exact fun other isEmptied => .inl isEmptied
  · exact switched
  · exact switched

theorem switched_run (world : World) (events : List ProcessEvent) :
    Switched (processRun json unsent config world events) := by
  refine (Transition.run_invariant
    (fun process => Sound config process ∧ Switched process) ?_ events
    ⟨sound_start world, switched_start world⟩).2
  rintro process event ⟨sound, switched⟩
  refine ⟨sound.step event, ?_⟩
  cases step_cases config process event with
  | ceased isOver same =>
      rw [same]
      exact switched
  | main attempt isMain isStep =>
      rw [isStep]
      exact switched.mainStep attempt
  | outside alive _ isStep frame =>
      exact switched.ioStep sound isStep frame

end Switched

/-! ## The end of the process -/

section Lost

/-- The connections of a server that are held. -/
def heldOf (server : Server) (holding : List Loans) : List Connection :=
  holding.flatMap fun held =>
    (held.filter fun loan => loan.1 = server).map Prod.snd

theorem count_map_filter
    (held : Loans) (server : Server) (conn : Connection) :
    ((held.filter fun loan => loan.1 = server).map Prod.snd).count conn =
      held.count (server, conn) := by
  rw [List.count_eq_countP, List.countP_map, List.countP_filter,
    List.count_eq_countP]
  apply List.countP_congr
  rintro ⟨otherServer, other⟩ -
  simp [and_comm]

theorem count_heldOf
    (server : Server) (holding : List Loans) (conn : Connection) :
    (heldOf server holding).count conn =
      (holding.map fun held => held.count (server, conn)).sum := by
  rw [heldOf, List.count_flatMap]
  congr 1
  apply List.map_congr_left
  intro held _
  exact count_map_filter held server conn

/-- Only a thread that threw can keep a connection, and only one. -/
theorem length_heldOf_le
    {holding : List Loans}
    {programs : List (Actions (Option HttpResponse))}
    (owned :
      List.Forall₂ (fun held program => Holds program held ∧ Single held)
        holding programs)
    (ended : ∀ program ∈ programs, program.outcome?.isSome = true)
    (server : Server) :
    (heldOf server holding).length ≤ programs.countP Program.threw := by
  induction owned with
  | nil => exact Nat.le_refl 0
  | @cons held program rest programs here later induction =>
      rw [List.forall_mem_cons] at ended
      have others := induction ended.2
      have one : (held.filter fun loan => loan.1 = server).length ≤ 1 := by
        have single := here.2 server
        simp only [shareOf, Bool.and_true] at single
        rw [← List.countP_eq_length_filter]
        exact single
      have split :
          (heldOf server (held :: rest)).length =
            (held.filter fun loan => loan.1 = server).length +
              (heldOf server rest).length := by
        simp [heldOf]
      rw [split, List.countP_cons]
      cases program with
      | ret response =>
          rw [show held = [] from here.1]
          simpa [Program.threw] using others
      | throw exception =>
          simp only [Program.threw, if_true]
          omega
      | call action next => cases ended.1

end Lost

section End

variable {config : ServerConfig} {json : JsonLibrary}
variable {unsent : Statement → World → Option (List Row) × World}
variable {process : Process} {holding : List Loans}

theorem Tracked.nodup
    (tracked : Tracked process holding) (server : Server) :
    (process.closed server ++
      process.tasks.world.stock server).Nodup := by
  rw [List.nodup_iff_count_le_one]
  intro conn
  have once := tracked.once server conn
  rw [places, placed, openings] at once
  rw [List.count_append]
  split at once
  · omega
  · omega

theorem Tracked.perm_range
    (tracked : Tracked process holding)
    (unharmed : process.stage.unharmed = true) (server : Server)
    (isEmpty : process.tasks.world.stock server = []) :
    (process.closed server ++ heldOf server holding).Perm
      (List.range (process.opened server)) := by
  rw [List.perm_iff_count]
  intro conn
  have placed := tracked.exact unharmed server conn
  rw [places, Store.placed, isEmpty, List.count_nil, Nat.zero_add,
    ← count_heldOf, openings] at placed
  rw [List.count_append, placed, List.nodup_range.count]
  simp only [List.mem_range]

/--
No connection is closed twice, none is closed and in a pool, and no handler
works with a closed one.  When `main` has returned 0, the pools are empty,
every connection of Redis has been closed, and of the connections of MySQL
all but at most one for each handler that an exception has ended.
-/
theorem connections_closed_once
    (json : JsonLibrary)
    (unsent : Statement → World → Option (List Row) × World)
    (config : ServerConfig) (world : World)
    (events : List ProcessEvent) :
    let process := processRun json unsent config world events
    (∀ server,
        (process.closed server ++
          process.tasks.world.stock server).Nodup) ∧
      (∀ (task : Nat) (program : Actions (Option HttpResponse)),
        process.tasks.threads[task]? = some program →
          ∀ access server conn,
            program.nextCall = some (.proxy access) →
              access.employs = some (server, conn) →
                conn ∉ process.closed server) ∧
      (process.stage = .returned 0 →
        (∀ server, process.tasks.world.stock server = []) ∧
          (process.closed .redis).Perm
            (List.range config.redisPoolSize.toNat) ∧
          ∃ lost : List Connection,
            (process.closed .mysql ++ lost).Perm
                (List.range config.mysqlPoolSize.toNat) ∧
              lost.length ≤
                process.tasks.threads.countP Program.threw) := by
  intro process
  have sound : Sound config process := sound_run world events
  have filled : Filled config process := filled_run world events
  have switched : Switched process := switched_run world events
  have kept : RedisKept config process := redisKept_run world events
  have all : ∃ holding, Tracked process holding :=
    exists_tracked world events
  rcases all with ⟨holding, tracked⟩
  clear_value process
  refine ⟨tracked.nodup, ?_, ?_⟩
  · intro task program present access server conn isNext employs isClosed
    have held := tracked.owned.mem_of_employs present isNext employs
    have once := tracked.once server conn
    have closed : 0 < (process.closed server).count conn :=
      List.count_pos_iff.mpr isClosed
    rw [places, placed, openings] at once
    split at once
    · omega
    · omega
  · intro isStage
    have ends : process.stage.ends = true := by
      rw [isStage]
      rfl
    have unharmed : process.stage.unharmed = true := by
      rw [isStage]
      rfl
    have empty : ∀ server, process.tasks.world.stock server = [] := by
      intro server
      refine switched.emptied server ?_
      rw [isStage]
      rfl
    have full :
        ∀ server,
          process.opened server = (config.poolSize server).toNat := by
      intro server
      refine filled.full server ?_
      rw [isStage]
      rfl
    have whole (server : Server) :
        (process.closed server ++ heldOf server holding).Perm
          (List.range (config.poolSize server).toNat) := by
      rw [← full]
      exact tracked.perm_range unharmed server (empty server)
    refine ⟨empty, ?_, heldOf .mysql holding, whole .mysql, ?_⟩
    · have all := kept ends unharmed
      have length := (whole .redis).length_eq
      rw [returnedRedis, empty, List.length_nil, Nat.add_zero] at all
      rw [List.length_append, List.length_range] at length
      have none : heldOf .redis holding = [] :=
        List.eq_nil_of_length_eq_zero (by omega)
      have closed := whole .redis
      rw [none, List.append_nil] at closed
      exact closed
    · apply length_heldOf_le tracked.owned
      intro program isProgram
      rcases List.mem_iff_getElem?.mp isProgram with ⟨task, present⟩
      exact sound.allEnded (sound.ends ends) task program present

end End

end LightningServer.Main
