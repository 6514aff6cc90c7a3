import LightningServer.Handler.ApiProgress
import LightningServer.Main.Tasks

/-!
# The process can be stopped

From every state in which it has not been killed, `main` can come to its
return, with a signal but without another request, timer or connection: the
handlers that are at work come to their end, the threads leave, and `main`
joins them.  This needs a connection of Redis, for which a handler waits
without a timeout, and a number of threads that `threads_.reserve` takes.
-/

namespace LightningServer.Main

open LightningServer.Foundation
open LightningServer.Foundation.Numerals
open LightningServer.Net
open LightningServer.Store
open LightningServer.Handler

namespace Stage

theorem starts_or_serves
    {stage : Stage} (living : stage ≠ .killed)
    (early : ¬ stage.ends = true) :
    stage.starts = true ∨ stage.serves = true := by
  cases stage with
  | killed => exact absurd rfl living
  | initDatabase => exact .inl rfl
  | initCache => exact .inl rfl
  | construct => exact .inl rfl
  | scheduleSync => exact .inl rfl
  | startAccept => exact .inl rfl
  | startThreads => exact .inr rfl
  | wait => exact .inr rfl
  | cancelTimer => exact .inr rfl
  | markStopped => exact .inr rfl
  | stopContext => exact .inr rfl
  | join index => exact .inr rfl
  | _ => exact absurd rfl early

theorem unharmed_of_early
    {stage : Stage} (early : stage.starts = true ∨ stage.serves = true) :
    stage.unharmed = true := by
  rcases early with early | early <;> cases stage <;>
    first | rfl | cases early

end Stage

/-- Nothing comes from outside but the signal. -/
def ProcessEvent.isOwn : ProcessEvent → Bool
  | .main _ => true
  | .signal => true
  | .act _ _ => true
  | .finish _ => true
  | .leave _ => true
  | _ => false

section Reaches

variable {json : JsonLibrary}
variable {unsent : Statement → World → Option (List Row) × World}
variable {config : ServerConfig} {process middle later : Process}

/-- The process can come from one state to another by itself. -/
def Reaches (json : JsonLibrary)
    (unsent : Statement → World → Option (List Row) × World)
    (config : ServerConfig) (process later : Process) : Prop :=
  ∃ events : List ProcessEvent,
    (∀ event ∈ events, event.isOwn = true) ∧
      Transition.run (Process.step json unsent config) process events =
        later

theorem reaches_refl (process : Process) :
    Reaches json unsent config process process :=
  ⟨[], nofun, rfl⟩

theorem Reaches.trans
    (first : Reaches json unsent config process middle)
    (second : Reaches json unsent config middle later) :
    Reaches json unsent config process later := by
  rcases first with ⟨events, own, rfl⟩
  rcases second with ⟨more, others, rfl⟩
  refine ⟨events ++ more, ?_, Transition.run_append ..⟩
  rw [List.forall_mem_append]
  exact ⟨own, others⟩

theorem reaches_step
    (event : ProcessEvent) (own : event.isOwn = true)
    (stepped : process.step json unsent config event = later) :
    Reaches json unsent config process later :=
  ⟨[event], by simpa using own, stepped⟩

/-- `main` makes its next step. -/
theorem reaches_main
    (alive : process.Alive = true) (attempt : Attempt) :
    Reaches json unsent config process
      (process.mainStep config attempt) := by
  apply reaches_step (.main attempt) rfl
  simp only [Process.step, alive, if_true]

theorem Reaches.sound
    (reaches : Reaches json unsent config process later)
    (sound : Sound config process) : Sound config later := by
  rcases reaches with ⟨events, -, rfl⟩
  exact Transition.run_invariant (Sound config)
    (fun _ event sound => sound.step event) events sound

/-- `main` comes from one stage to another. -/
def LeadsTo (json : JsonLibrary)
    (unsent : Statement → World → Option (List Row) × World)
    (config : ServerConfig) (stage next : Stage) : Prop :=
  ∀ process : Process, Sound config process → process.stage = stage →
    ∃ later, Reaches json unsent config process later ∧
      later.stage = next

theorem LeadsTo.trans
    {stage next last : Stage}
    (first : LeadsTo json unsent config stage next)
    (second : LeadsTo json unsent config next last) :
    LeadsTo json unsent config stage last := by
  intro process sound isStage
  rcases first process sound isStage with ⟨middle, reaches, isNext⟩
  rcases second middle (reaches.sound sound) isNext with
    ⟨later, further, isLast⟩
  exact ⟨later, reaches.trans further, isLast⟩

/-- A stage that takes one step of `main`. -/
theorem leadsTo_of_mainStep
    {stage next : Stage}
    (alive : ∀ process : Process, process.stage = stage →
      process.Alive = true)
    (steps : ∀ process : Process, process.stage = stage →
      (process.mainStep config .succeeds).stage = next) :
    LeadsTo json unsent config stage next :=
  fun process _ isStage =>
    ⟨_, reaches_main (alive process isStage) .succeeds,
      steps process isStage⟩

/-! ## The start -/

/-- The loop of `init`, when every connection is got. -/
theorem leadsTo_of_init
    {stage next : Stage} (server : Server)
    (alive : ∀ process : Process, process.stage = stage →
      process.Alive = true)
    (steps : ∀ process : Process, process.stage = stage →
      process.mainStep config .succeeds =
        process.init server (config.poolSize server) next .succeeds) :
    LeadsTo json unsent config stage next := by
  intro process sound isStage
  generalize isCount :
    (config.poolSize server - process.opened server).toNat = count
  induction count generalizing process with
  | zero =>
      have full : config.poolSize server ≤ process.opened server := by
        omega
      refine ⟨_, reaches_main (alive process isStage) .succeeds, ?_⟩
      rw [steps process isStage, Process.init, if_pos full]
  | succ count induction =>
      have more : ¬ config.poolSize server ≤ process.opened server := by
        omega
      have stepped :
          Reaches json unsent config process
            (process.mainStep config .succeeds) :=
        reaches_main (alive process isStage) .succeeds
      rw [steps process isStage, Process.init, if_neg more] at stepped
      rcases induction _ (stepped.sound sound) isStage (by
          simp only [Process.setStock, Function.update_self]
          omega) with ⟨later, further, isNext⟩
      exact ⟨later, stepped.trans further, isNext⟩

theorem leadsTo_initCache :
    LeadsTo json unsent config .initDatabase .initCache := by
  apply leadsTo_of_init .mysql
  · intro process isStage
    simp only [Process.Alive, isStage]
  · intro process isStage
    simp only [Process.mainStep, isStage]
    rfl

theorem leadsTo_construct :
    LeadsTo json unsent config .initCache .construct := by
  apply leadsTo_of_init .redis
  · intro process isStage
    simp only [Process.Alive, isStage]
  · intro process isStage
    simp only [Process.mainStep, isStage]
    rfl

theorem leadsTo_scheduleSync :
    LeadsTo json unsent config .construct .scheduleSync := by
  apply leadsTo_of_mainStep
  · intro process isStage
    simp only [Process.Alive, isStage]
  · intro process isStage
    simp only [Process.mainStep, isStage, if_true]

theorem leadsTo_startAccept :
    LeadsTo json unsent config .scheduleSync .startAccept := by
  apply leadsTo_of_mainStep
  · intro process isStage
    simp only [Process.Alive, isStage]
  · intro process isStage
    simp only [Process.mainStep, isStage]

theorem leadsTo_startThreads :
    LeadsTo json unsent config .startAccept .startThreads := by
  apply leadsTo_of_mainStep
  · intro process isStage
    simp only [Process.Alive, isStage]
  · intro process isStage
    simp only [Process.mainStep, isStage]

theorem reaches_startThread
    (isStage : process.stage = .startThreads) :
    Reaches json unsent config process
      (process.startThread config.threadNum .succeeds) := by
  have alive : process.Alive = true := by
    simp only [Process.Alive, isStage]
  have stepped :
      Reaches json unsent config process
        (process.mainStep config .succeeds) :=
    reaches_main alive .succeeds
  simpa only [Process.mainStep, isStage] using stepped

/-- The loop of `HttpServer::start`. -/
theorem leadsTo_wait (natural : 0 ≤ config.threadNum) :
    LeadsTo json unsent config .startThreads .wait := by
  intro process sound isStage
  generalize isCount :
    (config.threadNum - process.io.length).toNat = count
  induction count generalizing process with
  | zero =>
      have stepped :
          Reaches json unsent config process
            (process.startThread config.threadNum .succeeds) :=
        reaches_startThread isStage
      rw [Process.startThread, if_neg (by omega), if_pos (by omega)]
        at stepped
      exact ⟨_, stepped, rfl⟩
  | succ count induction =>
      have stepped :
          Reaches json unsent config process
            (process.startThread config.threadNum .succeeds) :=
        reaches_startThread isStage
      rw [Process.startThread, if_neg (by omega), if_neg (by omega),
        if_pos rfl] at stepped
      rcases induction _ (stepped.sound sound) isStage (by
          simp only [List.length_append, List.length_singleton]
          omega) with ⟨later, further, isNext⟩
      exact ⟨later, stepped.trans further, isNext⟩

/-! ## The signal -/

/-- The loop of `main` ends with the signal. -/
theorem leadsTo_cancelTimer :
    LeadsTo json unsent config .wait .cancelTimer := by
  intro process sound isStage
  have alive : process.Alive = true := by
    simp only [Process.Alive, isStage]
  have steps (process : Process) (isStage : process.stage = .wait)
      (isOver : process.running = false) :
      ∃ later, Reaches json unsent config process later ∧
        later.stage = .cancelTimer := by
    have alive : process.Alive = true := by
      simp only [Process.Alive, isStage]
    refine ⟨_, reaches_main alive .succeeds, ?_⟩
    simp only [Process.mainStep, isStage, isOver, Bool.false_eq_true,
      if_false]
  cases isRunning : process.running with
  | false => exact steps process isStage isRunning
  | true =>
      have signalled :
          Reaches json unsent config process
            { process with running := false } := by
        apply reaches_step .signal rfl
        simp only [Process.step, alive, if_true, Process.signalHandler,
          isRunning]
      rcases steps { process with running := false } isStage rfl with
        ⟨later, further, isNext⟩
      exact ⟨later, signalled.trans further, isNext⟩

theorem leadsTo_markStopped :
    LeadsTo json unsent config .cancelTimer .markStopped := by
  apply leadsTo_of_mainStep
  · intro process isStage
    simp only [Process.Alive, isStage]
  · intro process isStage
    simp only [Process.mainStep, isStage]

theorem leadsTo_stopContext :
    LeadsTo json unsent config .markStopped .stopContext := by
  apply leadsTo_of_mainStep
  · intro process isStage
    simp only [Process.Alive, isStage]
  · intro process isStage
    simp only [Process.mainStep, isStage]

theorem leadsTo_join :
    LeadsTo json unsent config .stopContext (.join 0) := by
  apply leadsTo_of_mainStep
  · intro process isStage
    simp only [Process.Alive, isStage]
  · intro process isStage
    simp only [Process.mainStep, isStage]

/-! ## The handlers that are at work -/

/-- Only the tasks are different. -/
structure SameThreads (process later : Process) : Prop where
  stage : later.stage = process.stage
  io : later.io = process.io

/-- A task that has ended stays as it is. -/
theorem actionStep_of_ended
    {tasks : Tasks} {task : Nat} {program : Actions (Option HttpResponse)}
    (present : tasks.threads[task]? = some program)
    {outcome : Except StdException (Option HttpResponse)}
    (ended : program.outcome? = some outcome) (decision : Decision) :
    actionStep json unsent tasks (.advance task decision) = tasks := by
  refine (Pool.ruledStep_advance_of_some _ _ _ present decision).trans ?_
  rw [Program.attempt_of_ended ended, Pool.moved, set_of_getElem? present]

theorem alive_of_join
    {index : Nat} (isStage : process.stage = .join index) :
    process.Alive = true := by
  simp only [Process.Alive, isStage]

/-- What a task can do, its thread makes it do. -/
theorem exists_reaches_action
    (sound : Sound config process) {index : Nat}
    (isStage : process.stage = .join index) (task : Nat)
    (decision : Decision) :
    ∃ later, Reaches json unsent config process later ∧
      SameThreads process later ∧
      later.tasks =
        actionStep json unsent process.tasks (.advance task decision) := by
  cases present : process.tasks.threads[task]? with
  | none =>
      refine ⟨process, reaches_refl process, ⟨rfl, rfl⟩, ?_⟩
      exact (Pool.ruledStep_advance_of_none _ _ _ present decision).symm
  | some program =>
      cases isOutcome : program.outcome? with
      | some outcome =>
          refine ⟨process, reaches_refl process, ⟨rfl, rfl⟩, ?_⟩
          exact (actionStep_of_ended present isOutcome decision).symm
      | none =>
          rcases sound.served task program present isOutcome with
            ⟨thread, job, serves⟩
          refine ⟨_, reaches_step (.act thread decision) rfl rfl, ?_⟩
          simp only [Process.step, alive_of_join isStage, if_true,
            Process.act, serves]
          exact ⟨⟨rfl, rfl⟩, trivial⟩

theorem exists_reaches_tasks
    (sound : Sound config process) {index : Nat}
    (isStage : process.stage = .join index) {events : List ActionEvent}
    (advance : ∀ event ∈ events, event.isAdvance = true) :
    ∃ later, Reaches json unsent config process later ∧
      SameThreads process later ∧
      later.tasks =
        Transition.run (actionStep json unsent) process.tasks events := by
  induction events generalizing process with
  | nil => exact ⟨process, reaches_refl process, ⟨rfl, rfl⟩, rfl⟩
  | cons event rest induction =>
      rw [List.forall_mem_cons] at advance
      cases event with
      | arrive task => cases advance.1
      | outside key => cases advance.1
      | advance task decision =>
          rcases @exists_reaches_action json unsent config process sound
              index isStage task decision with
            ⟨middle, reaches, same, stepped⟩
          rcases induction (reaches.sound sound)
              (same.stage.trans isStage) advance.2 with
            ⟨later, further, still, run⟩
          refine ⟨later, reaches.trans further,
            ⟨still.stage.trans same.stage, still.io.trans same.io⟩, ?_⟩
          rw [run, stepped, Transition.run_cons]

/-- All tasks can come to their end. -/
theorem exists_reaches_allEnded
    (positive : 0 < config.redisPoolSize) {world : World}
    {events : List ProcessEvent} {index : Nat}
    (isStage :
      (processRun json unsent config world events).stage = .join index) :
    ∃ later,
      Reaches json unsent config
          (processRun json unsent config world events) later ∧
        SameThreads (processRun json unsent config world events) later ∧
        later.tasks.AllEnded := by
  have sound : Sound config (processRun json unsent config world events) :=
    sound_run world events
  rcases @exists_follows config json unsent world events with
    ⟨actions, -, -, follows⟩
  have same := follows.tasks_eq (by rw [isStage]; rfl)
  rcases exists_redisCensus json unsent (fullStock config) world actions
    with ⟨holding, census⟩
  have some : 0 < (fullStock config .redis).length := by
    rw [show (fullStock config .redis).length =
      config.redisPoolSize.toNat from List.length_range]
    omega
  rw [← same] at census
  rcases census.exists_drained
      (fun task => (taskCode json task).expand Call.actions) timeOutKey
      (stocked_perform unsent) some with ⟨more, advance, ended, -⟩
  rcases exists_reaches_tasks sound isStage advance with
    ⟨later, reaches, still, run⟩
  refine ⟨later, reaches, still, ?_⟩
  rw [run]
  exact ended

/-! ## The threads leave -/

/-- The thread has left, and nothing else is different that matters. -/
structure HasLeft (process later : Process) (thread : Nat) : Prop where
  stage : later.stage = process.stage
  tasks : later.tasks = process.tasks
  io : later.io = process.io.set thread .left

theorem exists_reaches_leave
    (alive : process.Alive = true) (stopped : process.contextStopped = true)
    {thread : Nat} (polls : process.io[thread]? = some .polling) :
    ∃ later, Reaches json unsent config process later ∧
      HasLeft process later thread := by
  refine ⟨_, reaches_step (.leave thread) rfl rfl, ?_⟩
  simp only [Process.step, alive, if_true, Process.leave, polls, stopped,
    true_or, and_self, Process.setIo]
  exact ⟨rfl, rfl, rfl⟩

/-- After a handler the thread polls, and leaves. -/
theorem exists_reaches_leave_of_finish
    {thread : Nat}
    (alive : process.Alive = true)
    (stopped : process.contextStopped = true)
    (isStage : (process.finish thread).stage = process.stage)
    (isTasks : (process.finish thread).tasks = process.tasks)
    (still :
      (process.finish thread).contextStopped = process.contextStopped)
    (isIo :
      (process.finish thread).io = process.io.set thread .polling)
    (inside : thread < process.io.length) :
    ∃ later, Reaches json unsent config process later ∧
      HasLeft process later thread := by
  have finished :
      Reaches json unsent config process (process.finish thread) := by
    apply reaches_step (.finish thread) rfl
    simp only [Process.step, alive, if_true]
  have stillAlive : (process.finish thread).Alive = true := by
    rw [Process.Alive, isStage]
    exact alive
  have polls : (process.finish thread).io[thread]? = some .polling := by
    rw [isIo]
    exact List.getElem?_set_self inside
  rcases @exists_reaches_leave json unsent config (process.finish thread)
      stillAlive (still.trans stopped) thread polls with
    ⟨later, further, left⟩
  refine ⟨later, finished.trans further, left.stage.trans isStage,
    left.tasks.trans isTasks, ?_⟩
  rw [left.io, isIo, List.set_set]

/-- A thread whose task has ended can leave. -/
theorem exists_reaches_left
    (sound : Sound config process) {index : Nat}
    (isStage : process.stage = .join index)
    (ended : process.tasks.AllEnded) {thread : Nat} {state : IoThread}
    (present : process.io[thread]? = some state) :
    ∃ later, Reaches json unsent config process later ∧
      HasLeft process later thread := by
  have alive := alive_of_join isStage
  have stopped := sound.halted index isStage
  have inside := (List.getElem?_eq_some_iff.mp present).1
  cases state with
  | left =>
      exact ⟨process, reaches_refl process, rfl, rfl,
        (set_of_getElem? present).symm⟩
  | polling => exact exists_reaches_leave alive stopped present
  | accepting =>
      refine exists_reaches_leave_of_finish alive stopped ?_ ?_ ?_ ?_ inside
      all_goals simp only [Process.finish, present, Process.setIo]
  | serving job task =>
      have known := sound.known thread job task present
      have finished := ended task _ (List.getElem?_eq_getElem known)
      rcases Option.isSome_iff_exists.mp finished with ⟨outcome, isOutcome⟩
      have isEnd : process.tasks.outcome? task = some outcome := by
        rw [Pool.outcome?, List.getElem?_eq_getElem known,
          Option.bind_some, isOutcome]
      cases outcome with
      | ok response =>
          refine exists_reaches_leave_of_finish alive stopped ?_ ?_ ?_ ?_
            inside
          all_goals
            simp only [Process.finish, present, isEnd, Process.setIo]
            cases job with
            | request => rfl
            | sync => rfl
      | error exception =>
          refine ⟨_, reaches_step (.finish thread) rfl rfl, ?_⟩
          simp only [Process.step, alive, if_true, Process.finish, present,
            isEnd, Process.setIo]
          exact ⟨rfl, rfl, rfl⟩

/-- One after the other, all threads leave. -/
theorem exists_reaches_allLeft
    (sound : Sound config process) {index : Nat}
    (isStage : process.stage = .join index)
    (ended : process.tasks.AllEnded) (count : Nat) :
    ∃ later, Reaches json unsent config process later ∧
      later.stage = process.stage ∧ later.tasks = process.tasks ∧
      later.io.length = process.io.length ∧
      ∀ thread state, thread < count →
        later.io[thread]? = some state → state = .left := by
  induction count with
  | zero => exact ⟨process, reaches_refl process, rfl, rfl, rfl, by omega⟩
  | succ count induction =>
      rcases induction with
        ⟨middle, reaches, stage, tasks, length, before⟩
      cases present : middle.io[count]? with
      | none =>
          refine ⟨middle, reaches, stage, tasks, length, ?_⟩
          intro thread state less there
          rcases Nat.lt_succ_iff_lt_or_eq.mp less with earlier | rfl
          · exact before thread state earlier there
          · rw [present] at there
            cases there
      | some state =>
          rcases @exists_reaches_left json unsent config middle
              (reaches.sound sound) index (stage.trans isStage)
              (tasks ▸ ended) count state present with
            ⟨later, further, left⟩
          refine ⟨later, reaches.trans further, left.stage.trans stage,
            left.tasks.trans tasks, ?_, ?_⟩
          · rw [left.io, List.length_set, length]
          · intro thread other less there
            rw [left.io] at there
            by_cases here : thread = count
            · subst here
              rw [List.getElem?_set_self
                (List.getElem?_eq_some_iff.mp present).1] at there
              exact (Option.some.inj there).symm
            · rw [List.getElem?_set_ne (Ne.symm here)] at there
              exact before thread other (by omega) there

/-! ## The joins and the shutdown -/

/-- `main` joins the threads that have left. -/
theorem exists_reaches_joined
    {index : Nat} (isStage : process.stage = .join index)
    (left : ∀ state ∈ process.io, state = .left) :
    ∃ later, Reaches json unsent config process later ∧
      later.stage = .shutdownCache := by
  generalize isCount : process.io.length - index = count
  induction count generalizing process index with
  | zero =>
      have finished : process.io[index]? = none :=
        List.getElem?_eq_none (by omega)
      refine ⟨_, reaches_main (alive_of_join isStage) .succeeds, ?_⟩
      simp only [Process.mainStep, isStage, finished]
  | succ count induction =>
      have isLeft : process.io[index]? = some .left := by
        have inside : index < process.io.length := by omega
        rw [List.getElem?_eq_getElem inside]
        exact congrArg some (left _ (List.getElem_mem inside))
      have stepped :
          Reaches json unsent config process
            (process.mainStep config .succeeds) :=
        reaches_main (alive_of_join isStage) .succeeds
      simp only [Process.mainStep, isStage, isLeft] at stepped
      rcases @induction { process with stage := .join (index + 1) }
          (index + 1) rfl left (by simp only; omega) with
        ⟨later, further, isNext⟩
      exact ⟨later, stepped.trans further, isNext⟩

theorem leadsTo_shutdownDatabase :
    LeadsTo json unsent config .shutdownCache .shutdownDatabase := by
  apply leadsTo_of_mainStep
  · intro process isStage
    simp only [Process.Alive, isStage]
  · intro process isStage
    simp only [Process.mainStep, isStage]

theorem leadsTo_destroyCache :
    LeadsTo json unsent config .shutdownDatabase (.destroyCache 0) := by
  apply leadsTo_of_mainStep
  · intro process isStage
    simp only [Process.Alive, isStage]
  · intro process isStage
    simp only [Process.mainStep, isStage]

theorem leadsTo_destroyDatabase (status : Int) :
    LeadsTo json unsent config (.destroyCache status)
      (.destroyDatabase status) := by
  apply leadsTo_of_mainStep
  · intro process isStage
    simp only [Process.Alive, isStage]
  · intro process isStage
    simp only [Process.mainStep, isStage]

theorem leadsTo_returned (status : Int) :
    LeadsTo json unsent config (.destroyDatabase status)
      (.returned status) := by
  apply leadsTo_of_mainStep
  · intro process isStage
    simp only [Process.Alive, isStage]
  · intro process isStage
    simp only [Process.mainStep, isStage]

/-- From a stage of the joins. -/
theorem exists_reaches_shutdown
    (positive : 0 < config.redisPoolSize) {world : World}
    {events : List ProcessEvent} {index : Nat}
    (isStage :
      (processRun json unsent config world events).stage = .join index) :
    ∃ later,
      Reaches json unsent config
          (processRun json unsent config world events) later ∧
        later.stage = .shutdownCache := by
  have sound : Sound config (processRun json unsent config world events) :=
    sound_run world events
  rcases exists_reaches_allEnded positive isStage with
    ⟨drained, first, same, ended⟩
  have isJoin := same.stage.trans isStage
  rcases @exists_reaches_allLeft json unsent config drained
      (first.sound sound) index isJoin ended drained.io.length with
    ⟨emptied, second, stage, -, length, left⟩
  have all : ∀ state ∈ emptied.io, state = .left := by
    intro state isState
    rcases List.mem_iff_getElem?.mp isState with ⟨thread, present⟩
    have inside := (List.getElem?_eq_some_iff.mp present).1
    exact left thread state (by omega) present
  rcases @exists_reaches_joined json unsent config emptied index
      (stage.trans isJoin) all with ⟨later, third, isNext⟩
  exact ⟨later, (first.trans second).trans third, isNext⟩

/-- Where a run of the process goes on. -/
theorem Reaches.isRun
    {world : World} {events : List ProcessEvent}
    (reaches :
      Reaches json unsent config
        (processRun json unsent config world events) later) :
    ∃ more : List ProcessEvent,
      (∀ event ∈ more, event.isOwn = true) ∧
        processRun json unsent config world (events ++ more) = later := by
  rcases reaches with ⟨more, own, run⟩
  exact ⟨more, own, (Transition.run_append ..).trans run⟩

/-- Before the joins, `main` can come to them. -/
theorem leadsTo_joins
    (natural : 0 ≤ config.threadNum) {stage : Stage}
    (before : stage.starts = true ∨ stage.serves = true)
    (notJoin : ∀ index, stage ≠ .join index) :
    LeadsTo json unsent config stage (.join 0) := by
  have stopContext := @leadsTo_join json unsent config
  have markStopped := leadsTo_stopContext.trans stopContext
  have cancelTimer := leadsTo_markStopped.trans markStopped
  have wait := leadsTo_cancelTimer.trans cancelTimer
  have startThreads := (leadsTo_wait natural).trans wait
  have startAccept := leadsTo_startThreads.trans startThreads
  have scheduleSync := leadsTo_startAccept.trans startAccept
  have construct := leadsTo_scheduleSync.trans scheduleSync
  have initCache := leadsTo_construct.trans construct
  cases stage with
  | initDatabase => exact leadsTo_initCache.trans initCache
  | initCache => exact initCache
  | construct => exact construct
  | scheduleSync => exact scheduleSync
  | startAccept => exact startAccept
  | startThreads => exact startThreads
  | wait => exact wait
  | cancelTimer => exact cancelTimer
  | markStopped => exact markStopped
  | stopContext => exact stopContext
  | join index => exact absurd rfl (notJoin index)
  | shutdownCache => rcases before with before | before <;> cases before
  | shutdownDatabase => rcases before with before | before <;> cases before
  | destroyCache status => rcases before with before | before <;> cases before
  | destroyDatabase status =>
      rcases before with before | before <;> cases before
  | returned status => rcases before with before | before <;> cases before
  | killed => rcases before with before | before <;> cases before

/-- Until the shutdown, `main` can come to it. -/
theorem exists_reaches_shutdownCache
    (natural : 0 ≤ config.threadNum) (positive : 0 < config.redisPoolSize)
    {world : World} {events : List ProcessEvent}
    (before :
      (processRun json unsent config world events).stage.starts = true ∨
        (processRun json unsent config world events).stage.serves = true) :
    ∃ later,
      Reaches json unsent config
          (processRun json unsent config world events) later ∧
        later.stage = .shutdownCache := by
  by_cases isJoin :
      ∃ index, (processRun json unsent config world events).stage =
        .join index
  · rcases isJoin with ⟨index, isStage⟩
    exact exists_reaches_shutdown positive isStage
  · have leads := @leadsTo_joins json unsent config natural _ before
      fun index isStage => isJoin ⟨index, isStage⟩
    rcases leads _ (sound_run world events) rfl with
      ⟨middle, reaches, isStage⟩
    rcases reaches.isRun with ⟨more, -, isRun⟩
    rw [← isRun] at isStage
    rcases exists_reaches_shutdown positive isStage with
      ⟨later, further, isNext⟩
    rw [isRun] at further
    exact ⟨later, reaches.trans further, isNext⟩

/-- The status that `main` can still return. -/
theorem leadsTo_return
    {stage : Stage} (ends : stage.ends = true) :
    ∃ status : Int, (status = 0 ↔ stage.unharmed = true) ∧
      LeadsTo json unsent config stage (.returned status) := by
  have destroyDatabase (status : Int) :=
    @leadsTo_returned json unsent config status
  have destroyCache (status : Int) :=
    (leadsTo_destroyDatabase status).trans (destroyDatabase status)
  have shutdownDatabase := leadsTo_destroyCache.trans (destroyCache 0)
  cases stage with
  | shutdownCache =>
      refine ⟨0, by simp [Stage.unharmed], ?_⟩
      exact leadsTo_shutdownDatabase.trans shutdownDatabase
  | shutdownDatabase =>
      exact ⟨0, by simp [Stage.unharmed], shutdownDatabase⟩
  | destroyCache status =>
      exact ⟨status, by simp [Stage.unharmed], destroyCache status⟩
  | destroyDatabase status =>
      exact ⟨status, by simp [Stage.unharmed], destroyDatabase status⟩
  | returned status =>
      refine ⟨status, by simp [Stage.unharmed], ?_⟩
      exact fun process _ isStage =>
        ⟨process, reaches_refl process, isStage⟩
  | _ => cases ends

end Reaches

/-- Once the start has failed, no step makes up for it. -/
theorem unharmed_of_step
    (json : JsonLibrary)
    (unsent : Statement → World → Option (List Row) × World)
    (config : ServerConfig) {process : Process} {event : ProcessEvent}
    (now : (process.step json unsent config event).stage.unharmed = true) :
    process.stage.unharmed = true := by
  cases step_cases config process event with
  | ceased isOver same =>
      rw [same] at now
      exact now
  | main attempt isMain isStep =>
      rw [isStep] at now
      exact (goes_mainStep config process attempt).unharmed_of now
  | outside alive notMain isStep frame =>
      rcases frame.stage with same | dead
      · rw [same] at now
        exact now
      · rw [dead] at now
        cases now

theorem unharmed_of_run
    (json : JsonLibrary)
    (unsent : Statement → World → Option (List Row) × World)
    (config : ServerConfig) (world : World)
    (events more : List ProcessEvent)
    (now :
      (processRun json unsent config world
        (events ++ more)).stage.unharmed = true) :
    (processRun json unsent config world events).stage.unharmed =
      true := by
  induction more using List.reverseRecOn with
  | nil =>
      rw [List.append_nil] at now
      exact now
  | append_singleton rest event induction =>
      rw [← List.append_assoc, processRun_concat] at now
      exact induction (unharmed_of_step json unsent config now)

/--
A process that has not been killed can return, with status zero unless its
start has failed; after a failed start no run returns zero.
-/
theorem process_can_return
    (json : JsonLibrary)
    (unsent : Statement → World → Option (List Row) × World)
    (config : ServerConfig) (natural : 0 ≤ config.threadNum)
    (positive : 0 < config.redisPoolSize) (world : World)
    (events : List ProcessEvent)
    (living :
      (processRun json unsent config world events).stage ≠ .killed) :
    (∃ (more : List ProcessEvent) (status : Int),
      (∀ event ∈ more, event.isOwn = true) ∧
        (processRun json unsent config world (events ++ more)).stage =
          .returned status ∧
        (status = 0 ↔
          (processRun json unsent config world events).stage.unharmed =
            true)) ∧
      ∀ more : List ProcessEvent,
        (processRun json unsent config world (events ++ more)).stage =
            .returned 0 →
          (processRun json unsent config world events).stage.unharmed =
            true := by
  refine ⟨?_, fun more zero =>
    unharmed_of_run json unsent config world events more (by rw [zero]; rfl)⟩
  -- the stage at the end of a run decides how much of the way is left
  have goesOn (process : Process) (sound : Sound config process)
      (reaches :
        Reaches json unsent config
          (processRun json unsent config world events) process)
      (ends : process.stage.ends = true)
      (same :
        process.stage.unharmed =
          (processRun json unsent config world events).stage.unharmed) :
      ∃ (more : List ProcessEvent) (status : Int),
        (∀ event ∈ more, event.isOwn = true) ∧
          (processRun json unsent config world (events ++ more)).stage =
            .returned status ∧
          (status = 0 ↔
            (processRun json unsent config world events).stage.unharmed =
              true) := by
    rcases @leadsTo_return json unsent config _ ends with
      ⟨status, isStatus, leads⟩
    rcases leads process sound rfl with ⟨later, further, isStage⟩
    rcases (reaches.trans further).isRun with ⟨more, own, isRun⟩
    exact ⟨more, status, own, isRun ▸ isStage, same ▸ isStatus⟩
  have sound : Sound config (processRun json unsent config world events) :=
    sound_run world events
  by_cases ends :
      (processRun json unsent config world events).stage.ends = true
  · exact goesOn _ sound (reaches_refl _) ends rfl
  · have early := Stage.starts_or_serves living ends
    rcases exists_reaches_shutdownCache natural positive early with
      ⟨later, reaches, isStage⟩
    refine goesOn later (reaches.sound sound) reaches ?_ ?_
    · rw [isStage]
      rfl
    · rw [isStage, Stage.unharmed_of_early early]
      rfl

/-- The signal comes when one thread has started to sync the counters. -/
def stoppedSync : List ProcessEvent :=
  List.replicate 10 (.main .succeeds) ++ [.timer 0 false, .signal]

theorem process_can_return_of_stoppedSync :
    (∃ (more : List ProcessEvent) (status : Int),
      (∀ event ∈ more, event.isOwn = true) ∧
        (processRun Json.compactLibrary (fun _ world => (none, world))
          smallConfig freshWorld (stoppedSync ++ more)).stage =
          .returned status ∧
        (status = 0 ↔
          (processRun Json.compactLibrary (fun _ world => (none, world))
            smallConfig freshWorld stoppedSync).stage.unharmed = true)) ∧
      ∀ more : List ProcessEvent,
        (processRun Json.compactLibrary (fun _ world => (none, world))
            smallConfig freshWorld (stoppedSync ++ more)).stage =
            .returned 0 →
          (processRun Json.compactLibrary (fun _ world => (none, world))
            smallConfig freshWorld stoppedSync).stage.unharmed = true :=
  process_can_return Json.compactLibrary _ smallConfig (by decide)
    (by decide) freshWorld stoppedSync (by decide +kernel)

end LightningServer.Main
