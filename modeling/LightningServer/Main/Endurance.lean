import LightningServer.Handler.TaskOutcomes
import LightningServer.Main.Coupling
import LightningServer.Main.SyncTimer

/-!
# What the threads are lost to

The `catch` of an IO thread is outside of `ioc_.run()`, so an exception in a
handler costs its thread for good.  Until the context is stopped, the threads
are lost to nothing else: one for each exception of a session, and one for
each request whose digits exceed an `int`, from its start on.  And while the
signal has not come, the chain of the sync keeps the context in work, so that
it is not stopped.
-/

namespace LightningServer.Main

open LightningServer.Foundation
open LightningServer.Foundation.Numerals
open LightningServer.Net
open LightningServer.Store
open LightningServer.Handler

/-! ## The cost of a task -/

/-- The task throws. -/
def misfits : ApiTask → Bool
  | .request req _ => ¬ (route req).Fits
  | .syncViewCounts => false

/-- The thread is lost, or will be with the task that it works on. -/
def IoThread.cost (tasks : List ApiTask) : IoThread → Nat
  | .left => 1
  | .serving _ task => if tasks[task]?.any misfits then 1 else 0
  | _ => 0

def threadsCost (tasks : List ApiTask) (process : Process) : Nat :=
  (process.io.map (IoThread.cost tasks)).sum

/-- The thread that an exception of a session costs. -/
def Process.thrown (process : Process) (event : ProcessEvent) : List Nat :=
  match event with
  | .session thread .throws =>
      if process.Alive = true ∧ process.Polls thread ∧
          0 < process.sessionOps then
        [thread]
      else []
  | _ => []

/-- The threads that sessions have cost in a run, in their order. -/
def thrownThreads (json : JsonLibrary)
    (unsent : Statement → World → Option (List Row) × World)
    (config : ServerConfig) (world : World) (events : List ProcessEvent) :
    List Nat :=
  Transition.outputs (Process.step json unsent config) Process.thrown
    (.start world) events

theorem thrownThreads_concat
    (json : JsonLibrary)
    (unsent : Statement → World → Option (List Row) × World)
    (config : ServerConfig) (world : World) (events : List ProcessEvent)
    (event : ProcessEvent) :
    thrownThreads json unsent config world (events ++ [event]) =
      thrownThreads json unsent config world events ++
        (processRun json unsent config world events).thrown event := by
  rw [thrownThreads, Transition.outputs_append, Transition.outputs_cons,
    Transition.outputs_nil, List.append_nil]
  rfl

/-- A task throws exactly if it misfits. -/
theorem misfits_iff
    {json : JsonLibrary} {task : ApiTask}
    {outcome : Except StdException (Option HttpResponse)}
    (ends : TaskOutcome json task outcome) :
    misfits task = true ↔ ∃ exception, outcome = .error exception := by
  cases task with
  | syncViewCounts =>
      rw [TaskOutcome] at ends
      simp [misfits, ends]
  | request req resp =>
      by_cases fits : (route req).Fits
      · rw [TaskOutcome, if_pos fits] at ends
        rcases ends with ⟨response, rfl, -⟩
        simp [misfits, fits]
      · rw [TaskOutcome, if_neg fits] at ends
        simp [misfits, fits, ends]

/-! ## The tasks that the threads work on -/

/-- Every thread works on a task of its kind, which ends as it must. -/
structure Assigned (json : JsonLibrary) (process : Process)
    (tasks : List ApiTask) : Prop where
  known : process.tasks.threads.length = tasks.length
  serving :
    ∀ (thread : Nat) (job : Job) (task : Nat),
      process.io[thread]? = some (.serving job task) →
        ∃ found, tasks[task]? = some found ∧ job = jobOf found
  ends :
    ∀ (task : Nat) (outcome : Except StdException (Option HttpResponse)),
      process.tasks.outcome? task = some outcome →
        ∃ found, tasks[task]? = some found ∧
          TaskOutcome json found outcome

section Runs

variable {config : ServerConfig} {json : JsonLibrary}
variable {unsent : Statement → World → Option (List Row) × World}
variable {process later : Process} {tasks : List ApiTask}

/-- The part that does not depend on how the tasks end. -/
theorem serving_step
    (known : process.tasks.threads.length = tasks.length)
    (serving :
      ∀ (thread : Nat) (job : Job) (task : Nat),
        process.io[thread]? = some (.serving job task) →
          ∃ found, tasks[task]? = some found ∧ job = jobOf found)
    (event : ProcessEvent) :
    let later := process.step json unsent config event
    later.tasks.threads.length =
        (tasks ++ process.started event).length ∧
      ∀ (thread : Nat) (job : Job) (task : Nat),
        later.io[thread]? = some (.serving job task) →
          ∃ found, (tasks ++ process.started event)[task]? = some found ∧
            job = jobOf found := by
  intro later
  have longer
      {task : Nat} {found : ApiTask} (there : tasks[task]? = some found) :
      (tasks ++ process.started event)[task]? = some found := by
    rw [List.getElem?_append_left (List.getElem?_eq_some_iff.mp there).1]
    exact there
  have kept
      (old : ∀ (thread : Nat) (job : Job) (task : Nat),
        later.io[thread]? = some (.serving job task) →
          process.io[thread]? = some (.serving job task)) :
      ∀ (thread : Nat) (job : Job) (task : Nat),
        later.io[thread]? = some (.serving job task) →
          ∃ found, (tasks ++ process.started event)[task]? = some found ∧
            job = jobOf found := by
    intro thread job task serves
    rcases serving thread job task (old thread job task serves) with
      ⟨found, there, isJob⟩
    exact ⟨found, longer there, isJob⟩
  cases step_cases config process event with
  | ceased isOver same =>
      have same : later = process := same
      have nothing : process.started event = [] := by
        rw [Process.started, isOver, if_neg Bool.false_ne_true]
      refine ⟨?_, kept fun _ _ _ serves => same ▸ serves⟩
      rw [same, nothing, List.append_nil, known]
  | main attempt isMain isStep =>
      have same : later = process.mainStep config attempt := isStep
      have isMainStep := mainStep_mainStep config process attempt
      have nothing : process.started event = [] := by
        rw [isMain, Process.started]
        exact ite_self _
      constructor
      · rw [same, isMainStep.threads, nothing, List.append_nil, known]
      · apply kept
        intro thread job task serves
        rw [same] at serves
        exact isMainStep.serving_cases serves
  | outside alive notMain isStep frame =>
      have started :
          process.started event = (process.starts event).toList := by
        rw [Process.started, alive, if_pos rfl]
      constructor
      · rw [List.length_append, started, ← known]
        exact isStep.length_tasks
      · intro thread job task serves
        rcases isStep.serving_cases serves with
          old | ⟨rfl, found, isStarted, isJob⟩
        · rcases serving thread job task old with ⟨found, there, isJob⟩
          exact ⟨found, longer there, isJob⟩
        · refine ⟨found, ?_, isJob⟩
          rw [started, isStarted, known]
          exact List.getElem?_concat_length

theorem serving_run (world : World) (events : List ProcessEvent) :
    let process := processRun json unsent config world events
    let tasks := startedTasks json unsent config world events
    process.tasks.threads.length = tasks.length ∧
      ∀ (thread : Nat) (job : Job) (task : Nat),
        process.io[thread]? = some (.serving job task) →
          ∃ found, tasks[task]? = some found ∧ job = jobOf found := by
  induction events using List.reverseRecOn with
  | nil =>
      refine ⟨rfl, fun thread job task serves => ?_⟩
      cases serves
  | append_singleton rest event induction =>
      simp only [processRun_concat, startedTasks_concat]
      exact serving_step induction.1 induction.2 event

/-- The outcomes are those of the tasks, as the model of the API says. -/
theorem assigned_run
    (reads : ReadsHealth json) (database : Database) (clock : Nat → Text)
    (accepts : Nat → Bool) {events : List ProcessEvent}
    (articles : database.articles.length < 2 ^ 31)
    (comments : database.comments.length + events.length < 2 ^ 31) :
    Assigned json
      (processRun json unsent config (.initial database clock accepts)
        events)
      (startedTasks json unsent config (.initial database clock accepts)
        events) := by
  rcases @serving_run config json unsent
      (.initial database clock accepts) events with ⟨known, serving⟩
  refine ⟨known, serving, fun task outcome ended => ?_⟩
  rcases @exists_follows config json unsent
      (.initial database clock accepts) events with
    ⟨actions, few, arrives, follows⟩
  rcases exists_promised reads database clock accepts unsent
      (fullStock config) articles
      (show database.comments.length + actions.length < 2 ^ 31 by omega)
    with ⟨calls, promised, -, same⟩
  rw [← arrives]
  refine promised.outcome (same task outcome ?_)
  rw [Pool.outcome?, ← follows.threads]
  exact ended

/-! ## The cost of a step -/

/-- A thread goes on with something else. -/
theorem threadsCost_set
    (tasks : List ApiTask) {thread : Nat} {old : IoThread}
    (isOld : process.io[thread]? = some old) (new : IoThread) :
    ((process.io.set thread new).map (IoThread.cost tasks)).sum +
        old.cost tasks =
      threadsCost tasks process + new.cost tasks :=
  Lending.sum_map_set isOld new (IoThread.cost tasks)

/-- A further task costs the threads nothing that work on others. -/
theorem threadsCost_append
    (assigned : Assigned json process tasks) (more : List ApiTask) :
    threadsCost (tasks ++ more) process = threadsCost tasks process := by
  apply congrArg List.sum
  apply List.map_congr_left
  intro state member
  cases state with
  | serving job task =>
      rcases List.mem_iff_getElem?.mp member with ⟨thread, serves⟩
      rcases assigned.serving thread job task serves with
        ⟨found, there, -⟩
      rw [IoThread.cost, IoThread.cost,
        List.getElem?_append_left (List.getElem?_eq_some_iff.mp there).1]
  | _ => rfl

/-- The cost before a step, and what the step adds to it. -/
def Adds (process later : Process) (tasks more : List ApiTask)
    (thrown : List Nat) : Prop :=
  later.contextStopped = false →
    threadsCost (tasks ++ more) later =
      threadsCost tasks process + thrown.length + more.countP misfits

theorem adds_refl
    (process : Process) (tasks : List ApiTask) :
    Adds process process tasks [] [] := by
  intro _
  rw [List.append_nil]
  rfl

/-- Only the threads matter. -/
theorem adds_of_io
    (same : later.io = process.io) : Adds process later tasks [] [] := by
  intro _
  rw [List.append_nil, threadsCost, same]
  rfl

theorem adds_startTask
    (assigned : Assigned json process tasks) {thread : Nat}
    (polls : process.io[thread]? = some .polling) (job : Job)
    (task : ApiTask) :
    Adds process (process.startTask json unsent thread job task) tasks [task]
      [] := by
  intro _
  have turned :=
    threadsCost_set (tasks ++ [task]) polls
      (.serving job process.tasks.threads.length)
  rw [threadsCost_append assigned] at turned
  have new :
      (IoThread.serving job process.tasks.threads.length).cost
          (tasks ++ [task]) = [task].countP misfits := by
    rw [IoThread.cost, assigned.known, List.getElem?_concat_length]
    cases isMisfit : misfits task with
    | true => simp [isMisfit]
    | false => simp [isMisfit]
  rw [new] at turned
  exact turned

/-- A thread that costs nothing goes on. -/
theorem adds_turned
    {thread : Nat} {old : IoThread} (new : IoThread)
    (isOld : process.io[thread]? = some old)
    (same : new.cost tasks = old.cost tasks)
    (nextIo : later.io = process.io.set thread new) :
    Adds process later tasks [] [] := by
  intro _
  have turned := threadsCost_set tasks isOld new
  rw [List.append_nil, threadsCost, nextIo]
  simp only [List.length_nil, List.countP_nil]
  omega

theorem adds_onAccept (thread : Nat) (ec : Bool) :
    Adds process (process.onAccept thread ec) tasks [] [] := by
  rw [Process.onAccept]
  split
  · next polls =>
      exact adds_turned .accepting polls.1.1 rfl rfl
  · exact adds_refl process tasks

theorem adds_onTimer
    (assigned : Assigned json process tasks) (thread : Nat) (ec : Bool) :
    Adds process (process.onTimer json unsent thread ec) tasks
      (process.starts (.timer thread ec)).toList [] := by
  rw [Process.onTimer, Process.starts]
  by_cases polls : process.Polls thread ∧ 0 < process.syncWaits
  · rw [if_pos polls]
    by_cases goesOn : (!ec && process.running) = true
    · rw [if_pos goesOn, if_pos ⟨polls.1, polls.2, goesOn⟩]
      have taken :
          Assigned json { process with syncWaits := process.syncWaits - 1 }
            tasks :=
        ⟨assigned.known, assigned.serving, assigned.ends⟩
      exact adds_startTask taken polls.1.1 .sync .syncViewCounts
    · have notAll :
          ¬ (process.Polls thread ∧ 0 < process.syncWaits ∧
            (!ec && process.running) = true) :=
        fun all => goesOn all.2.2
      rw [if_neg goesOn, if_neg notAll]
      exact adds_of_io rfl
  · have notAll :
        ¬ (process.Polls thread ∧ 0 < process.syncWaits ∧
          (!ec && process.running) = true) :=
      fun all => polls ⟨all.1, all.2.1⟩
    rw [if_neg polls, if_neg notAll]
    exact adds_refl process tasks

theorem adds_onRequest
    (assigned : Assigned json process tasks) (thread : Nat)
    (req : HttpRequest) (resp : HttpResponse) :
    Adds process (process.onRequest json unsent thread req resp) tasks
      (process.starts (.request thread req resp)).toList [] := by
  rw [Process.onRequest, Process.starts]
  by_cases polls : process.Polls thread ∧ 0 < process.sessionOps
  · rw [if_pos polls, if_pos polls]
    have taken :
        Assigned json { process with sessionOps := process.sessionOps - 1 }
          tasks :=
      ⟨assigned.known, assigned.serving, assigned.ends⟩
    exact adds_startTask taken polls.1.1 .request (.request req resp)
  · rw [if_neg polls, if_neg polls]
    exact adds_refl process tasks

theorem adds_onSession
    (alive : process.Alive = true) (thread : Nat) (ends : SessionEnd) :
    Adds process (process.onSession thread ends) tasks []
      (process.thrown (.session thread ends)) := by
  unfold Process.onSession
  by_cases polls : process.Polls thread ∧ 0 < process.sessionOps
  · rw [if_pos polls]
    cases ends with
    | again => exact adds_refl process tasks
    | closes => exact adds_of_io rfl
    | throws =>
        rw [Process.thrown, if_pos ⟨alive, polls⟩]
        intro _
        rw [List.append_nil]
        exact threadsCost_set tasks polls.1.1 .left
  · rw [if_neg polls]
    have nothing : process.thrown (.session thread ends) = [] := by
      cases ends with
      | throws => exact if_neg fun all => polls all.2
      | _ => rfl
    rw [nothing]
    exact adds_refl process tasks

/-- A task that has thrown has cost its thread from the start. -/
theorem adds_finish
    (assigned : Assigned json process tasks) (thread : Nat) :
    Adds process (process.finish thread) tasks [] [] := by
  rw [Process.finish]
  split
  · next job task serves =>
      have cost
          {outcome : Except StdException (Option HttpResponse)}
          (ended : process.tasks.outcome? task = some outcome) :
          (IoThread.serving job task).cost tasks =
            if outcome.isOk then 0 else 1 := by
        rcases assigned.ends task outcome ended with ⟨found, there, ends⟩
        have throws := misfits_iff ends
        rw [IoThread.cost, there, Option.any_some]
        cases outcome with
        | ok response =>
            have fits : misfits found = false := by simpa using throws
            rw [fits]
            rfl
        | error exception =>
            rw [throws.mpr ⟨exception, rfl⟩]
            rfl
      split
      · exact adds_refl process tasks
      · next response isOutcome =>
          apply adds_turned .polling serves
          · rw [cost isOutcome]
            rfl
          · cases job with
            | request => rfl
            | sync => rfl
      · next exception isOutcome =>
          apply adds_turned .left serves
          · rw [cost isOutcome]
            rfl
          · rfl
  · next accepts =>
      exact adds_turned .polling accepts rfl rfl
  · exact adds_refl process tasks

theorem adds_leave (thread : Nat) :
    Adds process (process.leave thread) tasks [] [] := by
  rw [Process.leave]
  split
  · intro impossible
    cases impossible
  · exact adds_refl process tasks

theorem adds_mainStep (attempt : Attempt) :
    Adds process (process.mainStep config attempt) tasks [] [] := by
  rcases (mainStep_mainStep config process attempt).io with
    same | ⟨-, -, longer⟩
  · exact adds_of_io same
  · intro _
    rw [List.append_nil, threadsCost, longer]
    simp [threadsCost, IoThread.cost]

/-- Every step adds the cost of what it starts, and of what it throws. -/
theorem adds_step
    (assigned : Assigned json process tasks) (event : ProcessEvent) :
    Adds process (process.step json unsent config event) tasks
      (process.started event) (process.thrown event) := by
  by_cases alive : process.Alive = true
  · have started :
        process.started event = (process.starts event).toList := by
      rw [Process.started, alive, if_pos rfl]
    rw [started]
    simp only [Process.step, alive, if_true]
    cases event with
    | main attempt => exact adds_mainStep attempt
    | signal =>
        simp only [Process.signalHandler]
        split
        · exact adds_of_io rfl
        · exact adds_of_io rfl
    | accept thread ec => exact adds_onAccept thread ec
    | timer thread ec => exact adds_onTimer assigned thread ec
    | request thread req resp =>
        exact adds_onRequest assigned thread req resp
    | session thread ends => exact adds_onSession alive thread ends
    | act thread decision =>
        show Adds process (process.act json unsent thread decision) _ [] []
        rw [Process.act]
        split
        · exact adds_of_io rfl
        · exact adds_refl process tasks
    | finish thread => exact adds_finish assigned thread
    | leave thread => exact adds_leave thread
    | timeOut key => exact adds_of_io rfl
  · have isOver : process.Alive = false := by simpa using alive
    have nothing : process.thrown event = [] := by
      cases event with
      | session thread ends =>
          cases ends with
          | throws => exact if_neg fun all => alive all.1
          | _ => rfl
      | _ => rfl
    simp only [Process.step, Process.started, isOver, nothing,
      Bool.false_eq_true, if_false]
    exact adds_refl process tasks

end Runs

/-! ## While no signal has come -/

/-- `main` has left its loop, and joins the threads at the most. -/
def Stage.stops : Stage → Bool
  | .cancelTimer => true
  | .markStopped => true
  | .stopContext => true
  | .join _ => true
  | _ => false

section Staying

variable {config : ServerConfig} {json : JsonLibrary}
variable {unsent : Statement → World → Option (List Row) × World}
variable {process later : Process}

theorem running_init
    (server : Server) (size : Int) (next : Stage) (attempt : Attempt) :
    (process.init server size next attempt).running = process.running := by
  rw [Process.init]
  split
  · rfl
  · cases attempt with
    | succeeds => rfl
    | fails => rfl
    | noHandle => rfl

theorem running_shutdown (server : Server) :
    (process.shutdown server).running = process.running := by
  rw [Process.shutdown]
  split
  · rfl
  · rfl

/-- `main` only reads the flag of the signal handler. -/
theorem running_mainStep (attempt : Attempt) :
    (process.mainStep config attempt).running = process.running := by
  rw [Process.mainStep]
  cases process.stage with
  | initDatabase => exact running_init ..
  | initCache => exact running_init ..
  | construct =>
      dsimp only
      split
      · rfl
      · rfl
  | startThreads =>
      dsimp only
      rw [Process.startThread]
      split
      · rfl
      split
      · rfl
      split
      · rfl
      · rfl
  | wait =>
      dsimp only
      split
      · rfl
      · rfl
  | join index =>
      dsimp only
      split
      · rfl
      · rfl
      · rfl
  | shutdownCache => exact running_shutdown .redis
  | shutdownDatabase => exact running_shutdown .mysql
  | destroyCache status => exact running_shutdown .redis
  | destroyDatabase status => exact running_shutdown .mysql
  | _ => rfl

/-- Once it is false, it stays so. -/
theorem running_of_step
    (event : ProcessEvent)
    (now : (process.step json unsent config event).running = true) :
    process.running = true := by
  cases step_cases config process event with
  | ceased isOver same => exact same ▸ now
  | main attempt isMain isStep =>
      rw [isStep, running_mainStep] at now
      exact now
  | outside alive notMain isStep frame => exact frame.running now

theorem contextStopped_init
    (server : Server) (size : Int) (next : Stage) (attempt : Attempt) :
    (process.init server size next attempt).contextStopped =
      process.contextStopped := by
  rw [Process.init]
  split
  · rfl
  · cases attempt with
    | succeeds => rfl
    | fails => rfl
    | noHandle => rfl

theorem contextStopped_shutdown (server : Server) :
    (process.shutdown server).contextStopped =
      process.contextStopped := by
  rw [Process.shutdown]
  split
  · rfl
  · rfl

/-- A stopped context stays so. -/
theorem contextStopped_step
    (halted : process.contextStopped = true) (event : ProcessEvent) :
    (process.step json unsent config event).contextStopped = true := by
  cases step_cases config process event with
  | ceased isOver same =>
      rw [same]
      exact halted
  | outside alive notMain isStep frame => exact frame.halted halted
  | main attempt isMain isStep =>
      rw [isStep, Process.mainStep]
      cases process.stage with
      | initDatabase => exact (contextStopped_init ..).trans halted
      | initCache => exact (contextStopped_init ..).trans halted
      | construct =>
          dsimp only
          split
          · exact halted
          · exact halted
      | startThreads =>
          dsimp only
          rw [Process.startThread]
          split
          · exact halted
          split
          · exact halted
          split
          · exact halted
          · exact halted
      | wait =>
          dsimp only
          split
          · exact halted
          · exact halted
      | join index =>
          dsimp only
          split
          · exact halted
          · exact halted
          · exact halted
      | stopContext => rfl
      | shutdownCache => exact (contextStopped_shutdown .redis).trans halted
      | shutdownDatabase =>
          exact (contextStopped_shutdown .mysql).trans halted
      | destroyCache status =>
          exact (contextStopped_shutdown .redis).trans halted
      | destroyDatabase status =>
          exact (contextStopped_shutdown .mysql).trans halted
      | _ => exact halted

/-- What `main` knows of the signal, of the context and of its threads. -/
structure Staying (config : ServerConfig) (process : Process)
    (unbroken : Prop) : Prop where
  signalled : process.stage.stops = true → process.running = false
  working :
    unbroken → process.running = true → process.contextStopped = false
  crowded :
    process.stage = .wait → config.threadNum ≤ process.io.length

theorem staying_start (world : World) :
    Staying config (.start world) True where
  signalled := by
    intro impossible
    cases impossible
  working _ _ := rfl
  crowded := by
    intro impossible
    cases impossible

/-- A step of `main` to a stage that asks for nothing. -/
theorem Staying.goes
    {unbroken : Prop} (staying : Staying config process unbroken)
    (stops : later.stage.stops = false) (waits : later.stage ≠ .wait)
    (running : later.running = process.running)
    (context : later.contextStopped = process.contextStopped) :
    Staying config later unbroken where
  signalled := by
    rw [stops]
    exact (absurd · Bool.false_ne_true)
  working holds runs := by
    rw [context]
    exact staying.working holds (running ▸ runs)
  crowded isWait := absurd isWait waits

theorem Staying.init
    {unbroken : Prop} (staying : Staying config process unbroken)
    (starts : process.stage.starts = true) (server : Server) (size : Int)
    {next : Stage} (after : next.starts = true) (attempt : Attempt) :
    Staying config (process.init server size next attempt) unbroken := by
  have early {stage : Stage} (isEarly : stage.starts = true) :
      stage.stops = false ∧ stage ≠ .wait := by
    cases stage
    all_goals first
      | cases (show false = true from isEarly)
      | exact ⟨rfl, by simp⟩
  have reached :
      (process.init server size next attempt).stage.stops = false ∧
        (process.init server size next attempt).stage ≠ .wait := by
    rcases stage_init process attempt server size next with
      same | went | failed
    · rw [same]
      exact early starts
    · rw [went]
      exact early after
    · rw [failed]
      exact ⟨rfl, by simp⟩
  exact staying.goes reached.1 reached.2 (running_init ..)
    (contextStopped_init ..)

theorem Staying.shutdown
    {unbroken : Prop} (staying : Staying config process unbroken)
    (server : Server) {stage : Stage} (stops : stage.stops = false)
    (waits : stage ≠ .wait) :
    Staying config { process.shutdown server with stage := stage }
      unbroken :=
  staying.goes stops waits (running_shutdown server)
    (contextStopped_shutdown server)

/-- The stop goes on, after the signal. -/
theorem staying_of_signalled
    {unbroken : Prop} (signalled : process.running = false)
    (running : later.running = process.running)
    (waits : later.stage ≠ .wait) :
    Staying config later unbroken where
  signalled _ := running.trans signalled
  working _ runs := by
    rw [running, signalled] at runs
    exact absurd runs Bool.false_ne_true
  crowded isWait := absurd isWait waits

theorem Staying.startThread
    {unbroken : Prop} (staying : Staying config process unbroken)
    (isStage : process.stage = .startThreads) (attempt : Attempt) :
    Staying config (process.startThread config.threadNum attempt)
      unbroken := by
  rw [Process.startThread]
  split
  · exact staying.goes rfl (by simp) rfl rfl
  split
  · next enough =>
      exact ⟨(absurd · Bool.false_ne_true),
        fun holds => staying.working holds,
        fun _ => enough⟩
  split
  · exact staying.goes (by rw [isStage]; rfl) (by simp [isStage]) rfl rfl
  · exact staying.goes rfl (by simp) rfl rfl

theorem Staying.mainStep
    {unbroken : Prop} (staying : Staying config process unbroken)
    (attempt : Attempt) :
    Staying config (process.mainStep config attempt) unbroken := by
  rw [Process.mainStep]
  cases isStage : process.stage with
  | initDatabase =>
      exact staying.init (by rw [isStage]; rfl) _ _ rfl attempt
  | initCache =>
      exact staying.init (by rw [isStage]; rfl) _ _ rfl attempt
  | construct =>
      dsimp only
      split
      · exact staying.goes rfl (by simp) rfl rfl
      · exact staying.goes rfl (by simp) rfl rfl
  | scheduleSync => exact staying.goes rfl (by simp) rfl rfl
  | startAccept => exact staying.goes rfl (by simp) rfl rfl
  | startThreads => exact staying.startThread isStage attempt
  | wait =>
      dsimp only
      split
      · exact staying
      · next signalled =>
          exact staying_of_signalled (by simpa using signalled) rfl (by simp)
  | cancelTimer =>
      exact staying_of_signalled
        (staying.signalled (by rw [isStage]; rfl)) rfl (by simp)
  | markStopped =>
      exact staying_of_signalled
        (staying.signalled (by rw [isStage]; rfl)) rfl (by simp)
  | stopContext =>
      exact staying_of_signalled
        (staying.signalled (by rw [isStage]; rfl)) rfl (by simp)
  | join index =>
      have signalled := staying.signalled (by rw [isStage]; rfl)
      dsimp only
      split
      · exact staying_of_signalled signalled rfl (by simp)
      · exact staying_of_signalled signalled rfl (by simp)
      · exact staying
  | shutdownCache => exact staying.shutdown .redis rfl (by simp)
  | shutdownDatabase => exact staying.shutdown .mysql rfl (by simp)
  | destroyCache status => exact staying.shutdown .redis rfl (by simp)
  | destroyDatabase status => exact staying.shutdown .mysql rfl (by simp)
  | returned status => exact staying
  | killed => exact staying

/-- The threads leave by themselves only when the chain has ended. -/
theorem Staying.step
    {unbroken : Prop} (staying : Staying config process unbroken)
    (chained : Chained process unbroken) (sound : Sound config process)
    (event : ProcessEvent) :
    Staying config (process.step json unsent config event)
      (unbroken ∧ ¬ (process.Alive = true ∧ EndsSync process event)) := by
  have weaker {later : Process} (stays : Staying config later unbroken) :
      Staying config later
        (unbroken ∧ ¬ (process.Alive = true ∧ EndsSync process event)) :=
    ⟨stays.signalled, fun both => stays.working both.1, stays.crowded⟩
  cases step_cases config process event with
  | ceased isOver same =>
      rw [same]
      exact weaker staying
  | main attempt isMain isStep =>
      rw [isStep]
      exact weaker (staying.mainStep attempt)
  | outside alive notMain isStep frame =>
      apply weaker
      constructor
      · intro stops
        rcases frame.stage with same | dead
        · by_contra runs
          have before := staying.signalled (same ▸ stops)
          rw [frame.running (by simpa using runs)] at before
          cases before
        · rw [dead] at stops
          exact absurd stops Bool.false_ne_true
      · intro holds runs
        have open' := staying.working holds (frame.running runs)
        by_contra halts
        rcases frame.stopping (by simpa using halts) with
          halted | ⟨idle, polls⟩
        · rw [open'] at halted
          cases halted
        · have serves := sound.serves_of_inside alive polls (by simp)
          have one := (chained.exact (.inr serves)).mpr holds
          rw [unscheduled_of_serves serves, syncs, idle.1] at one
          have none : (process.io.map IoThread.syncs).sum = 0 := by
            apply List.sum_eq_zero
            intro count member
            rcases List.mem_map.mp member with ⟨state, isState, rfl⟩
            rcases idle.2.2.2 state isState with rfl | rfl
            · rfl
            · rfl
          omega
      · intro isWait
        rcases frame.stage with same | dead
        · have before := staying.crowded (same ▸ isWait)
          rcases isStep.io_cases with
            sameIo | ⟨thread, old, new, -, -, isSet⟩
          · rw [sameIo]
            exact before
          · rw [isSet, List.length_set]
            exact before
        · rw [dead] at isWait
          cases isWait

theorem staying_run (world : World) (events : List ProcessEvent) :
    Staying config (processRun json unsent config world events)
      (Transition.Along (Process.step json unsent config)
        (fun process event =>
          ¬ (process.Alive = true ∧ EndsSync process event))
        (.start world) events) := by
  induction events using List.reverseRecOn with
  | nil => exact staying_start world
  | append_singleton rest event induction =>
      simp only [Transition.along_append, Transition.along_cons,
        Transition.along_nil, and_true, processRun_concat]
      exact induction.step (chained_run world rest) (sound_run world rest)
        event

end Staying

/-! ## Every run -/

/-- A wait on the timer ends with an error, as after its cancellation. -/
def ProcessEvent.failsTimer : ProcessEvent → Bool
  | .timer _ ec => ec
  | _ => false

section Endurance

variable {config : ServerConfig} {json : JsonLibrary}
variable {unsent : Statement → World → Option (List Row) × World}
variable (reads : ReadsHealth json)
variable {database : Database} {clock : Nat → Text} {accepts : Nat → Bool}

/-- A sync never throws, so only a wait can end the chain. -/
theorem Assigned.not_endsSync
    {process : Process} {tasks : List ApiTask}
    (assigned : Assigned json process tasks) (runs : process.running = true)
    {event : ProcessEvent} (punctual : event.failsTimer = false) :
    ¬ EndsSync process event := by
  cases event with
  | timer thread ec =>
      rintro ⟨-, -, late | signalled⟩
      · cases punctual.symm.trans late
      · rw [runs] at signalled
        cases signalled
  | finish thread =>
      rintro ⟨task, exception, serves, threw⟩
      rcases assigned.serving thread .sync task serves with
        ⟨found, there, isSync⟩
      rcases assigned.ends task _ threw with ⟨same, here, ends⟩
      rw [there] at here
      cases here
      cases found with
      | request req resp => cases isSync
      | syncViewCounts => cases ends
  | _ => exact id

include reads

theorem unbroken_run
    (articles : database.articles.length < 2 ^ 31)
    {events : List ProcessEvent}
    (comments : database.comments.length + events.length < 2 ^ 31)
    (punctual : ∀ event ∈ events, event.failsTimer = false)
    (runs :
      (processRun json unsent config (.initial database clock accepts)
        events).running = true) :
    Transition.Along (Process.step json unsent config)
      (fun process event =>
        ¬ (process.Alive = true ∧ EndsSync process event))
      (.start (.initial database clock accepts)) events := by
  induction events using List.reverseRecOn with
  | nil => trivial
  | append_singleton rest event induction =>
      rw [List.length_append, List.length_singleton] at comments
      rw [processRun_concat] at runs
      have before := running_of_step event runs
      simp only [Transition.along_append, Transition.along_cons,
        Transition.along_nil, and_true]
      constructor
      · exact induction (by omega)
          (fun other member =>
            punctual other (List.mem_append_left _ member)) before
      · rintro ⟨-, ends⟩
        exact (assigned_run reads database clock accepts articles
          (by omega)).not_endsSync before
            (punctual event List.mem_concat_self) ends

/-- The threads cost what the tasks and the sessions have thrown. -/
theorem threadsCost_run
    (articles : database.articles.length < 2 ^ 31)
    {events : List ProcessEvent}
    (comments : database.comments.length + events.length < 2 ^ 31) :
    let world := World.initial database clock accepts
    let tasks := startedTasks json unsent config world events
    (processRun json unsent config world events).contextStopped = false →
      threadsCost tasks (processRun json unsent config world events) =
        (thrownThreads json unsent config world events).length +
          tasks.countP misfits := by
  induction events using List.reverseRecOn with
  | nil =>
      intro world tasks works
      rfl
  | append_singleton rest event induction =>
      rw [List.length_append, List.length_singleton] at comments
      intro world tasks works
      have assigned :=
        @assigned_run config json unsent reads database clock accepts rest
          articles (by omega)
      have adds := @adds_step config json unsent _ _ assigned event
      rw [processRun_concat] at works ⊢
      have before :
          (processRun json unsent config world rest).contextStopped =
            false := by
        by_contra halted
        have still :=
          @contextStopped_step config json unsent _ (by simpa using halted)
            event
        rw [works] at still
        cases still
      have same := induction (by omega) before
      have added := adds works
      simp only [world, tasks, startedTasks_concat, thrownThreads_concat,
        List.length_append, List.countP_append] at same added ⊢
      omega

/--
Until the context is stopped, the IO threads are lost to exceptions only: one
for each that a session has thrown, and one for each request whose digits
exceed an `int`.  While the signal has not come and no wait on the timer has
failed, the context is not stopped; and when `main` waits for the signal, it
has all its threads and there is a wait on the timer, or a sync.
-/
theorem server_stays_up
    (unsent : Statement → World → Option (List Row) × World)
    (config : ServerConfig) (database : Database) (clock : Nat → Text)
    (accepts : Nat → Bool) (events : List ProcessEvent)
    (articles : database.articles.length < 2 ^ 31)
    (comments : database.comments.length + events.length < 2 ^ 31) :
    let world := World.initial database clock accepts
    let process := processRun json unsent config world events
    let tasks := startedTasks json unsent config world events
    (process.contextStopped = false →
      threadsCost tasks process =
        (thrownThreads json unsent config world events).length +
          tasks.countP misfits) ∧
      ((∀ event ∈ events, event.failsTimer = false) →
        process.running = true →
          process.contextStopped = false ∧
            (process.stage = .wait →
              syncs process = 1 ∧
                process.io.length = config.threadNum.toNat)) := by
  intro world process tasks
  refine ⟨threadsCost_run reads articles comments, ?_⟩
  intro punctual runs
  have unbroken := unbroken_run reads articles comments punctual runs
  have staying := @staying_run config json unsent world events
  refine ⟨staying.working unbroken runs, fun isWait => ?_⟩
  have serves : process.stage.serves = true := by
    rw [isWait]
    rfl
  have chained := @chained_run config json unsent world events
  have one := (chained.exact (.inr serves)).mpr unbroken
  rw [unscheduled_of_serves serves] at one
  have few : process.io.length ≤ config.threadNum.toNat :=
    (@sound_run config json unsent world events).few
  have enough : config.threadNum ≤ process.io.length :=
    staying.crowded isWait
  exact ⟨one, by omega⟩

end Endurance

/-- A request for an article whose number is no `int` costs a thread. -/
def strayRequest : List ProcessEvent :=
  List.replicate 10 (.main .succeeds) ++
    [.accept 0 false, .finish 0,
      .request 0
        { method := ascii "GET", path := ascii "/api/articles/4294967296" }
        {},
      .finish 0]

theorem server_stays_up_of_strayRequest :
    let process :=
      processRun Json.compactLibrary (fun _ world => (none, world))
        smallConfig freshWorld strayRequest
    let tasks :=
      startedTasks Json.compactLibrary (fun _ world => (none, world))
        smallConfig freshWorld strayRequest
    (process.contextStopped = false →
      threadsCost tasks process =
        (thrownThreads Json.compactLibrary (fun _ world => (none, world))
            smallConfig freshWorld strayRequest).length +
          tasks.countP misfits) ∧
      ((∀ event ∈ strayRequest, event.failsTimer = false) →
        process.running = true →
          process.contextStopped = false ∧
            (process.stage = .wait →
              syncs process = 1 ∧
                process.io.length = smallConfig.threadNum.toNat)) :=
  server_stays_up readsHealth_compactLibrary _ smallConfig
    Service.twoArticles freshWorld.clock freshWorld.accepts
    strayRequest (by decide) (by decide)

end LightningServer.Main
