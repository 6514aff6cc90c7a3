import LightningServer.Main.Process

/-!
# The steps of the process

`step_cases` tells the steps of `main` from the others.  Of the others
`IoStep` says what they do to the IO threads and to the tasks, and `Frame`
what they leave alone; `MainStep` and `Goes` say the same of `main`.
-/

namespace LightningServer.Main

open LightningServer.Foundation
open LightningServer.Foundation.Numerals
open LightningServer.Net
open LightningServer.Store
open LightningServer.Handler

/-! ## The stages of `main` -/

namespace Stage

/-- No IO thread has been started yet. -/
def starts : Stage → Bool
  | .initDatabase => true
  | .initCache => true
  | .construct => true
  | .scheduleSync => true
  | .startAccept => true
  | _ => false

/-- The IO threads run, or are being joined. -/
def serves : Stage → Bool
  | .startThreads => true
  | .wait => true
  | .cancelTimer => true
  | .markStopped => true
  | .stopContext => true
  | .join _ => true
  | _ => false

/-- The IO threads are over, if there have been any. -/
def ends : Stage → Bool
  | .shutdownCache => true
  | .shutdownDatabase => true
  | .destroyCache _ => true
  | .destroyDatabase _ => true
  | .returned _ => true
  | _ => false

/-- `init` has filled the pool of this server. -/
def filled : Stage → Server → Bool
  | .initDatabase, _ => false
  | .initCache, .redis => false
  | .destroyCache status, _ => status = 0
  | .destroyDatabase status, _ => status = 0
  | .returned status, _ => status = 0
  | .killed, _ => false
  | _, _ => true

/-- `main` has not failed. -/
def unharmed : Stage → Bool
  | .destroyCache status => status = 0
  | .destroyDatabase status => status = 0
  | .returned status => status = 0
  | .killed => false
  | _ => true

end Stage

/-! ## What a step does to the threads and the tasks -/

section Steps

variable (json : JsonLibrary)
variable (unsent : Statement → World → Option (List Row) × World)

/-- The task that an event outside of `main` starts. -/
def Process.starts (process : Process) : ProcessEvent → Option ApiTask
  | .timer thread ec =>
      if process.Polls thread ∧ 0 < process.syncWaits ∧
          (!ec && process.running) = true then
        some .syncViewCounts
      else none
  | .request thread req resp =>
      if process.Polls thread ∧ 0 < process.sessionOps then
        some (.request req resp)
      else none
  | _ => none

/-- The handlers that call the services, by what they call. -/
def jobOf : ApiTask → Job
  | .request _ _ => .request
  | .syncViewCounts => .sync

/-- What happens outside of `main`, and the task that it starts. -/
inductive IoStep (process later : Process) : Option ApiTask → Prop where
  | idle
      (sameIo : later.io = process.io)
      (sameTasks : later.tasks = process.tasks) :
      IoStep process later none
  | turned (thread : Nat) (old new : IoThread)
      (isOld : process.io[thread]? = some old)
      (inside : old ≠ .left)
      (noTask : ∀ job task, new ≠ .serving job task)
      (ended :
        ∀ job task, old = .serving job task →
          (process.tasks.outcome? task).isSome = true)
      (nextIo : later.io = process.io.set thread new)
      (sameTasks : later.tasks = process.tasks) :
      IoStep process later none
  | started (thread : Nat) (job : Job) (task : ApiTask)
      (polls : process.io[thread]? = some .polling)
      (isJob : job = jobOf task)
      (nextIo :
        later.io =
          process.io.set thread
            (.serving job process.tasks.threads.length))
      (nextTasks :
        later.tasks =
          actionStep json unsent process.tasks (.arrive task)) :
      IoStep process later (some task)
  | acted (thread : Nat) (job : Job) (task : Nat) (decision : Decision)
      (serves : process.io[thread]? = some (.serving job task))
      (sameIo : later.io = process.io)
      (nextTasks :
        later.tasks =
          actionStep json unsent process.tasks
            (.advance task decision)) :
      IoStep process later none
  | timedOut (key : Text)
      (sameIo : later.io = process.io)
      (nextTasks :
        later.tasks =
          actionStep json unsent process.tasks (.outside key)) :
      IoStep process later none

/-- What `main` does to the rest, up to the stock of the pools. -/
structure MainStep (config : ServerConfig) (process later : Process) :
    Prop where
  threads : later.tasks.threads = process.tasks.threads
  world : later.tasks.world.world = process.tasks.world.world
  io :
    later.io = process.io ∨
      later.stage = .startThreads ∧
        process.io.length < config.threadNum.toNat ∧
        later.io = process.io ++ [.polling]
  sessionOps : later.sessionOps = process.sessionOps

variable {json unsent}

theorem mainStep_init
    (config : ServerConfig) (process : Process) (server : Server)
    (size : Int) (next : Stage) (attempt : Attempt) :
    MainStep config process
      (process.init server size next attempt) := by
  rw [Process.init]
  split
  · exact ⟨rfl, rfl, .inl rfl, rfl⟩
  · cases attempt with
    | succeeds => exact ⟨rfl, rfl, .inl rfl, rfl⟩
    | fails => exact ⟨rfl, rfl, .inl rfl, rfl⟩
    | noHandle => exact ⟨rfl, rfl, .inl rfl, rfl⟩

theorem mainStep_shutdown
    (config : ServerConfig) (process : Process) (server : Server)
    (stage : Stage) :
    MainStep config process
      { process.shutdown server with stage := stage } := by
  rw [Process.shutdown]
  split
  · exact ⟨rfl, rfl, .inl rfl, rfl⟩
  · exact ⟨rfl, rfl, .inl rfl, rfl⟩

theorem mainStep_startThread
    {process : Process} (starts : process.stage = .startThreads)
    (config : ServerConfig) (attempt : Attempt) :
    MainStep config process
      (process.startThread config.threadNum attempt) := by
  rw [Process.startThread]
  split
  · exact ⟨rfl, rfl, .inl rfl, rfl⟩
  split
  · exact ⟨rfl, rfl, .inl rfl, rfl⟩
  split
  · exact ⟨rfl, rfl, .inr ⟨starts, by omega, rfl⟩, rfl⟩
  · exact ⟨rfl, rfl, .inl rfl, rfl⟩

theorem mainStep_mainStep
    (config : ServerConfig) (process : Process) (attempt : Attempt) :
    MainStep config process (process.mainStep config attempt) := by
  have same : MainStep config process process := ⟨rfl, rfl, .inl rfl, rfl⟩
  rw [Process.mainStep]
  split
  · exact mainStep_init ..
  · exact mainStep_init ..
  · split
    · exact ⟨rfl, rfl, .inl rfl, rfl⟩
    · exact ⟨rfl, rfl, .inl rfl, rfl⟩
  · exact ⟨rfl, rfl, .inl rfl, rfl⟩
  · exact ⟨rfl, rfl, .inl rfl, rfl⟩
  · next starts => exact mainStep_startThread starts ..
  · split
    · exact same
    · exact ⟨rfl, rfl, .inl rfl, rfl⟩
  · exact ⟨rfl, rfl, .inl rfl, rfl⟩
  · exact ⟨rfl, rfl, .inl rfl, rfl⟩
  · exact ⟨rfl, rfl, .inl rfl, rfl⟩
  · split
    · exact ⟨rfl, rfl, .inl rfl, rfl⟩
    · exact ⟨rfl, rfl, .inl rfl, rfl⟩
    · exact same
  · exact mainStep_shutdown ..
  · exact mainStep_shutdown ..
  · exact mainStep_shutdown ..
  · exact mainStep_shutdown ..
  · exact same
  · exact same

theorem ioStep_refl (process : Process) :
    IoStep json unsent process process none :=
  .idle rfl rfl

theorem ioStep_onAccept (process : Process) (thread : Nat) (ec : Bool) :
    IoStep json unsent process (process.onAccept thread ec) none := by
  rw [Process.onAccept]
  split
  · next polls =>
      exact .turned thread .polling .accepting polls.1.1 nofun nofun nofun
        rfl rfl
  · exact ioStep_refl process

theorem ioStep_onTimer (process : Process) (thread : Nat) (ec : Bool) :
    IoStep json unsent process
      (process.onTimer json unsent thread ec)
      (process.starts (.timer thread ec)) := by
  rw [Process.onTimer, Process.starts]
  by_cases polls : process.Polls thread ∧ 0 < process.syncWaits
  · rw [if_pos polls]
    by_cases syncs : (!ec && process.running) = true
    · have all :
          process.Polls thread ∧ 0 < process.syncWaits ∧
            (!ec && process.running) = true :=
        ⟨polls.1, polls.2, syncs⟩
      rw [if_pos syncs, if_pos all]
      exact .started thread .sync .syncViewCounts polls.1.1 rfl rfl rfl
    · have notAll :
          ¬ (process.Polls thread ∧ 0 < process.syncWaits ∧
            (!ec && process.running) = true) :=
        fun all => syncs all.2.2
      rw [if_neg syncs, if_neg notAll]
      exact .idle rfl rfl
  · have notAll :
        ¬ (process.Polls thread ∧ 0 < process.syncWaits ∧
          (!ec && process.running) = true) :=
      fun all => polls ⟨all.1, all.2.1⟩
    rw [if_neg polls, if_neg notAll]
    exact ioStep_refl process

theorem ioStep_onRequest
    (process : Process) (thread : Nat) (req : HttpRequest)
    (resp : HttpResponse) :
    IoStep json unsent process
      (process.onRequest json unsent thread req resp)
      (process.starts (.request thread req resp)) := by
  rw [Process.onRequest, Process.starts]
  by_cases polls : process.Polls thread ∧ 0 < process.sessionOps
  · rw [if_pos polls, if_pos polls]
    exact .started thread .request (.request req resp) polls.1.1 rfl rfl rfl
  · rw [if_neg polls, if_neg polls]
    exact ioStep_refl process

theorem ioStep_onSession
    (process : Process) (thread : Nat) (ends : SessionEnd) :
    IoStep json unsent process (process.onSession thread ends) none := by
  unfold Process.onSession
  split
  · next polls =>
      cases ends with
      | again => exact ioStep_refl process
      | closes => exact .idle rfl rfl
      | throws =>
          exact .turned thread .polling .left polls.1.1 nofun nofun nofun
            rfl rfl
  · exact ioStep_refl process

theorem ioStep_act
    (process : Process) (thread : Nat) (decision : Decision) :
    IoStep json unsent process
      (process.act json unsent thread decision) none := by
  rw [Process.act]
  split
  · next job task serves =>
      exact .acted thread job task decision serves rfl rfl
  · exact ioStep_refl process

theorem ioStep_finish (process : Process) (thread : Nat) :
    IoStep json unsent process (process.finish thread) none := by
  rw [Process.finish]
  split
  · next job task serves =>
      have ended {outcome : Except StdException (Option HttpResponse)}
          (isOutcome : process.tasks.outcome? task = some outcome) :
          ∀ otherJob other,
            IoThread.serving job task = .serving otherJob other →
              (process.tasks.outcome? other).isSome = true := by
        rintro _ _ ⟨⟩
        rw [isOutcome]
        rfl
      split
      · exact ioStep_refl process
      · next isOutcome =>
          refine .turned thread (.serving job task) .polling serves nofun
            nofun (ended isOutcome) ?_ ?_
          · cases job with
            | request => rfl
            | sync => rfl
          · cases job with
            | request => rfl
            | sync => rfl
      · next isOutcome =>
          exact .turned thread (.serving job task) .left serves nofun
            nofun (ended isOutcome) rfl rfl
  · next accepts =>
      exact .turned thread .accepting .polling accepts nofun nofun nofun
        rfl rfl
  · exact ioStep_refl process

theorem ioStep_leave (process : Process) (thread : Nat) :
    IoStep json unsent process (process.leave thread) none := by
  rw [Process.leave]
  split
  · next polls =>
      exact .turned thread .polling .left polls.1 nofun nofun nofun rfl rfl
  · exact ioStep_refl process

/-- What is left to `main`, to the signal and to the end of `run`. -/
structure Frame (process later : Process) : Prop where
  stage : later.stage = process.stage ∨ later.stage = .killed
  initialized : later.initialized = process.initialized
  opened : later.opened = process.opened
  closed : later.closed = process.closed
  halted : process.contextStopped = true → later.contextStopped = true
  running : later.running = true → process.running = true
  stopping :
    later.contextStopped = true →
      process.contextStopped = true ∨
        process.OutOfWork ∧ .polling ∈ process.io

theorem frame_refl (process : Process) : Frame process process :=
  ⟨.inl rfl, rfl, rfl, rfl, id, id, .inl⟩

theorem frame_finish (process : Process) (thread : Nat) :
    Frame process (process.finish thread) := by
  rw [Process.finish]
  split
  · next job task serves =>
      split
      · exact frame_refl process
      · cases job with
        | request => exact ⟨.inl rfl, rfl, rfl, rfl, id, id, .inl⟩
        | sync => exact ⟨.inl rfl, rfl, rfl, rfl, id, id, .inl⟩
      · exact ⟨.inl rfl, rfl, rfl, rfl, id, id, .inl⟩
  · exact ⟨.inl rfl, rfl, rfl, rfl, id, id, .inl⟩
  · exact frame_refl process

theorem frame_onTimer (process : Process) (thread : Nat) (ec : Bool) :
    Frame process (process.onTimer json unsent thread ec) := by
  rw [Process.onTimer]
  split
  · dsimp only
    split
    · exact ⟨.inl rfl, rfl, rfl, rfl, id, id, .inl⟩
    · exact ⟨.inl rfl, rfl, rfl, rfl, id, id, .inl⟩
  · exact frame_refl process

theorem frame_onAccept (process : Process) (thread : Nat) (ec : Bool) :
    Frame process (process.onAccept thread ec) := by
  rw [Process.onAccept]
  split
  · exact ⟨.inl rfl, rfl, rfl, rfl, id, id, .inl⟩
  · exact frame_refl process

theorem frame_onRequest
    (process : Process) (thread : Nat) (req : HttpRequest)
    (resp : HttpResponse) :
    Frame process (process.onRequest json unsent thread req resp) := by
  rw [Process.onRequest]
  split
  · exact ⟨.inl rfl, rfl, rfl, rfl, id, id, .inl⟩
  · exact frame_refl process

theorem frame_act
    (process : Process) (thread : Nat) (decision : Decision) :
    Frame process (process.act json unsent thread decision) := by
  rw [Process.act]
  split
  · exact ⟨.inl rfl, rfl, rfl, rfl, id, id, .inl⟩
  · exact frame_refl process

theorem frame_leave (process : Process) (thread : Nat) :
    Frame process (process.leave thread) := by
  rw [Process.leave]
  split
  · next leaves =>
      refine ⟨.inl rfl, rfl, rfl, rfl, fun _ => rfl, id, fun _ => ?_⟩
      rcases leaves with ⟨polls, stopped | idle⟩
      · exact .inl stopped
      · exact .inr ⟨idle, List.mem_of_getElem? polls⟩
  · exact frame_refl process

theorem frame_onSession
    (process : Process) (thread : Nat) (ends : SessionEnd) :
    Frame process (process.onSession thread ends) := by
  unfold Process.onSession
  split
  · cases ends with
    | again => exact frame_refl process
    | closes => exact ⟨.inl rfl, rfl, rfl, rfl, id, id, .inl⟩
    | throws => exact ⟨.inl rfl, rfl, rfl, rfl, id, id, .inl⟩
  · exact frame_refl process

/-- A step is one of `main`, or one outside of it. -/
inductive StepCases (json : JsonLibrary)
    (unsent : Statement → World → Option (List Row) × World)
    (config : ServerConfig) (process : Process) (event : ProcessEvent)
    (later : Process) : Prop where
  | ceased (isOver : process.Alive = false) (same : later = process)
  | main (attempt : Attempt) (isMain : event = .main attempt)
      (isStep : later = process.mainStep config attempt)
  | outside (alive : process.Alive = true)
      (notMain : ∀ attempt, event ≠ .main attempt)
      (isStep : IoStep json unsent process later (process.starts event))
      (frame : Frame process later)

theorem step_cases
    (config : ServerConfig) (process : Process) (event : ProcessEvent) :
    StepCases json unsent config process event
      (process.step json unsent config event) := by
  by_cases alive : process.Alive = true
  · simp only [Process.step, alive, if_true]
    cases event with
    | main attempt => exact .main attempt rfl rfl
    | signal =>
        simp only [Process.signalHandler]
        split
        · next runs =>
            exact .outside alive nofun (.idle rfl rfl)
              ⟨.inl rfl, rfl, rfl, rfl, id, fun _ => runs, .inl⟩
        · exact .outside alive nofun (.idle rfl rfl)
            ⟨.inr rfl, rfl, rfl, rfl, id, id, .inl⟩
    | accept thread ec =>
        exact .outside alive nofun (ioStep_onAccept process thread ec)
          (frame_onAccept process thread ec)
    | timer thread ec =>
        exact .outside alive nofun (ioStep_onTimer process thread ec)
          (frame_onTimer process thread ec)
    | request thread req resp =>
        exact .outside alive nofun (ioStep_onRequest process thread req resp)
          (frame_onRequest process thread req resp)
    | session thread ends =>
        exact .outside alive nofun (ioStep_onSession process thread ends)
          (frame_onSession process thread ends)
    | act thread decision =>
        exact .outside alive nofun (ioStep_act process thread decision)
          (frame_act process thread decision)
    | finish thread =>
        exact .outside alive nofun (ioStep_finish process thread)
          (frame_finish process thread)
    | leave thread =>
        exact .outside alive nofun (ioStep_leave process thread)
          (frame_leave process thread)
    | timeOut key =>
        exact .outside alive nofun (.timedOut key rfl rfl)
          ⟨.inl rfl, rfl, rfl, rfl, id, id, .inl⟩
  · have isOver : process.Alive = false := by simpa using alive
    refine .ceased isOver ?_
    simp only [Process.step, isOver, Bool.false_eq_true, if_false]

end Steps

/-! ## The stage after a step of `main` -/

section Stages

variable (config : ServerConfig) (process : Process) (attempt : Attempt)

theorem stage_init
    (server : Server) (size : Int) (next : Stage) :
    let later := process.init server size next attempt
    later.stage = process.stage ∨ later.stage = next ∨
      later.stage = .destroyCache 1 := by
  intro later
  simp only [later, Process.init]
  split
  · exact Or.inr (Or.inl rfl)
  · cases attempt with
    | succeeds => exact Or.inl rfl
    | fails => exact Or.inr (Or.inr rfl)
    | noHandle => exact Or.inr (Or.inr rfl)

theorem stage_startThread
    {process : Process} (starts : process.stage = .startThreads)
    (threadNum : Int) (attempt : Attempt) :
    let later := process.startThread threadNum attempt
    later.stage = .startThreads ∨ later.stage = .wait ∨
      later.stage = .killed := by
  intro later
  simp only [later, Process.startThread]
  split
  · exact Or.inr (Or.inr rfl)
  split
  · exact Or.inr (Or.inl rfl)
  split
  · exact Or.inl starts
  · exact Or.inr (Or.inr rfl)

/-- Where `main` can be after a step. -/
inductive Goes (process : Process) : Stage → Stage → Prop where
  | stays (stage : Stage) : Goes process stage stage
  | starts {stage next : Stage} (before : stage.starts = true)
      (now : next.starts = true ∨ next = .startThreads) :
      Goes process stage next
  | fails {stage : Stage} (before : stage.starts = true) :
      Goes process stage (.destroyCache 1)
  | dies (stage : Stage) : Goes process stage .killed
  | serves {stage next : Stage} (before : stage.serves = true)
      (now : next = .wait ∨ next = .cancelTimer ∨ next = .markStopped ∨
        next = .stopContext ∨ next = .join 0) :
      Goes process stage next
  | joins (index : Nat) (left : process.io[index]? = some .left) :
      Goes process (.join index) (.join (index + 1))
  | joined (index : Nat) (finished : process.io[index]? = none) :
      Goes process (.join index) .shutdownCache
  | ends {stage next : Stage} (before : stage.ends = true)
      (now : next.ends = true) (same : next.unharmed = stage.unharmed) :
      Goes process stage next

theorem goes_init
    (server : Server) (size : Int) {next : Stage}
    (before : process.stage.starts = true) (now : next.starts = true) :
    Goes process process.stage
      (process.init server size next attempt).stage := by
  rcases stage_init process attempt server size next with
    same | went | failed
  · rw [same]
    exact .stays _
  · rw [went]
    exact .starts before (.inl now)
  · rw [failed]
    exact .fails before

theorem goes_mainStep :
    Goes process process.stage (process.mainStep config attempt).stage := by
  rw [Process.mainStep]
  split
  · next isStage => exact goes_init _ _ _ _ (by rw [isStage]; rfl) rfl
  · next isStage => exact goes_init _ _ _ _ (by rw [isStage]; rfl) rfl
  · next isStage =>
      rw [isStage]
      split
      · exact .starts rfl (.inl rfl)
      · exact .dies _
  · next isStage =>
      rw [isStage]
      exact .starts rfl (.inl rfl)
  · next isStage =>
      rw [isStage]
      exact .starts rfl (.inr rfl)
  · next isStage =>
      rcases stage_startThread isStage config.threadNum attempt with
        same | waits | dies
      · rw [same, isStage]
        exact .stays _
      · rw [waits, isStage]
        exact .serves rfl (.inl rfl)
      · rw [dies]
        exact .dies _
  · next isStage =>
      split
      · exact .stays _
      · rw [isStage]
        exact .serves rfl (.inr (.inl rfl))
  · next isStage =>
      rw [isStage]
      exact .serves rfl (.inr (.inr (.inl rfl)))
  · next isStage =>
      rw [isStage]
      exact .serves rfl (.inr (.inr (.inr (.inl rfl))))
  · next isStage =>
      rw [isStage]
      exact .serves rfl (.inr (.inr (.inr (.inr rfl))))
  · next index isStage =>
      split
      · next finished =>
          rw [isStage]
          exact .joined index finished
      · next left =>
          rw [isStage]
          exact .joins index left
      · exact .stays _
  · next isStage =>
      rw [isStage]
      exact .ends rfl rfl rfl
  · next isStage =>
      rw [isStage]
      exact .ends rfl rfl rfl
  · next isStage =>
      rw [isStage]
      exact .ends rfl rfl rfl
  · next isStage =>
      rw [isStage]
      exact .ends rfl rfl rfl
  · exact .stays _
  · exact .stays _

variable {process} {stage next : Stage}

theorem not_starts_of_ends {stage : Stage} (ends : stage.ends = true) :
    stage.starts = false := by
  cases stage
  all_goals first
    | rfl
    | cases (show false = true from ends)

theorem Goes.starts_of
    (goes : Goes process stage next) (now : next.starts = true) :
    stage.starts = true := by
  cases goes with
  | stays => exact now
  | starts before _ => exact before
  | serves before after =>
      rcases after with rfl | rfl | rfl | rfl | rfl
      all_goals cases now
  | ends before after _ =>
      cases next
      all_goals first
        | cases (show false = true from now)
        | cases (show false = true from after)
  | _ => cases now

/-- A stage of `join` comes after the one before it, or is the first. -/
theorem Goes.join_of
    {count : Nat} (goes : Goes process stage (.join count)) :
    stage = .join count ∨ count = 0 ∨
      ∃ index, count = index + 1 ∧ stage = .join index ∧
        process.io[index]? = some .left := by
  cases goes with
  | stays => exact .inl rfl
  | starts before after =>
      rcases after with starts | threads
      · cases starts
      · cases threads
  | serves before after =>
      rcases after with other | other | other | other | first
      · cases other
      · cases other
      · cases other
      · cases other
      · cases first
        exact .inr (.inl rfl)
  | joins index left => exact .inr (.inr ⟨index, rfl, rfl, left⟩)
  | ends before after _ => cases after

/-- `main` ends after the last join, or before the threads. -/
theorem Goes.ends_of
    (goes : Goes process stage next) (now : next.ends = true) :
    stage.ends = true ∨ stage.starts = true ∨
      ∃ index, stage = .join index ∧ process.io[index]? = none := by
  cases goes with
  | stays => exact .inl now
  | starts before _ => exact .inr (.inl before)
  | fails before => exact .inr (.inl before)
  | joined index finished => exact .inr (.inr ⟨index, rfl, finished⟩)
  | ends before _ _ => exact .inl before
  | serves before after =>
      rcases after with rfl | rfl | rfl | rfl | rfl
      all_goals cases now
  | _ => cases now

/-- Without a failure it ends after the last join only. -/
theorem Goes.joined_of
    (goes : Goes process stage next) (now : next.ends = true)
    (unharmed : next.unharmed = true) :
    stage.ends = true ∨
      ∃ index, stage = .join index ∧ process.io[index]? = none := by
  rcases goes.ends_of now with before | starts | joined
  · exact .inl before
  · cases goes with
    | stays => exact .inl now
    | starts before after =>
        rcases after with still | rfl
        · rw [not_starts_of_ends now] at still
          cases still
        · cases now
    | fails before => cases unharmed
    | dies => cases now
    | serves before after =>
        rcases after with rfl | rfl | rfl | rfl | rfl
        all_goals cases now
    | joins index left => cases now
    | joined index finished => cases starts
    | ends before after same => exact .inl before
  · exact .inr joined

/-- The threads run only after a stage before them, or beside them. -/
theorem Goes.runs_of
    (goes : Goes process stage next)
    (now : next.starts = true ∨ next.serves = true) :
    stage.starts = true ∨ stage.serves = true := by
  cases goes with
  | stays => exact now
  | starts before _ => exact .inl before
  | fails before => exact .inl before
  | serves before _ => exact .inr before
  | joins index left => exact .inr rfl
  | joined index finished => exact .inr rfl
  | dies =>
      rcases now with impossible | impossible
      · cases impossible
      · cases impossible
  | ends before after same =>
      rcases now with starts | serves
      · rw [not_starts_of_ends after] at starts
        cases starts
      · cases next
        all_goals first
          | cases (show false = true from serves)
          | cases (show false = true from after)

theorem Goes.unharmed_of
    (goes : Goes process stage next) (now : next.unharmed = true) :
    stage.unharmed = true := by
  cases goes with
  | stays => exact now
  | starts before _ =>
      cases stage
      all_goals first
        | rfl
        | cases (show false = true from before)
  | fails _ => cases now
  | dies => cases now
  | serves before _ =>
      cases stage
      all_goals first
        | rfl
        | cases (show false = true from before)
  | joins index left => rfl
  | joined index finished => rfl
  | ends before after same =>
      rw [← same]
      exact now

end Stages

end LightningServer.Main
