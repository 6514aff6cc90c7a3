import LightningServer.Main.Tasks

/-!
# One sync at a time

The handler of the sync timer sets the timer again after the sync, and `main`
sets it once.  So there is at most one wait or one sync at any time, and two
syncs never overlap, on any number of threads.  The chain goes on until a
wait ends with an error or after the signal, or a sync throws; nothing sets
the timer again then.
-/

namespace LightningServer.Main

open LightningServer.Foundation
open LightningServer.Foundation.Numerals
open LightningServer.Net
open LightningServer.Store
open LightningServer.Handler

/-! ## The chain of waits and syncs -/

/-- The sync that the thread runs, counted. -/
def IoThread.syncs : IoThread → Nat
  | .serving .sync _ => 1
  | _ => 0

/-- The waits on the timer, and the syncs that run. -/
def syncs (process : Process) : Nat :=
  process.syncWaits + (process.io.map IoThread.syncs).sum

/-- `main` has still to set the timer. -/
def Stage.unscheduled : Stage → Nat
  | .initDatabase => 1
  | .initCache => 1
  | .construct => 1
  | .scheduleSync => 1
  | _ => 0

/-- The handler of the timer ends without setting it again. -/
def EndsSync (process : Process) : ProcessEvent → Prop
  | .timer thread ec =>
      process.Polls thread ∧ 0 < process.syncWaits ∧
        (ec = true ∨ process.running = false)
  | .finish thread =>
      ∃ (task : Nat) (exception : StdException),
        process.io[thread]? = some (.serving .sync task) ∧
          process.tasks.outcome? task = some (.error exception)
  | _ => False

section Chain

variable {config : ServerConfig} {json : JsonLibrary}
variable {unsent : Statement → World → Option (List Row) × World}
variable {process : Process}

/-- A thread goes on with something else. -/
theorem syncs_set
    {thread : Nat} {old : IoThread}
    (isOld : process.io[thread]? = some old) (new : IoThread) :
    ((process.io.set thread new).map IoThread.syncs).sum + old.syncs =
      (process.io.map IoThread.syncs).sum + new.syncs :=
  Lending.sum_map_set isOld new IoThread.syncs

/-- Between two turns, with as many waits and syncs, or one less. -/
def Drops (process later : Process) (ends : Prop) : Prop :=
  (¬ ends → syncs later = syncs process) ∧
    (ends → syncs later + 1 = syncs process)

theorem drops_refl (process : Process) {ends : Prop} (never : ¬ ends) :
    Drops process process ends :=
  ⟨fun _ => rfl, fun impossible => absurd impossible never⟩

theorem drops_onAccept (thread : Nat) (ec : Bool) :
    Drops process (process.onAccept thread ec) False := by
  refine ⟨fun _ => ?_, False.elim⟩
  rw [Process.onAccept]
  split
  · next polls =>
      have turned := syncs_set polls.1.1 .accepting
      simpa [syncs, Process.setIo, IoThread.syncs] using turned
  · rfl

theorem syncs_startTask
    {thread : Nat} (polls : process.io[thread]? = some .polling) (job : Job)
    (task : ApiTask) :
    syncs (process.startTask json unsent thread job task) =
      syncs process + (IoThread.serving job 0).syncs := by
  have turned :=
    syncs_set polls (.serving job process.tasks.threads.length)
  simp only [syncs, Process.startTask, Process.setIo] at turned ⊢
  cases job with
  | request =>
      simp only [IoThread.syncs] at turned ⊢
      omega
  | sync =>
      simp only [IoThread.syncs] at turned ⊢
      omega

theorem drops_onTimer (thread : Nat) (ec : Bool) :
    Drops process (process.onTimer json unsent thread ec)
      (EndsSync process (.timer thread ec)) := by
  rw [Process.onTimer, EndsSync]
  split
  · next takes =>
      rcases takes with ⟨polls, positive⟩
      dsimp only
      split
      · next goesOn =>
          have neither : ¬ (ec = true ∨ process.running = false) := by
            simpa using goesOn
          refine ⟨fun _ => ?_, fun ends => absurd ends.2.2 neither⟩
          refine (syncs_startTask ?_ .sync .syncViewCounts).trans ?_
          · exact polls.1
          · simp only [syncs, IoThread.syncs]
            omega
      · next ends =>
          have either : ec = true ∨ process.running = false := by
            cases ec with
            | true => exact .inl rfl
            | false => simpa using ends
          refine ⟨fun still => absurd ⟨polls, positive, either⟩ still,
            fun _ => ?_⟩
          simp only [syncs]
          omega
  · next idle =>
      refine ⟨fun _ => rfl, ?_⟩
      rintro ⟨polls, positive, -⟩
      exact absurd ⟨polls, positive⟩ idle

theorem drops_onRequest
    (thread : Nat) (req : HttpRequest) (resp : HttpResponse) :
    Drops process (process.onRequest json unsent thread req resp) False := by
  refine ⟨fun _ => ?_, False.elim⟩
  rw [Process.onRequest]
  split
  · next takes =>
      refine (syncs_startTask ?_ .request (.request req resp)).trans ?_
      · exact takes.1.1
      · rfl
  · rfl

theorem drops_onSession (thread : Nat) (ends : SessionEnd) :
    Drops process (process.onSession thread ends) False := by
  refine ⟨fun _ => ?_, False.elim⟩
  unfold Process.onSession
  split
  · next takes =>
      cases ends with
      | again => rfl
      | closes => rfl
      | throws =>
          have turned := syncs_set takes.1.1 .left
          simpa [syncs, Process.setIo, IoThread.syncs] using turned
  · rfl

theorem drops_act (thread : Nat) (decision : Decision) :
    Drops process (process.act json unsent thread decision) False := by
  refine ⟨fun _ => ?_, False.elim⟩
  rw [Process.act]
  split
  · rfl
  · rfl

theorem drops_leave (thread : Nat) :
    Drops process (process.leave thread) False := by
  refine ⟨fun _ => ?_, False.elim⟩
  rw [Process.leave]
  split
  · next polls =>
      have turned := syncs_set polls.1 .left
      simpa [syncs, Process.setIo, IoThread.syncs] using turned
  · rfl

/-- The handler of the timer sets it again, unless the sync threw. -/
theorem drops_finish (thread : Nat) :
    Drops process (process.finish thread)
      (EndsSync process (.finish thread)) := by
  rw [Process.finish, EndsSync]
  cases isThread : process.io[thread]? with
  | none => exact drops_refl process (by simp)
  | some state =>
      cases state with
      | polling => exact drops_refl process (by simp)
      | left => exact drops_refl process (by simp)
      | accepting =>
          have turned := syncs_set isThread .polling
          refine ⟨fun _ => ?_, by simp⟩
          simpa [syncs, Process.setIo, IoThread.syncs] using turned
      | serving job task =>
          have back := syncs_set isThread .polling
          have out := syncs_set isThread .left
          dsimp only
          cases isOutcome : process.tasks.outcome? task with
          | none =>
              refine drops_refl process ?_
              rintro ⟨other, exception, same, threw⟩
              cases same
              rw [isOutcome] at threw
              cases threw
          | some outcome =>
              cases outcome with
              | ok response =>
                  constructor
                  · intro _
                    cases job with
                    | request =>
                        simpa [syncs, Process.setIo, Process.afterJob,
                          IoThread.syncs] using back
                    | sync =>
                        simp only [syncs, Process.setIo, Process.afterJob,
                          IoThread.syncs] at back ⊢
                        omega
                  · rintro ⟨other, exception, same, threw⟩
                    cases same
                    rw [isOutcome] at threw
                    cases threw
              | error exception =>
                  cases job with
                  | request =>
                      refine ⟨fun _ => ?_, by simp⟩
                      simpa [syncs, Process.setIo, IoThread.syncs]
                        using out
                  | sync =>
                      refine ⟨fun never => ?_, fun _ => ?_⟩
                      · exact absurd ⟨task, exception, rfl, isOutcome⟩
                          never
                      · simp only [syncs, Process.setIo,
                          IoThread.syncs] at out ⊢
                        omega

/-- Outside of `main` the chain ends, or goes on. -/
theorem drops_step
    (alive : process.Alive = true) {event : ProcessEvent}
    (outside : ∀ attempt, event ≠ .main attempt) :
    Drops process (process.step json unsent config event)
      (EndsSync process event) := by
  simp only [Process.step, alive, if_true]
  cases event with
  | main attempt => exact absurd rfl (outside attempt)
  | signal =>
      refine ⟨fun _ => ?_, False.elim⟩
      simp only [Process.signalHandler]
      split
      · rfl
      · rfl
  | accept thread ec => exact drops_onAccept thread ec
  | timer thread ec => exact drops_onTimer thread ec
  | request thread req resp => exact drops_onRequest thread req resp
  | session thread ends => exact drops_onSession thread ends
  | act thread decision => exact drops_act thread decision
  | finish thread => exact drops_finish thread
  | leave thread => exact drops_leave thread
  | timeOut key => exact ⟨fun _ => rfl, False.elim⟩

/-! ## Steps of `main` -/

theorem syncs_init
    (server : Server) (size : Int) (next : Stage) (attempt : Attempt) :
    syncs (process.init server size next attempt) = syncs process := by
  rw [Process.init]
  split
  · rfl
  · cases attempt with
    | succeeds => rfl
    | fails => rfl
    | noHandle => rfl

theorem syncs_shutdown (server : Server) :
    syncs (process.shutdown server) = syncs process := by
  rw [Process.shutdown]
  split
  · rfl
  · rfl

theorem syncs_startThread (threadNum : Int) (attempt : Attempt) :
    syncs (process.startThread threadNum attempt) = syncs process := by
  rw [Process.startThread]
  split
  · rfl
  split
  · rfl
  split
  · simp [syncs, IoThread.syncs]
  · rfl

/-- `main` sets the timer in one stage. -/
theorem syncs_mainStep (attempt : Attempt) :
    syncs (process.mainStep config attempt) =
      syncs process +
        if process.stage = .scheduleSync then 1 else 0 := by
  rw [Process.mainStep]
  cases isStage : process.stage with
  | initDatabase => exact syncs_init ..
  | initCache => exact syncs_init ..
  | construct =>
      dsimp only
      split
      · rfl
      · rfl
  | scheduleSync =>
      simp only [syncs, if_true]
      omega
  | startThreads => exact syncs_startThread ..
  | wait =>
      dsimp only
      split
      · rfl
      · rfl
  | join index =>
      dsimp only
      split
      · rfl
      · rfl
      · rfl
  | shutdownCache => exact syncs_shutdown .redis
  | shutdownDatabase => exact syncs_shutdown .mysql
  | destroyCache status => exact syncs_shutdown .redis
  | destroyDatabase status => exact syncs_shutdown .mysql
  | _ => rfl

theorem unscheduled_of_serves
    {stage : Stage} (serves : stage.serves = true) :
    stage.unscheduled = 0 := by
  cases stage
  all_goals first
    | rfl
    | cases (show false = true from serves)

/-- What `main` has still to do, before and after a step. -/
def Falls (now later : Stage) (done : Nat) : Prop :=
  later.unscheduled + done ≤ now.unscheduled ∧
    (later.starts = true ∨ later.serves = true →
      later.unscheduled + done = now.unscheduled)

theorem falls_of_eq
    {now later : Stage} {done : Nat}
    (same : later.unscheduled + done = now.unscheduled) :
    Falls now later done :=
  ⟨Nat.le_of_eq same, fun _ => same⟩

/-- A stage after which no thread runs. -/
theorem falls_of_over
    (now : Stage) {later : Stage} (starts : later.starts = false)
    (serves : later.serves = false) (none : later.unscheduled = 0) :
    Falls now later 0 := by
  refine ⟨by omega, ?_⟩
  rw [starts, serves]
  rintro (impossible | impossible)
  · cases impossible
  · cases impossible

theorem falls_init
    (server : Server) (size : Int) (next : Stage) (attempt : Attempt)
    (before : process.stage.unscheduled = 1) (now : next.unscheduled = 1) :
    Falls process.stage (process.init server size next attempt).stage 0 := by
  rcases stage_init process attempt server size next with
    same | went | failed
  · rw [same]
    exact falls_of_eq rfl
  · rw [went]
    exact falls_of_eq (now.trans before.symm)
  · rw [failed]
    exact falls_of_over _ rfl rfl rfl

theorem falls_mainStep (attempt : Attempt) :
    Falls process.stage (process.mainStep config attempt).stage
      (if process.stage = .scheduleSync then 1 else 0) := by
  rw [Process.mainStep]
  cases isStage : process.stage with
  | initDatabase =>
      have falls :=
        falls_init .mysql config.mysqlPoolSize .initCache attempt
          (by rw [isStage]; rfl) rfl
      rw [isStage] at falls
      exact falls
  | initCache =>
      have falls :=
        falls_init .redis config.redisPoolSize .construct attempt
          (by rw [isStage]; rfl) rfl
      rw [isStage] at falls
      exact falls
  | construct =>
      dsimp only
      split
      · exact falls_of_eq rfl
      · exact falls_of_over _ rfl rfl rfl
  | startThreads =>
      dsimp only
      rcases stage_startThread isStage config.threadNum attempt with
        same | waits | dies
      · rw [same]
        exact falls_of_eq rfl
      · rw [waits]
        exact falls_of_eq rfl
      · rw [dies]
        exact falls_of_over _ rfl rfl rfl
  | wait =>
      dsimp only
      split
      · rw [isStage]
        exact falls_of_eq rfl
      · exact falls_of_eq rfl
  | join index =>
      dsimp only
      split
      · exact falls_of_over _ rfl rfl rfl
      · exact falls_of_eq rfl
      · rw [isStage]
        exact falls_of_eq rfl
  | returned status =>
      dsimp only
      rw [isStage]
      exact falls_of_eq rfl
  | killed =>
      dsimp only
      rw [isStage]
      exact falls_of_eq rfl
  | scheduleSync => exact falls_of_eq rfl
  | startAccept => exact falls_of_eq rfl
  | cancelTimer => exact falls_of_eq rfl
  | markStopped => exact falls_of_eq rfl
  | stopContext => exact falls_of_eq rfl
  | shutdownCache => exact falls_of_eq rfl
  | shutdownDatabase => exact falls_of_eq rfl
  | destroyCache status => exact falls_of_eq rfl
  | destroyDatabase status => exact falls_of_eq rfl

end Chain

/-! ## Runs -/

section Runs

variable {config : ServerConfig} {json : JsonLibrary}
variable {unsent : Statement → World → Option (List Row) × World}

/-- Set once, the timer is waited for or served until its chain ends. -/
structure Chained (process : Process) (unbroken : Prop) : Prop where
  most : syncs process + process.stage.unscheduled ≤ 1
  exact :
    process.stage.starts = true ∨ process.stage.serves = true →
      (syncs process + process.stage.unscheduled = 1 ↔ unbroken)

theorem chained_start (world : World) : Chained (.start world) True where
  most := Nat.le_refl 1
  exact _ := iff_of_true rfl trivial

theorem Chained.mainStep
    {process : Process} {unbroken : Prop}
    (chained : Chained process unbroken) (attempt : Attempt) :
    Chained (process.mainStep config attempt) unbroken := by
  have counted := @syncs_mainStep config process attempt
  rcases @falls_mainStep config process attempt with ⟨few, same⟩
  have goes := goes_mainStep config process attempt
  constructor
  · have most := chained.most
    omega
  · intro runs
    rw [← chained.exact (goes.runs_of runs), counted]
    have whole := same runs
    constructor
    · intro one
      omega
    · intro one
      omega

theorem Chained.outside
    {process later : Process} {unbroken ends : Prop}
    (chained : Chained process unbroken)
    (stage : later.stage = process.stage ∨ later.stage = .killed)
    (drops : Drops process later ends) :
    Chained later (unbroken ∧ ¬ ends) := by
  have most := chained.most
  have fewer : syncs later ≤ syncs process := by
    by_cases broken : ends
    · have less := drops.2 broken
      omega
    · exact Nat.le_of_eq (drops.1 broken)
  rcases stage with same | dead
  · constructor
    · rw [same]
      omega
    · intro runs
      rw [same] at runs ⊢
      have before := chained.exact runs
      by_cases broken : ends
      · have less := drops.2 broken
        refine iff_of_false (by omega) fun both => both.2 broken
      · rw [drops.1 broken, before]
        exact (and_iff_left broken).symm
  · constructor
    · rw [dead]
      exact Nat.le_trans fewer (Nat.le_trans (Nat.le_add_right _ _) most)
    · rw [dead]
      rintro (impossible | impossible)
      · cases impossible
      · cases impossible

theorem Chained.step
    {process : Process} {unbroken : Prop}
    (chained : Chained process unbroken) (event : ProcessEvent) :
    Chained (process.step json unsent config event)
      (unbroken ∧ ¬ (process.Alive = true ∧ EndsSync process event)) := by
  cases step_cases config process event with
  | ceased isOver same =>
      rw [same, isOver]
      simpa using chained
  | main attempt isMain isStep =>
      rw [isStep, isMain]
      simpa [EndsSync] using chained.mainStep attempt
  | outside alive notMain isStep frame =>
      rw [alive]
      simpa using chained.outside frame.stage (drops_step alive notMain)

theorem chained_run (world : World) (events : List ProcessEvent) :
    Chained (processRun json unsent config world events)
      (Transition.Along (Process.step json unsent config)
        (fun process event =>
          ¬ (process.Alive = true ∧ EndsSync process event))
        (.start world) events) := by
  induction events using List.reverseRecOn with
  | nil => exact chained_start world
  | append_singleton rest event induction =>
      simp only [Transition.along_append, Transition.along_cons,
        Transition.along_nil, and_true, processRun_concat]
      exact induction.step event

/--
At most one sync is waited for or runs, at any time; and while the IO threads
run, there is one, exactly if no wait has ended with an error or after the
signal and no sync has thrown.
-/
theorem one_sync_at_a_time
    (json : JsonLibrary)
    (unsent : Statement → World → Option (List Row) × World)
    (config : ServerConfig) (world : World)
    (events : List ProcessEvent) :
    let process := processRun json unsent config world events
    syncs process ≤ 1 ∧
      (process.stage.serves = true →
        (syncs process = 1 ↔
          Transition.Along (Process.step json unsent config)
            (fun state event =>
              ¬ (state.Alive = true ∧ EndsSync state event))
            (.start world) events)) := by
  intro process
  have chained := @chained_run config json unsent world events
  constructor
  · exact Nat.le_trans (Nat.le_add_right _ _) chained.most
  · intro serves
    have exact := chained.exact (.inr serves)
    rw [unscheduled_of_serves serves] at exact
    exact exact

end Runs

end LightningServer.Main
