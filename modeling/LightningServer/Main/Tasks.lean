import LightningServer.Foundation.Progress
import LightningServer.Foundation.Tally
import LightningServer.Main.Steps

/-!
# The tasks of the process

A task that has not ended is worked on by an IO thread, so there are never
more of them than threads, and none is left when all threads have been
joined.  `process_runs_tasks` reads a run of the process as a run of its
tasks, about which `Handler.ApiThreads` speaks.
-/

namespace LightningServer.Main

open LightningServer.Foundation
open LightningServer.Foundation.Numerals
open LightningServer.Net
open LightningServer.Store
open LightningServer.Handler

/-! ## What holds in every state -/

structure Sound (config : ServerConfig) (process : Process) : Prop where
  starts : process.stage.starts = true → process.io = []
  joined :
    ∀ count, process.stage = .join count →
      ∀ index < count, process.io[index]? = some .left
  ends : process.stage.ends = true → ∀ state ∈ process.io, state = .left
  /-- a task that has not ended is worked on -/
  served :
    ∀ (task : Nat) (program : Actions (Option HttpResponse)),
      process.tasks.threads[task]? = some program →
        program.outcome? = none →
          ∃ (thread : Nat) (job : Job),
            process.io[thread]? = some (.serving job task)
  known :
    ∀ (thread : Nat) (job : Job) (task : Nat),
      process.io[thread]? = some (.serving job task) →
        task < process.tasks.threads.length
  /-- the joins come after the stop -/
  halted :
    ∀ count, process.stage = .join count → process.contextStopped = true
  few : process.io.length ≤ config.threadNum.toNat

section Sound

variable {config : ServerConfig} {json : JsonLibrary}
variable {unsent : Statement → World → Option (List Row) × World}

theorem sound_start (world : World) : Sound config (.start world) where
  starts _ := rfl
  joined := nofun
  ends := nofun
  served := nofun
  known := nofun
  halted := nofun
  few := Nat.zero_le _

/-- Outside of `main` at most one thread moves, which is inside. -/
theorem IoStep.io_cases
    {process later : Process} {started : Option ApiTask}
    (isStep : IoStep json unsent process later started) :
    later.io = process.io ∨
      ∃ (thread : Nat) (old new : IoThread),
        process.io[thread]? = some old ∧ old ≠ .left ∧
          later.io = process.io.set thread new := by
  cases isStep with
  | idle sameIo sameTasks => exact .inl sameIo
  | turned thread old new isOld inside noTask ended nextIo sameTasks =>
      exact .inr ⟨thread, old, new, isOld, inside, nextIo⟩
  | started thread job task polls isJob nextIo nextTasks =>
      exact .inr ⟨thread, .polling, _, polls, nofun, nextIo⟩
  | acted thread job task decision serves sameIo nextTasks =>
      exact .inl sameIo
  | timedOut key sameIo nextTasks => exact .inl sameIo

/-- A thread that has left stays out. -/
theorem IoStep.left
    {process later : Process} {started : Option ApiTask}
    (isStep : IoStep json unsent process later started)
    {index : Nat} (left : process.io[index]? = some .left) :
    later.io[index]? = some .left := by
  rcases isStep.io_cases with same | ⟨thread, old, new, isOld, inside, isSet⟩
  · rw [same]
    exact left
  · have other : thread ≠ index := by
      rintro rfl
      rw [left] at isOld
      exact inside (Option.some.inj isOld).symm
    rw [isSet, List.getElem?_set_ne other]
    exact left

/-- When all have left, no thread moves. -/
theorem IoStep.io_of_left
    {process later : Process} {started : Option ApiTask}
    (isStep : IoStep json unsent process later started)
    (left : ∀ state ∈ process.io, state = .left) :
    later.io = process.io := by
  rcases isStep.io_cases with same | ⟨thread, old, new, isOld, inside, -⟩
  · exact same
  · exact absurd (left old (List.mem_of_getElem? isOld)) inside

/-- Then the tasks change by the clock of the keys only. -/
theorem IoStep.tasks_of_left
    {process later : Process} {started : Option ApiTask}
    (isStep : IoStep json unsent process later started)
    (left : ∀ state ∈ process.io, state = .left) :
    later.tasks = process.tasks ∨
      ∃ key, later.tasks =
        actionStep json unsent process.tasks (.outside key) := by
  cases isStep with
  | idle sameIo sameTasks => exact .inl sameTasks
  | turned thread old new isOld inside noTask ended nextIo sameTasks =>
      exact .inl sameTasks
  | started thread job task polls isJob nextIo nextTasks =>
      cases left _ (List.mem_of_getElem? polls)
  | acted thread job task decision serves sameIo nextTasks =>
      cases left _ (List.mem_of_getElem? serves)
  | timedOut key sameIo nextTasks => exact .inr ⟨key, nextTasks⟩

theorem Sound.served_ioStep
    {process later : Process} (sound : Sound config process)
    {started : Option ApiTask}
    (isStep : IoStep json unsent process later started) {task : Nat}
    {program : Actions (Option HttpResponse)}
    (present : later.tasks.threads[task]? = some program)
    (unfinished : program.outcome? = none) :
    ∃ (thread : Nat) (job : Job),
      later.io[thread]? = some (.serving job task) := by
  cases isStep with
  | idle sameIo sameTasks =>
      rw [sameTasks] at present
      rw [sameIo]
      exact sound.served task program present unfinished
  | turned thread old new isOld inside noTask ended nextIo sameTasks =>
      rw [sameTasks] at present
      rcases sound.served task program present unfinished with
        ⟨other, job, serves⟩
      have apart : thread ≠ other := by
        rintro rfl
        rw [isOld] at serves
        have finished := ended job task (Option.some.inj serves)
        rw [Pool.outcome?, present, Option.bind_some, unfinished] at finished
        cases finished
      refine ⟨other, job, ?_⟩
      rw [nextIo, List.getElem?_set_ne apart]
      exact serves
  | started thread job task' polls isJob nextIo nextTasks =>
      rw [nextTasks] at present
      rw [nextIo]
      rcases Pool.getElem?_arrived_cases present with ⟨rfl, -⟩ | old
      · exact ⟨thread, job, List.getElem?_set_self
          (List.getElem?_eq_some_iff.mp polls).1⟩
      · rcases sound.served task program old unfinished with
          ⟨other, otherJob, serves⟩
        have apart : thread ≠ other := by
          rintro rfl
          rw [polls] at serves
          cases serves
        refine ⟨other, otherJob, ?_⟩
        rw [List.getElem?_set_ne apart]
        exact serves
  | acted thread job acting decision serves sameIo nextTasks =>
      rw [nextTasks] at present
      rw [sameIo]
      by_cases same : task = acting
      · subst same
        exact ⟨thread, job, serves⟩
      · rw [actionStep, Pool.getElem?_ruledStep_of_ne _ _ _ _ same]
          at present
        exact sound.served task program present unfinished
  | timedOut key sameIo nextTasks =>
      rw [nextTasks] at present
      rw [sameIo]
      exact sound.served task program present unfinished

theorem length_actionStep
    (tasks : Tasks) (event : ActionEvent) :
    tasks.threads.length ≤
      (actionStep json unsent tasks event).threads.length := by
  cases event with
  | arrive task =>
      simp [actionStep, smallStep, Pool.ruledStep]
  | outside key => exact Nat.le_refl _
  | advance index decision =>
      rw [actionStep, Pool.length_ruledStep_advance]

theorem Sound.known_ioStep
    {process later : Process} (sound : Sound config process)
    {started : Option ApiTask}
    (isStep : IoStep json unsent process later started)
    {thread : Nat} {job : Job} {task : Nat}
    (serves : later.io[thread]? = some (.serving job task)) :
    task < later.tasks.threads.length := by
  cases isStep with
  | idle sameIo sameTasks =>
      rw [sameIo] at serves
      rw [sameTasks]
      exact sound.known thread job task serves
  | turned other old new isOld inside noTask ended nextIo sameTasks =>
      rw [nextIo] at serves
      rw [sameTasks]
      by_cases same : other = thread
      · subst same
        rw [List.getElem?_set_self
          (List.getElem?_eq_some_iff.mp isOld).1] at serves
        exact absurd (Option.some.inj serves) (noTask job task)
      · rw [List.getElem?_set_ne same] at serves
        exact sound.known thread job task serves
  | started other otherJob new polls isJob nextIo nextTasks =>
      rw [nextIo] at serves
      have isLast :
          later.tasks.threads.length =
            process.tasks.threads.length + 1 := by
        rw [nextTasks]
        exact List.length_append
      by_cases same : other = thread
      · subst same
        rw [List.getElem?_set_self
          (List.getElem?_eq_some_iff.mp polls).1] at serves
        cases serves
        omega
      · rw [List.getElem?_set_ne same] at serves
        have before := sound.known thread job task serves
        omega
  | acted other otherJob acting decision working sameIo nextTasks =>
      rw [sameIo] at serves
      rw [nextTasks]
      exact Nat.lt_of_lt_of_le (sound.known thread job task serves)
        (length_actionStep ..)
  | timedOut key sameIo nextTasks =>
      rw [sameIo] at serves
      rw [nextTasks]
      exact sound.known thread job task serves

theorem Sound.ioStep
    {process later : Process} (sound : Sound config process)
    {started : Option ApiTask}
    (isStep : IoStep json unsent process later started)
    (frame : Frame process later) : Sound config later where
  starts isStart := by
    rcases frame.stage with same | dead
    · rw [same] at isStart
      have none := sound.starts isStart
      rw [isStep.io_of_left (by simp [none])]
      exact none
    · rw [dead] at isStart
      cases isStart
  joined count isJoin index before := by
    rcases frame.stage with same | dead
    · rw [same] at isJoin
      exact isStep.left (sound.joined count isJoin index before)
    · rw [dead] at isJoin
      cases isJoin
  ends isEnd := by
    rcases frame.stage with same | dead
    · rw [same] at isEnd
      rw [isStep.io_of_left (sound.ends isEnd)]
      exact sound.ends isEnd
    · rw [dead] at isEnd
      cases isEnd
  served task program := sound.served_ioStep isStep
  known thread job task := sound.known_ioStep isStep
  halted count isJoin := by
    rcases frame.stage with same | dead
    · rw [same] at isJoin
      exact frame.halted (sound.halted count isJoin)
    · rw [dead] at isJoin
      cases isJoin
  few := by
    rcases isStep.io_cases with same | ⟨thread, old, new, -, -, isSet⟩
    · rw [same]
      exact sound.few
    · rw [isSet, List.length_set]
      exact sound.few

theorem halted_mainStep
    {process : Process}
    (halted :
      ∀ count, process.stage = .join count →
        process.contextStopped = true)
    (attempt : Attempt) (count : Nat)
    (isJoin : (process.mainStep config attempt).stage = .join count) :
    (process.mainStep config attempt).contextStopped = true := by
  cases isStage : process.stage with
  | stopContext => simp only [Process.mainStep, isStage]
  | join index =>
      simp only [Process.mainStep, isStage]
      split
      · exact halted index isStage
      · exact halted index isStage
      · exact halted index isStage
  | initDatabase =>
      simp only [Process.mainStep, isStage] at isJoin
      rcases stage_init process attempt .mysql config.mysqlPoolSize
          .initCache with same | went | failed
      · rw [same, isStage] at isJoin
        cases isJoin
      · rw [went] at isJoin
        cases isJoin
      · rw [failed] at isJoin
        cases isJoin
  | initCache =>
      simp only [Process.mainStep, isStage] at isJoin
      rcases stage_init process attempt .redis config.redisPoolSize
          .construct with same | went | failed
      · rw [same, isStage] at isJoin
        cases isJoin
      · rw [went] at isJoin
        cases isJoin
      · rw [failed] at isJoin
        cases isJoin
  | startThreads =>
      simp only [Process.mainStep, isStage] at isJoin
      rcases stage_startThread isStage config.threadNum attempt with
        same | waits | dies
      · rw [same] at isJoin
        cases isJoin
      · rw [waits] at isJoin
        cases isJoin
      · rw [dies] at isJoin
        cases isJoin
  | construct =>
      simp only [Process.mainStep, isStage] at isJoin
      split at isJoin
      · cases isJoin
      · cases isJoin
  | wait =>
      simp only [Process.mainStep, isStage] at isJoin
      split at isJoin
      · rw [isStage] at isJoin
        cases isJoin
      · cases isJoin
  | returned status =>
      simp only [Process.mainStep, isStage] at isJoin
      cases isJoin
  | killed =>
      simp only [Process.mainStep, isStage] at isJoin
      cases isJoin
  | _ =>
      simp only [Process.mainStep, isStage] at isJoin
      cases isJoin

theorem Sound.mainStep
    {process : Process} (sound : Sound config process)
    (attempt : Attempt) :
    Sound config (process.mainStep config attempt) := by
  have goes := goes_mainStep config process attempt
  rcases mainStep_mainStep config process attempt with
    ⟨threads, -, sameIo | ⟨isStart, fewer, appended⟩⟩
  · refine ⟨?_, ?_, ?_, ?_, ?_, ?_, ?_⟩
    · rw [sameIo]
      intro isStart
      exact sound.starts (goes.starts_of isStart)
    · rw [sameIo]
      intro count isJoin index before
      rw [isJoin] at goes
      rcases goes.join_of with same | rfl | ⟨last, rfl, same, left⟩
      · exact sound.joined count same index before
      · exact absurd before (Nat.not_lt_zero index)
      · rcases Nat.lt_succ_iff_lt_or_eq.mp before with earlier | rfl
        · exact sound.joined last same index earlier
        · exact left
    · rw [sameIo]
      intro isEnd
      rcases goes.ends_of isEnd with
        ended | started | ⟨last, same, finished⟩
      · exact sound.ends ended
      · rw [sound.starts started]
        nofun
      · intro state isState
        rcases List.mem_iff_getElem?.mp isState with ⟨index, present⟩
        have inside := (List.getElem?_eq_some_iff.mp present).1
        have most := List.getElem?_eq_none_iff.mp finished
        have left := sound.joined last same index (by omega)
        rw [present] at left
        exact Option.some.inj left
    · rw [threads, sameIo]
      exact sound.served
    · rw [threads, sameIo]
      exact sound.known
    · exact halted_mainStep sound.halted attempt
    · rw [sameIo]
      exact sound.few
  · refine ⟨?_, ?_, ?_, ?_, ?_, ?_, ?_⟩
    · rw [isStart]
      nofun
    · rw [isStart]
      nofun
    · rw [isStart]
      nofun
    · rw [threads, appended]
      intro task program present unfinished
      rcases sound.served task program present unfinished with
        ⟨thread, job, serves⟩
      exact ⟨thread, job, Pool.getElem?_arrived_of_some serves⟩
    · rw [threads, appended]
      intro thread job task serves
      rcases Pool.getElem?_arrived_cases serves with ⟨-, same⟩ | old
      · cases same
      · exact sound.known thread job task old
    · exact halted_mainStep sound.halted attempt
    · rw [appended, List.length_append, List.length_singleton]
      omega

theorem Sound.step
    {process : Process} (sound : Sound config process)
    (event : ProcessEvent) :
    Sound config (process.step json unsent config event) := by
  cases step_cases config process event with
  | ceased isOver same =>
      rw [same]
      exact sound
  | main attempt isMain isStep =>
      rw [isStep]
      exact sound.mainStep attempt
  | outside alive _ isStep frame => exact sound.ioStep isStep frame

theorem sound_run (world : World) (events : List ProcessEvent) :
    Sound config (processRun json unsent config world events) :=
  Transition.run_invariant (Sound config)
    (fun _ event sound => sound.step event) events (sound_start world)

end Sound

/-! ## The pools before the threads -/

/-- `init` has opened no more connections than configured. -/
structure Filled (config : ServerConfig) (process : Process) : Prop where
  most :
    ∀ server, process.opened server ≤ (config.poolSize server).toNat
  full :
    ∀ server, process.stage.filled server = true →
      process.opened server = (config.poolSize server).toNat
  stock :
    process.stage.starts = true →
      ∀ server,
        process.tasks.world.stock server =
          List.range (process.opened server)

section Filled

variable {config : ServerConfig} {json : JsonLibrary}
variable {unsent : Statement → World → Option (List Row) × World}
variable {process later : Process}

theorem filled_start (world : World) : Filled config (.start world) where
  most _ := Nat.zero_le _
  full _ := nofun
  stock _ _ := rfl

/-- A step that opens nothing. -/
theorem Filled.congr
    (filled : Filled config process)
    (opened : later.opened = process.opened)
    (stage :
      ∀ server, later.stage.filled server = true →
        process.stage.filled server = true)
    (stock :
      later.stage.starts = true →
        process.stage.starts = true ∧
          later.tasks.world.stock = process.tasks.world.stock) :
    Filled config later where
  most := by
    rw [opened]
    exact filled.most
  full server isFilled := by
    rw [opened]
    exact filled.full server (stage server isFilled)
  stock starts server := by
    rcases stock starts with ⟨before, same⟩
    rw [opened, same]
    exact filled.stock before server

/-- A step that leaves the proxies alone, once the start is over. -/
theorem Filled.moved
    (filled : Filled config process)
    (opened : later.opened = process.opened)
    {stage : Stage} (isStage : process.stage = stage)
    (isFilled : ∀ server, stage.filled server = true)
    (started : later.stage.starts = false) : Filled config later := by
  refine filled.congr opened (fun server _ => isStage ▸ isFilled server)
    fun starts => ?_
  rw [started] at starts
  cases starts

/-- After a failure only the number of openings is known. -/
theorem filled_of_failed
    (most :
      ∀ server, process.opened server ≤ (config.poolSize server).toNat)
    (failed : ∀ server, process.stage.filled server = false)
    (started : process.stage.starts = false) :
    Filled config process where
  most := most
  full server isFilled := by
    rw [failed] at isFilled
    cases isFilled
  stock starts := by
    rw [started] at starts
    cases starts

theorem Filled.ioStep
    (filled : Filled config process) (sound : Sound config process)
    {started : Option ApiTask}
    (isStep : IoStep json unsent process later started)
    (frame : Frame process later) : Filled config later := by
  rcases frame.stage with same | dead
  · refine filled.congr frame.opened (by simp [same]) fun starts => ?_
    rw [same] at starts
    refine ⟨starts, ?_⟩
    have nobody : ∀ state ∈ process.io, state = .left := by
      simp [sound.starts starts]
    rcases isStep.tasks_of_left nobody with sameTasks | ⟨key, timedOut⟩
    · rw [sameTasks]
    · rw [timedOut]
      rfl
  · apply filled_of_failed
    · rw [frame.opened]
      exact filled.most
    · rw [dead]
      exact fun _ => rfl
    · rw [dead]
      rfl

/-- A turn of the loop of `init`, for the server that is being filled. -/
theorem Filled.init
    (filled : Filled config process) {server : Server} {next : Stage}
    (starts : process.stage.starts = true)
    (isFilled :
      ∀ other, next.filled other = true →
        other = server ∨ process.stage.filled other = true)
    (unfilled : process.stage.filled server = false) (attempt : Attempt) :
    Filled config
      (process.init server (config.poolSize server) next attempt) := by
  have few := filled.most server
  rw [Process.init]
  split
  · refine ⟨filled.most, ?_, fun _ => filled.stock starts⟩
    intro other isNext
    rcases isFilled other isNext with rfl | before
    · show process.opened other = (config.poolSize other).toNat
      omega
    · exact filled.full other before
  · have most :
        ∀ other,
          Function.update process.opened server
              (process.opened server + 1) other ≤
            (config.poolSize other).toNat := by
      intro other
      by_cases same : other = server
      · subst same
        rw [Function.update_self]
        omega
      · rw [Function.update_of_ne same]
        exact filled.most other
    cases attempt with
    | fails => exact filled_of_failed most (fun _ => rfl) rfl
    | noHandle => exact filled_of_failed most (fun _ => rfl) rfl
    | succeeds =>
        refine ⟨most, ?_, ?_⟩
        · intro other before
          have apart : other ≠ server := by
            rintro rfl
            rw [show process.stage.filled other = true from before]
              at unfilled
            cases unfilled
          exact (Function.update_of_ne apart _ _).trans
            (filled.full other before)
        · intro _ other
          simp only [Process.setStock]
          by_cases same : other = server
          · subst same
            rw [Function.update_self, Function.update_self,
              filled.stock starts other, List.range_succ]
          · rw [Function.update_of_ne same, Function.update_of_ne same]
            exact filled.stock starts other

theorem opened_shutdown (process : Process) (server : Server) :
    (process.shutdown server).opened = process.opened := by
  rw [Process.shutdown]
  split
  · rfl
  · rfl

theorem Filled.shutdown
    (filled : Filled config process) (server : Server) {next : Stage}
    (stage :
      ∀ server, next.filled server = true →
        process.stage.filled server = true)
    (finished : next.starts = false) :
    Filled config { process.shutdown server with stage := next } := by
  refine filled.congr (opened_shutdown process server) stage ?_
  intro starts
  rw [show next.starts = true from starts] at finished
  cases finished

theorem Filled.startThread
    (filled : Filled config process)
    (isStage : process.stage = .startThreads) (attempt : Attempt) :
    Filled config (process.startThread config.threadNum attempt) := by
  rw [Process.startThread]
  split
  · exact filled_of_failed filled.most (fun _ => rfl) rfl
  split
  · exact filled.moved rfl isStage (fun _ => rfl) rfl
  split
  · exact filled.congr rfl (fun _ same => same) fun same => ⟨same, rfl⟩
  · exact filled_of_failed filled.most (fun _ => rfl) rfl

theorem Filled.mainStep
    (filled : Filled config process) (attempt : Attempt) :
    Filled config (process.mainStep config attempt) := by
  rw [Process.mainStep]
  split
  · next isStage =>
      refine Filled.init filled ?_ ?_ ?_ attempt
      · rw [isStage]
        rfl
      · intro other isNext
        cases other with
        | mysql => exact .inl rfl
        | redis => cases isNext
      · rw [isStage]
        rfl
  · next isStage =>
      refine Filled.init filled ?_ ?_ ?_ attempt
      · rw [isStage]
        rfl
      · intro other _
        cases other with
        | redis => exact .inl rfl
        | mysql =>
            rw [isStage]
            exact .inr rfl
      · rw [isStage]
        rfl
  · next isStage =>
      split
      · refine filled.congr rfl ?_ ?_
        · rw [isStage]
          exact fun _ _ => rfl
        · rw [isStage]
          exact fun _ => ⟨rfl, rfl⟩
      · exact filled_of_failed filled.most (fun _ => rfl) rfl
  · next isStage =>
      refine filled.congr rfl ?_ ?_
      · rw [isStage]
        exact fun _ _ => rfl
      · rw [isStage]
        exact fun _ => ⟨rfl, rfl⟩
  · next isStage =>
      exact filled.moved rfl isStage (fun _ => rfl) rfl
  · next isStage => exact filled.startThread isStage attempt
  · next isStage =>
      split
      · exact filled
      · exact filled.moved rfl isStage (fun _ => rfl) rfl
  · next isStage =>
      exact filled.moved rfl isStage (fun _ => rfl) rfl
  · next isStage =>
      exact filled.moved rfl isStage (fun _ => rfl) rfl
  · next isStage =>
      exact filled.moved rfl isStage (fun _ => rfl) rfl
  · next index isStage =>
      split
      · exact filled.moved rfl isStage (fun _ => rfl) rfl
      · exact filled.moved rfl isStage (fun _ => rfl) rfl
      · exact filled
  · next isStage =>
      refine filled.shutdown .redis ?_ rfl
      rw [isStage]
      exact fun _ _ => rfl
  · next isStage =>
      refine filled.shutdown .mysql ?_ rfl
      rw [isStage]
      exact fun _ _ => rfl
  · next status isStage =>
      refine filled.shutdown .redis ?_ rfl
      rw [isStage]
      exact fun _ same => same
  · next status isStage =>
      refine filled.shutdown .mysql ?_ rfl
      rw [isStage]
      exact fun _ same => same
  · exact filled
  · exact filled

theorem Filled.step
    (filled : Filled config process) (sound : Sound config process)
    (event : ProcessEvent) :
    Filled config (process.step json unsent config event) := by
  cases step_cases config process event with
  | ceased isOver same =>
      rw [same]
      exact filled
  | main attempt isMain isStep =>
      rw [isStep]
      exact filled.mainStep attempt
  | outside alive _ isStep frame => exact filled.ioStep sound isStep frame

theorem filled_run (world : World) (events : List ProcessEvent) :
    Filled config (processRun json unsent config world events) :=
  (Transition.run_invariant
    (fun process => Sound config process ∧ Filled config process)
    (fun _ event both =>
      ⟨both.1.step event, both.2.step both.1 event⟩)
    events ⟨sound_start world, filled_start world⟩).2

end Filled

/-! ## A run of the process is a run of its tasks -/

/-- The tasks that have not ended. -/
def unfinished (tasks : Tasks) : List Nat :=
  (List.range tasks.threads.length).filter fun task =>
    (tasks.outcome? task).isNone

section Actions

variable {config : ServerConfig} {json : JsonLibrary}
variable {unsent : Statement → World → Option (List Row) × World}
variable {process : Process}

theorem mem_unfinished_iff {tasks : Tasks} {task : Nat} :
    task ∈ unfinished tasks ↔
      ∃ program, tasks.threads[task]? = some program ∧
        program.outcome? = none := by
  rw [unfinished, List.mem_filter, List.mem_range, Option.isNone_iff_eq_none,
    Pool.outcome?]
  constructor
  · rintro ⟨inside, unended⟩
    rw [List.getElem?_eq_getElem inside] at unended ⊢
    exact ⟨_, rfl, unended⟩
  · rintro ⟨program, present, unended⟩
    rw [present]
    exact ⟨(List.getElem?_eq_some_iff.mp present).1, unended⟩

/-- The task that the thread works on. -/
def IoThread.task? : IoThread → Option Nat
  | .serving _ task => some task
  | _ => none

/-- Never more of them than threads. -/
theorem Sound.length_unfinished
    (sound : Sound config process) :
    (unfinished process.tasks).length ≤ config.threadNum.toNat := by
  have distinct : (unfinished process.tasks).Nodup :=
    List.nodup_range.filter _
  have served :
      unfinished process.tasks ⊆ process.io.filterMap IoThread.task? := by
    intro task unended
    rcases mem_unfinished_iff.mp unended with ⟨program, present, isNone⟩
    rcases sound.served task program present isNone with
      ⟨thread, job, serves⟩
    exact List.mem_filterMap.mpr
      ⟨_, List.mem_of_getElem? serves, rfl⟩
  have few := (distinct.subperm served).length_le
  have most := List.length_filterMap_le IoThread.task? process.io
  have threads := sound.few
  omega

/-- When no thread is left inside, every task has ended. -/
theorem Sound.allEnded
    (sound : Sound config process)
    (left : ∀ state ∈ process.io, state = .left) :
    process.tasks.AllEnded := by
  intro task program present
  cases isOutcome : program.outcome? with
  | some outcome => rfl
  | none =>
      rcases sound.served task program present isOutcome with
        ⟨thread, job, serves⟩
      cases left _ (List.mem_of_getElem? serves)

/-- The pools as `main` fills them. -/
def fullStock (config : ServerConfig) : Server → List Connection :=
  initialPools fun server => (config.poolSize server).toNat

/-- The tasks have come from the actions that lead here. -/
structure Follows (config : ServerConfig) (process : Process)
    (reached : Tasks) : Prop where
  threads : process.tasks.threads = reached.threads
  world : process.tasks.world.world = reached.world.world
  untouched :
    process.stage.starts = true →
      reached.world.stock = fullStock config
  stock :
    process.stage.serves = true →
      process.tasks.world.stock = reached.world.stock

theorem follows_start (world : World) :
    Follows config (.start world)
      (actionRun json unsent (fullStock config) world []) where
  threads := rfl
  world := rfl
  untouched _ := rfl
  stock := nofun

theorem Follows.tasks_eq
    {reached : Tasks} (follows : Follows config process reached)
    (serves : process.stage.serves = true) : process.tasks = reached := by
  have sameStock := follows.stock serves
  rcases follows with ⟨sameThreads, sameWorld, -, -⟩
  generalize process.tasks = tasks at sameStock sameThreads sameWorld
  rcases tasks with ⟨threads, ⟨stock, world⟩⟩
  rcases reached with ⟨otherThreads, ⟨otherStock, otherWorld⟩⟩
  cases sameThreads
  cases sameWorld
  cases sameStock
  rfl

/-- Outside of `main` the tasks stay where they are, or make one step. -/
theorem IoStep.tasks_cases
    {later : Process} {started : Option ApiTask}
    (isStep : IoStep json unsent process later started) :
    (later.tasks = process.tasks ∧ started = none) ∨
      (∃ key,
        later.tasks =
            actionStep json unsent process.tasks (.outside key) ∧
          started = none) ∨
      (∃ state ∈ process.io, state ≠ .left) ∧
        ∃ event,
          later.tasks = actionStep json unsent process.tasks event ∧
            arrivals [event] = started.toList := by
  cases isStep with
  | idle sameIo sameTasks => exact .inl ⟨sameTasks, rfl⟩
  | turned thread old new isOld inside noTask ended nextIo sameTasks =>
      exact .inl ⟨sameTasks, rfl⟩
  | started thread job task polls isJob nextIo nextTasks =>
      exact .inr (.inr
        ⟨⟨_, List.mem_of_getElem? polls, nofun⟩, _, nextTasks, rfl⟩)
  | acted thread job task decision serves sameIo nextTasks =>
      exact .inr (.inr
        ⟨⟨_, List.mem_of_getElem? serves, nofun⟩, _, nextTasks, rfl⟩)
  | timedOut key sameIo nextTasks =>
      exact .inr (.inl ⟨key, nextTasks, rfl⟩)

/-- While a thread is inside, `main` is between the start and the joins. -/
theorem Sound.serves_of_inside
    (sound : Sound config process) (alive : process.Alive = true)
    {state : IoThread} (isState : state ∈ process.io)
    (inside : state ≠ .left) : process.stage.serves = true := by
  have notStarting : ¬ process.stage.starts = true := by
    intro starts
    rw [sound.starts starts] at isState
    cases isState
  have notEnding : ¬ process.stage.ends = true :=
    fun ends => inside (sound.ends ends state isState)
  rw [Process.Alive] at alive
  cases isStage : process.stage with
  | killed =>
      rw [isStage] at alive
      cases alive
  | _ =>
      rw [isStage] at notStarting notEnding
      first
        | rfl
        | exact absurd rfl notStarting
        | exact absurd rfl notEnding

theorem Follows.ioStep
    {later : Process} {world : World} {actions : List ActionEvent}
    (follows :
      Follows config process
        (actionRun json unsent (fullStock config) world actions))
    (sound : Sound config process) (alive : process.Alive = true)
    {started : Option ApiTask}
    (isStep : IoStep json unsent process later started)
    (frame : Frame process later) :
    ∃ more : List ActionEvent,
      more.length ≤ 1 ∧ arrivals more = started.toList ∧
        Follows config later
          (actionRun json unsent (fullStock config) world
            (actions ++ more)) := by
  have stage (marked : Stage → Bool) (unmarked : marked .killed = false)
      (holds : marked later.stage = true) :
      marked process.stage = true := by
    rcases frame.stage with same | dead
    · rw [← same]
      exact holds
    · rw [dead, unmarked] at holds
      cases holds
  rcases isStep.tasks_cases with
    ⟨same, rfl⟩ | ⟨key, timedOut, rfl⟩ |
      ⟨⟨state, isState, inside⟩, event, stepped, arrives⟩
  · refine ⟨[], Nat.zero_le 1, rfl, ?_⟩
    rw [List.append_nil]
    exact ⟨same ▸ follows.threads, same ▸ follows.world,
      fun starts => follows.untouched (stage Stage.starts rfl starts),
      fun serves => same ▸ follows.stock (stage Stage.serves rfl serves)⟩
  · refine ⟨[.outside key], Nat.le_refl 1, rfl, ?_⟩
    rw [actionRun, Transition.run_append]
    have sameWorld := follows.world
    refine ⟨timedOut ▸ follows.threads, ?_,
      fun starts => follows.untouched (stage Stage.starts rfl starts),
      fun serves =>
        timedOut ▸ follows.stock (stage Stage.serves rfl serves)⟩
    rw [timedOut]
    exact congrArg (fun world => world.timeOut key) sameWorld
  · have serves := sound.serves_of_inside alive isState inside
    rw [follows.tasks_eq serves] at stepped
    refine ⟨[event], Nat.le_refl 1, arrives, ?_⟩
    rw [actionRun, Transition.run_append]
    refine ⟨congrArg Pool.threads stepped, ?_, ?_, ?_⟩
    · exact congrArg (fun tasks => tasks.world.world) stepped
    · intro starts
      have before := stage Stage.starts rfl starts
      rw [sound.starts before] at isState
      cases isState
    · intro _
      exact congrArg (fun tasks => tasks.world.stock) stepped

/-- Until the shutdown `main` leaves the filled pools alone. -/
theorem stock_mainStep
    {config : ServerConfig} {process : Process} (attempt : Attempt)
    (serves :
      (process.mainStep config attempt).stage.serves = true) :
    (process.mainStep config attempt).tasks = process.tasks ∧
      (process.stage.serves = true ∨ process.stage = .startAccept) := by
  cases isStage : process.stage with
  | initDatabase =>
      simp only [Process.mainStep, isStage] at serves
      rcases stage_init process attempt .mysql config.mysqlPoolSize
          .initCache with same | went | failed
      · rw [same, isStage] at serves
        cases serves
      · rw [went] at serves
        cases serves
      · rw [failed] at serves
        cases serves
  | initCache =>
      simp only [Process.mainStep, isStage] at serves
      rcases stage_init process attempt .redis config.redisPoolSize
          .construct with same | went | failed
      · rw [same, isStage] at serves
        cases serves
      · rw [went] at serves
        cases serves
      · rw [failed] at serves
        cases serves
  | construct =>
      simp only [Process.mainStep, isStage] at serves
      split at serves
      · cases serves
      · cases serves
  | startAccept =>
      simp only [Process.mainStep, isStage]
      exact ⟨trivial, .inr trivial⟩
  | startThreads =>
      refine ⟨?_, .inl rfl⟩
      simp only [Process.mainStep, isStage, Process.startThread]
      split
      · rfl
      split
      · rfl
      split
      · rfl
      · rfl
  | wait =>
      refine ⟨?_, .inl rfl⟩
      simp only [Process.mainStep, isStage]
      split
      · rfl
      · rfl
  | cancelTimer =>
      simp only [Process.mainStep, isStage]
      exact ⟨trivial, .inl rfl⟩
  | markStopped =>
      simp only [Process.mainStep, isStage]
      exact ⟨trivial, .inl rfl⟩
  | stopContext =>
      simp only [Process.mainStep, isStage]
      exact ⟨trivial, .inl rfl⟩
  | join index =>
      refine ⟨?_, .inl rfl⟩
      simp only [Process.mainStep, isStage]
      split
      · rfl
      · rfl
      · rfl
  | returned status =>
      simp only [Process.mainStep, isStage] at serves
      cases serves
  | killed =>
      simp only [Process.mainStep, isStage] at serves
      cases serves
  | _ =>
      simp only [Process.mainStep, isStage] at serves
      cases serves

theorem Follows.mainStep
    {reached : Tasks} (follows : Follows config process reached)
    (filled : Filled config process) (attempt : Attempt) :
    Follows config (process.mainStep config attempt) reached := by
  have isStep := mainStep_mainStep config process attempt
  have goes := goes_mainStep config process attempt
  refine ⟨isStep.threads.trans follows.threads,
    isStep.world.trans follows.world, ?_, ?_⟩
  · intro starts
    exact follows.untouched (goes.starts_of starts)
  · intro serves
    rcases stock_mainStep attempt serves with ⟨same, before | accepts⟩
    · rw [same]
      exact follows.stock before
    · have isFull := follows.untouched (by rw [accepts]; rfl)
      rw [same, isFull]
      funext server
      rw [filled.stock (by rw [accepts]; rfl) server,
        filled.full server (by rw [accepts]; rfl)]
      rfl

/-- The tasks that a step starts. -/
def Process.started (process : Process) (event : ProcessEvent) :
    List ApiTask :=
  if process.Alive = true then (process.starts event).toList else []

/-- The tasks that a run has started, by the order of their start. -/
def startedTasks (json : JsonLibrary)
    (unsent : Statement → World → Option (List Row) × World)
    (config : ServerConfig) (world : World) (events : List ProcessEvent) :
    List ApiTask :=
  Transition.outputs (Process.step json unsent config) Process.started
    (.start world) events

theorem startedTasks_concat
    (world : World) (events : List ProcessEvent) (event : ProcessEvent) :
    startedTasks json unsent config world (events ++ [event]) =
      startedTasks json unsent config world events ++
        (processRun json unsent config world events).started event := by
  rw [startedTasks, Transition.outputs_append, Transition.outputs_cons,
    Transition.outputs_nil, List.append_nil]
  rfl

theorem exists_follows (world : World) (events : List ProcessEvent) :
    ∃ actions : List ActionEvent,
      actions.length ≤ events.length ∧
        arrivals actions = startedTasks json unsent config world events ∧
          Follows config (processRun json unsent config world events)
            (actionRun json unsent (fullStock config) world actions) := by
  induction events using List.reverseRecOn with
  | nil => exact ⟨[], Nat.le_refl 0, rfl, follows_start world⟩
  | append_singleton rest event induction =>
      rcases induction with ⟨actions, few, arrives, follows⟩
      rw [processRun_concat, startedTasks_concat, List.length_append,
        List.length_singleton, Process.started]
      cases step_cases config (processRun json unsent config world rest)
          event with
      | ceased isOver same =>
          rw [same, isOver, if_neg Bool.false_ne_true, List.append_nil]
          exact ⟨actions, by omega, arrives, follows⟩
      | main attempt isMain isStep =>
          have nothing :
              ((processRun json unsent config world rest).starts
                event).toList = [] := by
            rw [isMain]
            rfl
          rw [isStep, nothing, ite_self, List.append_nil]
          exact ⟨actions, by omega, arrives,
            follows.mainStep (filled_run world rest) attempt⟩
      | outside alive _ isStep frame =>
          rcases follows.ioStep (sound_run world rest) alive isStep frame
            with ⟨more, one, started, later⟩
          refine ⟨actions ++ more, ?_, ?_, later⟩
          · rw [List.length_append]
            omega
          · rw [alive, if_pos rfl, ← started, ← arrives, arrivals,
              List.filterMap_append]
            rfl

/--
The process runs its handlers as threads of the API, at most as many at a
time as it has IO threads, on pools of the configured sizes; and when `main`
comes to the shutdown of the proxies, all of them have ended.
-/
theorem process_runs_tasks
    (json : JsonLibrary)
    (unsent : Statement → World → Option (List Row) × World)
    (config : ServerConfig) (world : World)
    (events : List ProcessEvent) :
    let process := processRun json unsent config world events
    ∃ actions : List ActionEvent,
      let reached := actionRun json unsent (fullStock config) world actions
      actions.length ≤ events.length ∧
        arrivals actions = startedTasks json unsent config world events ∧
        process.tasks.threads = reached.threads ∧
        process.tasks.world.world = reached.world.world ∧
        (process.stage.serves = true → process.tasks = reached) ∧
        (unfinished process.tasks).length ≤ config.threadNum.toNat ∧
        (process.stage.ends = true → process.tasks.AllEnded) := by
  intro process
  have sound : Sound config process := sound_run world events
  rcases @exists_follows config json unsent world events with
    ⟨actions, few, arrives, follows⟩
  exact ⟨actions, few, arrives, follows.threads, follows.world,
    follows.tasks_eq, sound.length_unfinished,
    fun ends => sound.allEnded (sound.ends ends)⟩

end Actions

end LightningServer.Main
