import LightningServer.Main.Traffic

/-!
# The connections and the process keep step

The sessions together have as many operations outstanding as the process
counts, the task of a handler is that of its order, and every connection is a
`Conversation` whose callback is answered by its own tasks.
`traffic_linearizes` puts the whole server together: the callbacks of all
connections are answered as if each call of the services were one step.
-/

namespace LightningServer.Main

open LightningServer.Foundation
open LightningServer.Foundation.Numerals
open LightningServer.Net
open LightningServer.Store
open LightningServer.Handler

/-! ## The threads and the orders -/

/-- A thread is in the handler of this task. -/
def Works (process : Process) (task : Nat) : Prop :=
  ∃ (thread : Nat) (job : Job),
    process.io[thread]? = some (.serving job task)

/-- Every task has its order, and at most one thread. -/
structure Ordered (process : Process) (orders : List Order) : Prop where
  known : process.tasks.threads.length = orders.length
  serving :
    ∀ (thread : Nat) (job : Job) (task : Nat),
      process.io[thread]? = some (.serving job task) →
        ∃ order, orders[task]? = some order ∧ job = jobOf order.task
  alone :
    ∀ (thread other : Nat) (job otherJob : Job) (task : Nat),
      process.io[thread]? = some (.serving job task) →
        process.io[other]? = some (.serving otherJob task) →
          thread = other

section Ordered

variable {config : ServerConfig} {json : JsonLibrary}
variable {unsent : Statement → World → Option (List Row) × World}
variable {process later : Process} {orders more : List Order}

theorem Ordered.inside
    (ordered : Ordered process orders) {task : Nat}
    (works : Works process task) : task < orders.length := by
  rcases works with ⟨thread, job, serves⟩
  rcases ordered.serving thread job task serves with ⟨order, there, -⟩
  exact (List.getElem?_eq_some_iff.mp there).1

/-- No thread has taken up anything. -/
theorem Ordered.kept
    (ordered : Ordered process orders)
    (known :
      later.tasks.threads.length = process.tasks.threads.length)
    (old :
      ∀ (thread : Nat) (job : Job) (task : Nat),
        later.io[thread]? = some (.serving job task) →
          process.io[thread]? = some (.serving job task)) :
    Ordered later orders where
  known := known.trans ordered.known
  serving thread job task serves :=
    ordered.serving thread job task (old thread job task serves)
  alone thread other job otherJob task serves serves' :=
    ordered.alone thread other job otherJob task
      (old thread job task serves) (old other otherJob task serves')

/-- Outside of `main` a thread takes up what the step starts. -/
theorem IoStep.serving_cases
    {started : Option ApiTask}
    (isStep : IoStep json unsent process later started)
    {thread : Nat} {job : Job} {task : Nat}
    (serves : later.io[thread]? = some (.serving job task)) :
    process.io[thread]? = some (.serving job task) ∨
      task = process.tasks.threads.length ∧
        ∃ apiTask, started = some apiTask ∧ job = jobOf apiTask := by
  cases isStep with
  | idle sameIo sameTasks => exact .inl (sameIo ▸ serves)
  | acted other otherJob acting decision working sameIo nextTasks =>
      exact .inl (sameIo ▸ serves)
  | timedOut key sameIo nextTasks => exact .inl (sameIo ▸ serves)
  | turned other old new isOld inside noTask ended nextIo sameTasks =>
      rw [nextIo] at serves
      by_cases here : other = thread
      · subst here
        rw [List.getElem?_set_self
          (List.getElem?_eq_some_iff.mp isOld).1] at serves
        exact absurd (Option.some.inj serves) (noTask job task)
      · rw [List.getElem?_set_ne here] at serves
        exact .inl serves
  | started other otherJob apiTask polls isJob nextIo nextTasks =>
      rw [nextIo] at serves
      by_cases here : other = thread
      · subst here
        rw [List.getElem?_set_self
          (List.getElem?_eq_some_iff.mp polls).1] at serves
        cases serves
        exact .inr ⟨rfl, apiTask, rfl, isJob⟩
      · rw [List.getElem?_set_ne here] at serves
        exact .inl serves

/-- Only one thread can take up the new task. -/
theorem IoStep.started_alone
    {started : Option ApiTask}
    (isStep : IoStep json unsent process later started)
    (fresh : ¬ Works process process.tasks.threads.length)
    {thread other : Nat} {job otherJob : Job}
    (serves :
      later.io[thread]? =
        some (.serving job process.tasks.threads.length))
    (serves' :
      later.io[other]? =
        some (.serving otherJob process.tasks.threads.length)) :
    thread = other := by
  cases isStep with
  | idle sameIo sameTasks => exact absurd ⟨_, _, sameIo ▸ serves⟩ fresh
  | acted other otherJob acting decision working sameIo nextTasks =>
      exact absurd ⟨_, _, sameIo ▸ serves⟩ fresh
  | timedOut key sameIo nextTasks =>
      exact absurd ⟨_, _, sameIo ▸ serves⟩ fresh
  | turned turning old new isOld inside noTask ended nextIo sameTasks =>
      rw [nextIo] at serves
      by_cases here : turning = thread
      · subst here
        rw [List.getElem?_set_self
          (List.getElem?_eq_some_iff.mp isOld).1] at serves
        exact absurd (Option.some.inj serves) (noTask _ _)
      · rw [List.getElem?_set_ne here] at serves
        exact absurd ⟨_, _, serves⟩ fresh
  | started starting startedJob apiTask polls isJob nextIo nextTasks =>
      have only (index : Nat) (kind : Job)
          (works :
            later.io[index]? =
              some (.serving kind process.tasks.threads.length)) :
          starting = index := by
        by_contra apart
        rw [nextIo, List.getElem?_set_ne apart] at works
        exact fresh ⟨_, _, works⟩
      exact (only thread job serves).symm.trans (only other otherJob serves')

theorem IoStep.length_tasks
    {started : Option ApiTask}
    (isStep : IoStep json unsent process later started) :
    later.tasks.threads.length =
      process.tasks.threads.length + started.toList.length := by
  cases isStep with
  | idle sameIo sameTasks => rw [sameTasks]; rfl
  | turned thread old new isOld inside noTask ended nextIo sameTasks =>
      rw [sameTasks]
      rfl
  | started thread job task polls isJob nextIo nextTasks =>
      rw [nextTasks]
      exact List.length_append
  | acted thread job acting decision working sameIo nextTasks =>
      rw [nextTasks, actionStep, Pool.length_ruledStep_advance]
      rfl
  | timedOut key sameIo nextTasks =>
      rw [nextTasks]
      rfl

theorem Ordered.ioStep
    (ordered : Ordered process orders) {started : Option ApiTask}
    (isStep : IoStep json unsent process later started)
    (same : more.map Order.task = started.toList) :
    Ordered later (orders ++ more) where
  known := by
    rw [isStep.length_tasks, ordered.known, List.length_append, ← same,
      List.length_map]
  serving thread job task serves := by
    rcases isStep.serving_cases serves with
      old | ⟨rfl, apiTask, rfl, isJob⟩
    · rcases ordered.serving thread job task old with
        ⟨order, there, isJob⟩
      refine ⟨order, ?_, isJob⟩
      rw [List.getElem?_append_left (List.getElem?_eq_some_iff.mp there).1]
      exact there
    · rcases List.map_eq_singleton_iff.mp same with ⟨order, rfl, rfl⟩
      refine ⟨order, ?_, isJob⟩
      rw [ordered.known, List.getElem?_concat_length]
  alone thread other job otherJob task serves serves' := by
    have fresh : ¬ Works process process.tasks.threads.length := by
      intro works
      have inside := ordered.inside works
      have known := ordered.known
      omega
    rcases isStep.serving_cases serves with old | ⟨rfl, -⟩
    · rcases isStep.serving_cases serves' with old' | ⟨rfl, -⟩
      · exact ordered.alone thread other job otherJob task old old'
      · exact absurd ⟨_, _, old⟩ fresh
    · exact isStep.started_alone fresh serves serves'

theorem MainStep.serving_cases
    (isStep : MainStep config process later) {thread : Nat} {job : Job}
    {task : Nat}
    (serves : later.io[thread]? = some (.serving job task)) :
    process.io[thread]? = some (.serving job task) := by
  rcases isStep.io with same | ⟨-, -, longer⟩
  · exact same ▸ serves
  · rw [longer] at serves
    rcases Pool.getElem?_arrived_cases serves with ⟨-, impossible⟩ | old
    · cases impossible
    · exact old

/-- A step of the process, with the orders of what it starts. -/
theorem Ordered.step
    (ordered : Ordered process orders) (event : ProcessEvent)
    (same : more.map Order.task = process.started event) :
    Ordered (process.step json unsent config event) (orders ++ more) := by
  cases @step_cases json unsent config process event with
  | ceased isOver still =>
      rw [Process.started, isOver, if_neg Bool.false_ne_true,
        List.map_eq_nil_iff] at same
      rw [still, same, List.append_nil]
      exact ordered
  | main attempt isMain isStep =>
      have nothing : process.started event = [] := by
        rw [isMain, Process.started]
        exact ite_self _
      rw [nothing, List.map_eq_nil_iff] at same
      have isMainStep := mainStep_mainStep config process attempt
      rw [isStep, same, List.append_nil]
      exact ordered.kept (congrArg List.length isMainStep.threads)
        fun _ _ _ serves => isMainStep.serving_cases serves
  | outside alive notMain isStep frame =>
      rw [Process.started, alive, if_pos rfl] at same
      exact ordered.ioStep isStep same

/-- A thread that works after a step has worked before, or starts. -/
theorem works_step_cases
    {event : ProcessEvent} {task : Nat}
    (works : Works (process.step json unsent config event) task) :
    Works process task ∨
      task = process.tasks.threads.length ∧ process.started event ≠ [] := by
  rcases works with ⟨thread, job, serves⟩
  cases step_cases config process event with
  | ceased isOver still => exact .inl ⟨thread, job, still ▸ serves⟩
  | main attempt isMain isStep =>
      rw [isStep] at serves
      exact .inl ⟨thread, job,
        (mainStep_mainStep config process attempt).serving_cases serves⟩
  | outside alive notMain isStep frame =>
      rcases isStep.serving_cases serves with
        old | ⟨isNew, apiTask, isStarted, -⟩
      · exact .inl ⟨thread, job, old⟩
      · refine .inr ⟨isNew, ?_⟩
        rw [Process.started, alive, if_pos rfl, isStarted]
        exact List.cons_ne_nil _ _

/-- What has ended stays as it is. -/
theorem outcome?_step
    {task : Nat} {outcome : Except StdException (Option HttpResponse)}
    (ended : process.tasks.outcome? task = some outcome)
    (event : ProcessEvent) :
    (process.step json unsent config event).tasks.outcome? task =
      some outcome := by
  cases step_cases config process event with
  | ceased isOver still => rw [still, ended]
  | main attempt isMain isStep =>
      have threads := (mainStep_mainStep config process attempt).threads
      rw [isStep, Pool.outcome?, threads]
      exact ended
  | outside alive notMain isStep frame =>
      rcases isStep.tasks_cases with
        ⟨same, -⟩ | ⟨key, timedOut, -⟩ | ⟨-, event, stepped, -⟩
      · rw [same, ended]
      · rw [timedOut]
        exact Pool.outcome?_ruledStep _ _ _ ended _
      · rw [stepped]
        exact Pool.outcome?_ruledStep _ _ _ ended _

end Ordered

/-! ## What a connection has asked -/

/-- The requests of a connection, each with its task. -/
def askedOf (orders : List Order) (connection : Nat) : List Asked :=
  orders.zipIdx.filterMap fun (order, task) =>
    match order with
    | .sync => none
    | .request other req =>
        if other = connection then some (task, req) else none

section Asked

variable {orders : List Order} {connection : Nat}

theorem askedOf_append_sync :
    askedOf (orders ++ [.sync]) connection = askedOf orders connection := by
  simp [askedOf, List.zipIdx_append]

theorem askedOf_append_request (req : HttpRequest) :
    askedOf (orders ++ [.request connection req]) connection =
      askedOf orders connection ++ [(orders.length, req)] := by
  simp [askedOf, List.zipIdx_append]

/-- The orders of other connections do not count. -/
theorem askedOf_append_of_other
    {more : List Order}
    (other :
      ∀ order ∈ more, ∀ req : HttpRequest,
        order ≠ .request connection req) :
    askedOf (orders ++ more) connection = askedOf orders connection := by
  induction more generalizing orders with
  | nil => rw [List.append_nil]
  | cons order rest induction =>
      rw [List.forall_mem_cons] at other
      rw [← List.singleton_append, ← List.append_assoc,
        induction other.2]
      cases order with
      | sync => exact askedOf_append_sync
      | request asking req =>
          have apart : asking ≠ connection := by
            rintro rfl
            exact other.1 req rfl
          simp [askedOf, List.zipIdx_append, apart]

theorem askedOf_eq_nil
    (placed :
      ∀ (task other : Nat) (req : HttpRequest),
        orders[task]? = some (.request other req) → other ≠ connection) :
    askedOf orders connection = [] := by
  rw [askedOf, List.filterMap_eq_nil_iff]
  rintro ⟨order, task⟩ member
  have there := List.mem_zipIdx_iff_getElem?.mp member
  cases order with
  | sync => rfl
  | request other req => exact if_neg (placed task other req there)

end Asked

/-! ## The connections -/

/-- The operations that the sessions have outstanding. -/
def pendingOps (exchanges : List Exchange) : Nat :=
  (exchanges.map fun exchange => exchange.session.pending.length).sum

/-- How the callbacks of the tasks have ended. -/
def answers (tasks : Tasks) (task : Nat) :
    Option (Except StdException HttpResponse) :=
  (tasks.outcome? task).map Traffic.answer

/-- The connection talks, and waits for the task that is at work for it. -/
def Talks (process : Process) (orders : List Order) (connection : Nat)
    (exchange : Exchange) : Prop :=
  ∃ waiting : Option Asked,
    Conversation (answers process.tasks) exchange.session exchange.done
        (askedOf orders connection) waiting ∧
      ∀ (task : Nat) (req : HttpRequest), Works process task →
        orders[task]? = some (.request connection req) →
          waiting = some (task, req)

structure Coupled (traffic : Traffic) : Prop where
  ordered : Ordered traffic.process traffic.orders
  ops : traffic.process.sessionOps = pendingOps traffic.exchanges
  placed :
    ∀ (task connection : Nat) (req : HttpRequest),
      traffic.orders[task]? = some (.request connection req) →
        connection < traffic.exchanges.length
  talks :
    ∀ (connection : Nat) (exchange : Exchange),
      traffic.exchanges[connection]? = some exchange →
        Talks traffic.process traffic.orders connection exchange

section Coupled

variable {config : ServerConfig} {json : JsonLibrary}
variable {unsent : Statement → World → Option (List Row) × World}
variable {traffic : Traffic} {process later : Process}
variable {orders : List Order} {exchanges : List Exchange}
variable {connection : Nat} {exchange : Exchange}

theorem coupled_start (world : World) : Coupled (.start world) where
  ordered :=
    { known := rfl
      serving := nofun
      alone := nofun }
  ops := rfl
  placed := nofun
  talks := nofun

theorem pendingOps_set
    (there : exchanges[connection]? = some exchange) (new : Exchange) :
    pendingOps (exchanges.set connection new) +
        exchange.session.pending.length =
      pendingOps exchanges + new.session.pending.length :=
  Lending.sum_map_set there new fun exchange =>
    exchange.session.pending.length

/-- A callback that has returned has returned. -/
theorem answers_step
    {task : Nat} {outcome : Except StdException HttpResponse}
    (answered : answers process.tasks task = some outcome)
    (event : ProcessEvent) :
    answers (process.step json unsent config event).tasks task =
      some outcome := by
  rcases Option.map_eq_some_iff.mp answered with ⟨result, ended, rfl⟩
  rw [answers, outcome?_step ended event]
  rfl

/-- A step of the process, for a connection that has not asked anew. -/
theorem Talks.step
    (talks : Talks process orders connection exchange)
    (ordered : Ordered process orders) (event : ProcessEvent)
    {more : List Order}
    (other :
      ∀ order ∈ more, ∀ req : HttpRequest,
        order ≠ .request connection req) :
    Talks (process.step json unsent config event) (orders ++ more)
      connection exchange := by
  rcases talks with ⟨waiting, talks, isWaiting⟩
  rw [← askedOf_append_of_other other] at talks
  refine ⟨waiting,
    talks.mono fun _ _ answered => answers_step answered event, ?_⟩
  intro task req works there
  by_cases inside : task < orders.length
  · rw [List.getElem?_append_left inside] at there
    rcases works_step_cases works with before | ⟨isNew, -⟩
    · exact isWaiting task req before there
    · have known := ordered.known
      omega
  · rw [List.getElem?_append_right (by omega)] at there
    exact absurd rfl (other _ (List.mem_of_getElem? there) req)

/-- What an event is to the process, and the orders of what it starts. -/
structure Moves (json : JsonLibrary)
    (unsent : Statement → World → Option (List Row) × World)
    (config : ServerConfig) (traffic later : Traffic)
    (event : ProcessEvent) (more : List Order) : Prop where
  process : later.process = traffic.process.step json unsent config event
  orders : later.orders = traffic.orders ++ more
  started : more.map Order.task = traffic.process.started event

/-- The sessions are left alone. -/
theorem Coupled.kept
    {later : Traffic} {event : ProcessEvent} {more : List Order}
    (coupled : Coupled traffic)
    (moves : Moves json unsent config traffic later event more)
    (none : ∀ order ∈ more, order = .sync)
    (exchanges : later.exchanges = traffic.exchanges)
    (ops : later.process.sessionOps = traffic.process.sessionOps) :
    Coupled later where
  ordered := by
    rw [moves.process, moves.orders]
    exact coupled.ordered.step event moves.started
  ops := by rw [ops, exchanges, coupled.ops]
  placed := by
    intro task connection req there
    rw [moves.orders] at there
    rw [exchanges]
    by_cases inside : task < traffic.orders.length
    · rw [List.getElem?_append_left inside] at there
      exact coupled.placed task connection req there
    · rw [List.getElem?_append_right (by omega)] at there
      cases none _ (List.mem_of_getElem? there)
  talks := by
    intro connection exchange there
    rw [exchanges] at there
    rw [moves.process, moves.orders]
    refine (coupled.talks connection exchange there).step coupled.ordered
      event ?_
    intro order member req isRequest
    rw [none order member] at isRequest
    cases isRequest

/-- A connection is accepted. -/
theorem Coupled.accepted
    {later : Traffic} {event : ProcessEvent}
    (coupled : Coupled traffic)
    (moves : Moves json unsent config traffic later event [])
    (exchanges :
      later.exchanges =
        traffic.exchanges ++ [{ session := .start, done := [] }])
    (ops :
      later.process.sessionOps = traffic.process.sessionOps + 1) :
    Coupled later where
  ordered := by
    rw [moves.process, moves.orders]
    exact coupled.ordered.step event moves.started
  ops := by
    rw [ops, exchanges, coupled.ops, pendingOps, pendingOps,
      List.map_append, List.sum_append]
    rfl
  placed := by
    intro task connection req there
    rw [moves.orders, List.append_nil] at there
    rw [exchanges, List.length_append]
    exact Nat.lt_add_right _ (coupled.placed task connection req there)
  talks := by
    intro connection exchange there
    rw [exchanges] at there
    rw [moves.process, moves.orders]
    rcases Pool.getElem?_arrived_cases there with ⟨rfl, rfl⟩ | old
    · have apart (task other : Nat) (req : HttpRequest)
          (isOrder :
            traffic.orders[task]? = some (.request other req)) :
          other ≠ traffic.exchanges.length :=
        Nat.ne_of_lt (coupled.placed task other req isOrder)
      refine ⟨none, ?_, ?_⟩
      · rw [List.append_nil, askedOf_eq_nil apart]
        exact .start
      · intro task req _ isOrder
        rw [List.append_nil] at isOrder
        exact absurd rfl (apart task _ req isOrder)
    · exact (coupled.talks connection exchange old).step coupled.ordered
        event nofun

/-- One session makes a step, and may have asked. -/
theorem Coupled.turned
    {later : Traffic} {event : ProcessEvent} {more : List Order}
    {new : Exchange} (coupled : Coupled traffic)
    (there : traffic.exchanges[connection]? = some exchange)
    (moves : Moves json unsent config traffic later event more)
    (asks : ∀ order ∈ more, ∃ req, order = .request connection req)
    (exchanges : later.exchanges = traffic.exchanges.set connection new)
    (ops :
      later.process.sessionOps + exchange.session.pending.length =
        traffic.process.sessionOps + new.session.pending.length)
    (talks :
      Talks (traffic.process.step json unsent config event)
        (traffic.orders ++ more) connection new) :
    Coupled later where
  ordered := by
    rw [moves.process, moves.orders]
    exact coupled.ordered.step event moves.started
  ops := by
    have changed := pendingOps_set there new
    have before := coupled.ops
    rw [exchanges]
    omega
  placed := by
    intro task other req isOrder
    rw [moves.orders] at isOrder
    rw [exchanges, List.length_set]
    by_cases inside : task < traffic.orders.length
    · rw [List.getElem?_append_left inside] at isOrder
      exact coupled.placed task other req isOrder
    · rw [List.getElem?_append_right (by omega)] at isOrder
      rcases asks _ (List.mem_of_getElem? isOrder) with ⟨_, same⟩
      cases same
      exact (List.getElem?_eq_some_iff.mp there).1
  talks := by
    intro other otherExchange isThere
    rw [exchanges] at isThere
    rw [moves.process, moves.orders]
    by_cases here : connection = other
    · subst here
      rw [List.getElem?_set_self
        (List.getElem?_eq_some_iff.mp there).1] at isThere
      cases isThere
      exact talks
    · rw [List.getElem?_set_ne here] at isThere
      refine (coupled.talks other otherExchange isThere).step
        coupled.ordered event ?_
      intro order member req isRequest
      rcases asks order member with ⟨_, rfl⟩
      cases isRequest
      exact here rfl

/-! ## Steps without a session -/

/-- The event is neither that of a session nor of an accept. -/
def ProcessEvent.isApart : ProcessEvent → Bool
  | .accept _ _ => false
  | .request _ _ _ => false
  | .session _ _ => false
  | .finish _ => false
  | _ => true

theorem sessionOps_step_of_isApart
    {event : ProcessEvent} (apart : event.isApart = true) :
    (process.step json unsent config event).sessionOps =
      process.sessionOps := by
  unfold Process.step
  split
  · cases event with
    | main attempt =>
        exact (mainStep_mainStep config process attempt).sessionOps
    | signal =>
        simp only [Process.signalHandler]
        split
        · rfl
        · rfl
    | timer thread ec =>
        simp only [Process.onTimer]
        split
        · split
          · rfl
          · rfl
        · rfl
    | act thread decision =>
        simp only [Process.act]
        split
        · rfl
        · rfl
    | leave thread =>
        simp only [Process.leave]
        split
        · rfl
        · rfl
    | timeOut key => rfl
    | _ => cases apart
  · rfl

/-- What is started without a session is a sync. -/
theorem starts_of_isApart
    {event : ProcessEvent} (apart : event.isApart = true)
    {task : ApiTask} (starts : process.starts event = some task) :
    task = .syncViewCounts := by
  cases event with
  | timer thread ec =>
      rw [Process.starts] at starts
      split at starts
      · exact (Option.some.inj starts).symm
      · cases starts
  | request thread req resp => cases apart
  | _ => cases starts

/-- The event starts nothing. -/
theorem moves_of_nothing
    {later : Traffic} {event : ProcessEvent}
    (process :
      later.process = traffic.process.step json unsent config event)
    (orders : later.orders = traffic.orders)
    (nothing : traffic.process.started event = []) :
    Moves json unsent config traffic later event [] where
  process := process
  orders := orders.trans (List.append_nil _).symm
  started := nothing.symm

theorem moves_own
    (alive : traffic.process.Alive = true) {event : ProcessEvent}
    (sync :
      ∀ task, traffic.process.starts event = some task →
        task = .syncViewCounts) :
    Moves json unsent config traffic
      (traffic.own json unsent config event) event
      (if (traffic.process.starts event).isSome then [.sync] else []) where
  process := rfl
  orders := by
    rw [Traffic.own]
    cases traffic.process.starts event with
    | none => exact (List.append_nil _).symm
    | some task => rfl
  started := by
    rw [Process.started, alive, if_pos rfl]
    cases isTask : traffic.process.starts event with
    | none => rfl
    | some task =>
        rw [sync task isTask]
        rfl

theorem Coupled.own
    (coupled : Coupled traffic) (alive : traffic.process.Alive = true)
    {event : ProcessEvent}
    (sync :
      ∀ task, traffic.process.starts event = some task →
        task = .syncViewCounts)
    (ops :
      (traffic.process.step json unsent config event).sessionOps =
        traffic.process.sessionOps) :
    Coupled (traffic.own json unsent config event) := by
  refine coupled.kept (moves_own alive sync) ?_ rfl ops
  intro order member
  split at member
  · exact List.mem_singleton.mp member
  · cases member

theorem Coupled.apart
    (coupled : Coupled traffic) (alive : traffic.process.Alive = true)
    {event : ProcessEvent} (apart : event.isApart = true) :
    Coupled (traffic.own json unsent config event) :=
  coupled.own alive (fun _ starts => starts_of_isApart apart starts)
    (sessionOps_step_of_isApart apart)

theorem Coupled.onAccept
    (coupled : Coupled traffic) (alive : traffic.process.Alive = true)
    (thread : Nat) (ec : Bool) :
    Coupled (traffic.onAccept json unsent config thread ec) := by
  rw [Traffic.onAccept]
  split
  · next polls =>
      have nothing :
          traffic.process.started (.accept thread ec) = [] :=
        ite_self _
      have moves (exchanges : List Exchange) :
          Moves json unsent config traffic
            { process :=
                traffic.process.step json unsent config
                  (.accept thread ec)
              exchanges := exchanges
              orders := traffic.orders }
            (.accept thread ec) [] :=
        moves_of_nothing rfl rfl nothing
      cases ec with
      | true =>
          refine coupled.kept (moves _) nofun rfl ?_
          simp only [Process.step, alive, if_true, Process.onAccept,
            if_pos polls, Process.setIo]
      | false =>
          refine coupled.accepted (moves _) rfl ?_
          simp only [Process.step, alive, if_true, Process.onAccept,
            if_pos polls, Process.setIo, Bool.false_eq_true, if_false]
  · exact coupled

/-! ## Steps of a session -/

/-- A session with something outstanding does not wait for a task. -/
theorem Talks.quiet
    (talks : Talks process orders connection exchange)
    (positive : 0 < exchange.session.pending.length) :
    Conversation (answers process.tasks) exchange.session exchange.done
        (askedOf orders connection) none ∧
      ∀ (task : Nat) (req : HttpRequest), Works process task →
        orders[task]? ≠ some (.request connection req) := by
  rcases talks with ⟨waiting, talks, isWaiting⟩
  cases waiting with
  | none =>
      refine ⟨talks, fun task req works there => ?_⟩
      cases isWaiting task req works there
  | some asked =>
      rw [talks.pending.2 rfl] at positive
      exact absurd positive (Nat.lt_irrefl 0)

theorem Coupled.le_sessionOps
    (coupled : Coupled traffic)
    (there : traffic.exchanges[connection]? = some exchange) :
    exchange.session.pending.length ≤ traffic.process.sessionOps := by
  have emptied :=
    pendingOps_set there
      { exchange with session := { exchange.session with pending := [] } }
  rw [coupled.ops]
  simp only [List.length_nil] at emptied
  omega

/-- Nothing new is at work, and nothing for a connection that has not. -/
theorem talks_step
    {event : ProcessEvent} {new : Exchange}
    (nothing : process.started event = [])
    (quiet :
      ∀ (task : Nat) (req : HttpRequest), Works process task →
        orders[task]? ≠ some (.request connection req))
    (talks :
      Conversation (answers process.tasks) new.session new.done
        (askedOf orders connection) none) :
    Talks (process.step json unsent config event) (orders ++ [])
      connection new := by
  rw [List.append_nil]
  refine ⟨none,
    talks.mono fun _ _ answered => answers_step answered event, ?_⟩
  intro task req works there
  rcases works_step_cases works with before | ⟨-, started⟩
  · exact absurd there (quiet task req before)
  · exact absurd nothing started

/-- The connection has asked, as the task that is started. -/
theorem talks_asked
    (ordered : Ordered process orders) {event : ProcessEvent}
    (quiet :
      ∀ (task : Nat) (req : HttpRequest), Works process task →
        orders[task]? ≠ some (.request connection req))
    (talks :
      Conversation (answers process.tasks) exchange.session exchange.done
        (askedOf orders connection) none)
    {completion : Completion} {session : HttpSession} {req : HttpRequest}
    (reaches :
      exchange.session.reach completion = some (.asks session req)) :
    Talks (process.step json unsent config event)
      (orders ++ [.request connection req]) connection
      { session := session, done := exchange.done ++ [.dispatch req] } := by
  refine ⟨some (orders.length, req), ?_, ?_⟩
  · rw [askedOf_append_request]
    exact (Conversation.asks talks reaches orders.length).mono
      fun _ _ answered => answers_step answered event
  · intro task asked works isOrder
    by_cases inside : task < orders.length
    · rw [List.getElem?_append_left inside] at isOrder
      rcases works_step_cases works with before | ⟨isNew, -⟩
      · exact absurd isOrder (quiet task asked before)
      · have known := ordered.known
        omega
    · rcases works_step_cases works with before | ⟨isNew, -⟩
      · exact absurd (ordered.inside before) inside
      · rw [ordered.known] at isNew
        subst isNew
        rw [List.getElem?_concat_length] at isOrder
        cases isOrder
        rfl

/-- The request that a session asks, if it has come to its callback. -/
def asksOf (connection : Nat) : HttpSession.Reached → List Order
  | .asks _ req => [.request connection req]
  | _ => []

theorem moves_onReached
    (alive : traffic.process.Alive = true) {thread : Nat}
    (polls : traffic.process.Polls thread)
    (positive : 0 < traffic.process.sessionOps) (connection : Nat)
    (exchange : Exchange) (reached : HttpSession.Reached) :
    Moves json unsent config traffic
      (traffic.onReached json unsent config thread connection exchange
        reached)
      (Traffic.reachedEvent thread reached) (asksOf connection reached) := by
  cases reached with
  | ended session events =>
      exact moves_of_nothing rfl rfl (ite_self _)
  | threw session exception =>
      exact moves_of_nothing rfl rfl (ite_self _)
  | asks session req =>
      refine ⟨rfl, rfl, ?_⟩
      rw [Process.started, alive, if_pos rfl, Traffic.reachedEvent,
        Process.starts, if_pos ⟨polls, positive⟩]
      rfl

theorem Coupled.onReached
    (coupled : Coupled traffic) (alive : traffic.process.Alive = true)
    {thread : Nat} (polls : traffic.process.Polls thread)
    (there : traffic.exchanges[connection]? = some exchange)
    {completion : Completion} {reached : HttpSession.Reached}
    (reaches : exchange.session.reach completion = some reached) :
    Coupled
      (traffic.onReached json unsent config thread connection exchange
        reached) := by
  have talks := coupled.talks connection exchange there
  have few : exchange.session.pending.length ≤ 1 := by
    rcases talks with ⟨waiting, talks, -⟩
    exact talks.pending.1
  rcases HttpSession.alone_reach few reaches with ⟨one, isAlone⟩
  rcases talks.quiet (by omega) with ⟨conversation, quiet⟩
  have positive : 0 < traffic.process.sessionOps := by
    have most := coupled.le_sessionOps there
    omega
  have moves :
      Moves json unsent config traffic
        (traffic.onReached json unsent config thread connection exchange
          reached)
        (Traffic.reachedEvent thread reached) (asksOf connection reached) :=
    moves_onReached alive polls positive connection exchange reached
  cases reached with
  | ended session events =>
      refine coupled.turned there moves
        (fun _ member => absurd member List.not_mem_nil) rfl ?_
        (talks_step moves.started.symm quiet
          (.ended conversation reaches))
      rw [moves.process]
      have most : session.pending.length ≤ 1 := isAlone
      by_cases isEmpty : session.pending = []
      · simp only [Traffic.reachedEvent, Process.step, alive, if_true,
          Process.onSession, if_pos (And.intro polls positive), isEmpty,
          List.length_nil]
        omega
      · have more := List.length_pos_iff.mpr isEmpty
        simp only [Traffic.reachedEvent, if_neg isEmpty, Process.step, alive,
          if_true, Process.onSession, if_pos (And.intro polls positive)]
        omega
  | threw session exception =>
      refine coupled.turned there moves
        (fun _ member => absurd member List.not_mem_nil) rfl ?_
        (talks_step moves.started.symm quiet
          (.threw conversation reaches))
      rw [moves.process]
      have isEmpty : session.pending = [] := isAlone
      simp only [Traffic.reachedEvent, Process.step, alive, if_true,
        Process.onSession, if_pos (And.intro polls positive), Process.setIo,
        isEmpty, List.length_nil]
      omega
  | asks session req =>
      have isEmpty : session.pending = [] := isAlone
      refine coupled.turned there moves ?_ rfl ?_ ?_
      · intro order member
        exact ⟨req, List.mem_singleton.mp member⟩
      · rw [moves.process]
        simp only [Traffic.reachedEvent, Process.step, alive, if_true,
          Process.onRequest,
          if_pos (And.intro polls positive), Process.startTask,
          Process.setIo, isEmpty, List.length_nil]
        omega
      · exact talks_asked coupled.ordered quiet conversation reaches

theorem Coupled.onComplete
    (coupled : Coupled traffic) (alive : traffic.process.Alive = true)
    (thread connection : Nat) (completion : Completion) :
    Coupled
      (traffic.onComplete json unsent config thread connection
        completion) := by
  rw [Traffic.onComplete]
  split
  · exact coupled
  · next exchange there =>
      split
      · exact coupled
      · next reached reaches =>
          split
          · next polls =>
              exact coupled.onReached alive polls there reaches
          · exact coupled

/-! ## The end of a handler -/

theorem started_finish (process : Process) (thread : Nat) :
    process.started (.finish thread) = [] :=
  ite_self _

/-- Only the end of a request starts an operation of a session. -/
theorem sessionOps_finish
    {thread : Nat}
    (noRequest :
      ∀ (task : Nat) (response : Option HttpResponse),
        process.io[thread]? = some (.serving .request task) →
          process.tasks.outcome? task ≠ some (.ok response)) :
    (process.step json unsent config (.finish thread)).sessionOps =
      process.sessionOps := by
  unfold Process.step
  split
  · simp only [Process.finish]
    split
    · next job task serves =>
        split
        · rfl
        · next response isOutcome =>
            cases job with
            | request => exact absurd isOutcome (noRequest _ _ serves)
            | sync => rfl
        · rfl
    · rfl
    · rfl
  · rfl

theorem Coupled.finishApart
    (coupled : Coupled traffic) (alive : traffic.process.Alive = true)
    {thread : Nat}
    (noRequest :
      ∀ (task : Nat) (response : Option HttpResponse),
        traffic.process.io[thread]? = some (.serving .request task) →
          traffic.process.tasks.outcome? task ≠ some (.ok response)) :
    Coupled (traffic.own json unsent config (.finish thread)) :=
  coupled.own alive nofun (sessionOps_finish noRequest)

/-- The thread has turned to something else. -/
theorem not_works_finish
    (ordered : Ordered process orders) (alive : process.Alive = true)
    {thread task : Nat} {job : Job}
    (serves : process.io[thread]? = some (.serving job task))
    {outcome : Except StdException (Option HttpResponse)}
    (isOutcome : process.tasks.outcome? task = some outcome) :
    ¬ Works (process.step json unsent config (.finish thread)) task := by
  have turned :
      ∃ state, (∀ kind other, state ≠ IoThread.serving kind other) ∧
        (process.step json unsent config (.finish thread)).io =
          process.io.set thread state := by
    simp only [Process.step, alive, if_true, Process.finish, serves,
      isOutcome]
    cases outcome with
    | ok response =>
        refine ⟨.polling, by simp, ?_⟩
        cases job with
        | request => rfl
        | sync => rfl
    | error exception => exact ⟨.left, by simp, rfl⟩
  rcases turned with ⟨state, noTask, isIo⟩
  rintro ⟨other, kind, works⟩
  rw [isIo] at works
  by_cases here : thread = other
  · subst here
    rw [List.getElem?_set_self
      (List.getElem?_eq_some_iff.mp serves).1] at works
    exact noTask kind task (Option.some.inj works)
  · rw [List.getElem?_set_ne here] at works
    exact here (ordered.alone thread other job kind task serves works)

theorem isOk_answer
    (outcome : Except StdException (Option HttpResponse)) :
    (Traffic.answer outcome).isOk = outcome.isOk := by
  cases outcome with
  | ok response => rfl
  | error exception => rfl

/-- The task of a request has ended, and its session goes on. -/
theorem Coupled.finished
    (coupled : Coupled traffic) (alive : traffic.process.Alive = true)
    {thread task : Nat} {req : HttpRequest}
    {outcome : Except StdException (Option HttpResponse)}
    (serves : traffic.process.io[thread]? = some (.serving .request task))
    (isOutcome : traffic.process.tasks.outcome? task = some outcome)
    (isOrder : traffic.orders[task]? = some (.request connection req))
    (there : traffic.exchanges[connection]? = some exchange) :
    Coupled
      ((traffic.own json unsent config (.finish thread)).setExchange
        connection (exchange.session.resume req (Traffic.answer outcome)).1
        (exchange.done ++
          (exchange.session.resume req (Traffic.answer outcome)).2)) := by
  have nothing := started_finish traffic.process thread
  have moves :
      Moves json unsent config traffic
        ((traffic.own json unsent config (.finish thread)).setExchange
          connection
          (exchange.session.resume req (Traffic.answer outcome)).1
          (exchange.done ++
            (exchange.session.resume req (Traffic.answer outcome)).2))
        (.finish thread) [] :=
    moves_of_nothing rfl rfl nothing
  refine coupled.turned there moves nofun rfl ?_ ?_
  · rw [HttpSession.pending_resume, isOk_answer]
    simp only [Traffic.setExchange, Traffic.own, Process.step, alive,
      if_true, Process.finish, serves, isOutcome]
    cases outcome with
    | ok response =>
        simp only [Process.afterJob, Process.setIo, Except.isOk,
          Except.toBool, if_true]
        omega
    | error exception =>
        simp only [Process.setIo, Except.isOk, Except.toBool,
          Bool.false_eq_true, if_false, Nat.add_zero]
  · rcases coupled.talks connection exchange there with
      ⟨waiting, talks, isWaiting⟩
    have waits := isWaiting task req ⟨thread, .request, serves⟩ isOrder
    subst waits
    rw [List.append_nil]
    have answered :
        answers traffic.process.tasks task =
          some (Traffic.answer outcome) := by
      rw [answers, isOutcome]
      rfl
    refine ⟨none, (Conversation.answered talks answered).mono
      fun _ _ has => answers_step has _, ?_⟩
    intro other asked works isOther
    rcases works_step_cases works with before | ⟨-, started⟩
    · have same := isWaiting other asked before isOther
      cases same
      exact absurd works
        (not_works_finish coupled.ordered alive serves isOutcome)
    · exact absurd nothing started

theorem Coupled.onFinish
    (coupled : Coupled traffic) (alive : traffic.process.Alive = true)
    (thread : Nat) :
    Coupled (traffic.onFinish json unsent config thread) := by
  simp only [Traffic.onFinish]
  cases serves : traffic.process.io[thread]? with
  | none =>
      refine coupled.finishApart alive ?_
      intro task response isServing
      rw [serves] at isServing
      cases isServing
  | some state =>
      cases state with
      | serving job task =>
          rcases coupled.ordered.serving thread job task serves with
            ⟨order, isOrder, isJob⟩
          simp only [isOrder]
          cases isOutcome : traffic.process.tasks.outcome? task with
          | none =>
              refine coupled.finishApart alive ?_
              intro other response isServing
              rw [serves] at isServing
              cases isServing
              rw [isOutcome]
              nofun
          | some outcome =>
              cases order with
              | sync =>
                  refine coupled.finishApart alive ?_
                  intro other response isServing
                  rw [serves, isJob] at isServing
                  cases isServing
              | request connection req =>
                  have inside := coupled.placed task connection req isOrder
                  have there := List.getElem?_eq_getElem inside
                  subst isJob
                  simp only [there]
                  exact coupled.finished alive serves isOutcome isOrder
                    there
      | _ =>
          refine coupled.finishApart alive ?_
          intro task response isServing
          rw [serves] at isServing
          cases isServing

/-! ## All steps -/

theorem Coupled.step
    (coupled : Coupled traffic) (event : TrafficEvent) :
    Coupled (traffic.step json unsent config event) := by
  unfold Traffic.step
  split
  · next alive =>
      cases event with
      | main attempt => exact coupled.apart alive rfl
      | signal => exact coupled.apart alive rfl
      | accept thread ec => exact coupled.onAccept alive thread ec
      | timer thread ec => exact coupled.apart alive rfl
      | complete thread connection completion =>
          exact coupled.onComplete alive thread connection completion
      | act thread decision => exact coupled.apart alive rfl
      | finish thread => exact coupled.onFinish alive thread
      | leave thread => exact coupled.apart alive rfl
      | timeOut key => exact coupled.apart alive rfl
  · exact coupled

theorem coupled_run (world : World) (events : List TrafficEvent) :
    Coupled (trafficRun json unsent config world events) :=
  Transition.run_invariant Coupled (fun _ event coupled => coupled.step event)
    events (coupled_start world)

/-- The process makes one step, or none. -/
theorem moves_onFinish (thread : Nat) :
    Moves json unsent config traffic
      (traffic.onFinish json unsent config thread) (.finish thread) [] := by
  apply moves_of_nothing
  · simp only [Traffic.onFinish]
    split
    · split
      · split
        · rfl
        · rfl
      · rfl
    · rfl
  · simp only [Traffic.onFinish]
    split
    · split
      · split
        · rfl
        · rfl
      · rfl
    · rfl
  · exact started_finish _ thread

theorem Coupled.moves_step
    (coupled : Coupled traffic) (event : TrafficEvent) :
    traffic.step json unsent config event = traffic ∨
      ∃ processEvent more,
        Moves json unsent config traffic
          (traffic.step json unsent config event) processEvent more := by
  have apart {processEvent : ProcessEvent}
      (alive : traffic.process.Alive = true)
      (isApart : processEvent.isApart = true) :
      ∃ event more,
        Moves json unsent config traffic
          (traffic.own json unsent config processEvent) event more :=
    ⟨processEvent, _, moves_own alive fun _ starts =>
      starts_of_isApart isApart starts⟩
  unfold Traffic.step
  split
  · next alive =>
      cases event with
      | main attempt => exact .inr (apart alive rfl)
      | signal => exact .inr (apart alive rfl)
      | timer thread ec => exact .inr (apart alive rfl)
      | act thread decision => exact .inr (apart alive rfl)
      | leave thread => exact .inr (apart alive rfl)
      | timeOut key => exact .inr (apart alive rfl)
      | finish thread => exact .inr ⟨_, _, moves_onFinish thread⟩
      | accept thread ec =>
          simp only [Traffic.onAccept]
          split
          · exact .inr ⟨.accept thread ec, [],
              moves_of_nothing rfl rfl (ite_self _)⟩
          · exact .inl rfl
      | complete thread connection completion =>
          simp only [Traffic.onComplete]
          split
          · exact .inl rfl
          · next exchange there =>
              split
              · exact .inl rfl
              · next reached reaches =>
                  split
                  · next polls =>
                      rcases coupled.talks connection exchange there with
                        ⟨waiting, talks, -⟩
                      have one := (HttpSession.alone_reach
                        talks.pending.1 reaches).1
                      have most := coupled.le_sessionOps there
                      exact .inr ⟨_, _, moves_onReached alive polls
                        (by omega) connection exchange reached⟩
                  · exact .inl rfl
  · exact .inl rfl

/-- The process of a run is a run of the process. -/
theorem exists_processRun (world : World) (events : List TrafficEvent) :
    ∃ processEvents : List ProcessEvent,
      processEvents.length ≤ events.length ∧
        (trafficRun json unsent config world events).process =
            processRun json unsent config world processEvents ∧
          (trafficRun json unsent config world events).orders.map
              Order.task =
            startedTasks json unsent config world processEvents := by
  induction events using List.reverseRecOn with
  | nil => exact ⟨[], Nat.le_refl 0, rfl, rfl⟩
  | append_singleton rest event induction =>
      rcases induction with ⟨processEvents, few, same, started⟩
      have isStep :
          trafficRun json unsent config world (rest ++ [event]) =
            (trafficRun json unsent config world rest).step json unsent
              config event :=
        Transition.run_append ..
      have coupled :
          Coupled (trafficRun json unsent config world rest) :=
        coupled_run world rest
      rw [isStep, List.length_append, List.length_singleton]
      rcases @Coupled.moves_step config json unsent _ coupled event with
        still | ⟨processEvent, more, moves⟩
      · rw [still]
        exact ⟨processEvents, by omega, same, started⟩
      · refine ⟨processEvents ++ [processEvent], ?_, ?_, ?_⟩
        · rw [List.length_append, List.length_singleton]
          omega
        · rw [moves.process, same, processRun_concat]
        · rw [moves.orders, List.map_append, moves.started, started,
            startedTasks_concat, same]

end Coupled

/--
The whole server works as if each call of the services were one step: there
is a run of whole calls, started with the tasks of all connections in their
order, that ends with the same tables and keys, and every connection is a
session whose callback is answered, for each request that it has asked, by
the outcome of that request's own task.
-/
theorem traffic_linearizes
    (json : JsonLibrary)
    (unsent : Statement → World → Option (List Row) × World)
    (config : ServerConfig) (world : World) (events : List TrafficEvent)
    (articles : world.database.articles.length < 2 ^ 31)
    (comments :
      world.database.comments.length + events.length < 2 ^ 31) :
    let traffic := trafficRun json unsent config world events
    ∃ calls : List CallEvent,
      let atomic := callRun json world calls
      arrivals calls = traffic.orders.map Order.task ∧
        atomic.world = traffic.process.tasks.world.world ∧
          ∀ (connection : Nat) (exchange : Exchange),
            traffic.exchanges[connection]? = some exchange →
              ∃ waiting : Option Asked,
                Conversation
                  (fun task => (atomic.outcome? task).map Traffic.answer)
                  exchange.session exchange.done
                  (askedOf traffic.orders connection) waiting := by
  intro traffic
  have coupled : Coupled traffic := coupled_run world events
  rcases @exists_processRun config json unsent world events with
    ⟨processEvents, few, isProcess, isStarted⟩
  rcases @exists_follows config json unsent world processEvents with
    ⟨actions, fewer, arrives, follows⟩
  rcases exists_sameThreads json unsent (fullStock config) articles
      (show world.database.comments.length + actions.length < 2 ^ 31 by
        omega) with ⟨parts, linearizes, prefixes⟩
  have same := prefixes actions.length
  rw [List.take_length, ← linearizes.length_eq.symm, List.take_length]
    at same
  refine ⟨parts.flatten, ?_, ?_, ?_⟩
  · rw [arrivals_flatten linearizes, arrives]
    exact isStarted.symm
  · rw [same.world, ← follows.world, ← isProcess]
  · intro connection exchange there
    rcases coupled.talks connection exchange there with
      ⟨waiting, talks, -⟩
    refine ⟨waiting, talks.mono ?_⟩
    intro task outcome answered
    rcases Option.map_eq_some_iff.mp answered with ⟨result, ended, rfl⟩
    have reached :
        (actionRun json unsent (fullStock config) world actions).outcome?
          task = some result := by
      rw [Pool.outcome?, ← follows.threads, ← isProcess]
      exact ended
    rw [same.outcome? reached]
    rfl

/-- A client asks for an article, and the answer is on its way. -/
def oneClient : List TrafficEvent :=
  List.replicate 10 (.main .succeeds) ++
    [.accept 0 false, .finish 0,
      .complete 0 0
        (.readOk (ascii "GET /api/articles/2 HTTP/1.1\r\n\r\n"))] ++
    List.replicate 24 (.act 0 served) ++ [.finish 0]

theorem traffic_linearizes_of_oneClient :
    let traffic :=
      trafficRun Json.compactLibrary (fun _ world => (none, world))
        smallConfig freshWorld oneClient
    ∃ calls : List CallEvent,
      let atomic := callRun Json.compactLibrary freshWorld calls
      arrivals calls = traffic.orders.map Order.task ∧
        atomic.world = traffic.process.tasks.world.world ∧
          ∀ (connection : Nat) (exchange : Exchange),
            traffic.exchanges[connection]? = some exchange →
              ∃ waiting : Option Asked,
                Conversation
                  (fun task => (atomic.outcome? task).map Traffic.answer)
                  exchange.session exchange.done
                  (askedOf traffic.orders connection) waiting :=
  traffic_linearizes Json.compactLibrary _ smallConfig freshWorld oneClient
    (by decide) (by decide)

end LightningServer.Main
