import LightningServer.Foundation.Progress
import LightningServer.Handler.ApiThreads

/-!
# No deadlock on the connections

A thread waits for Redis without a timeout, so what it waits for has to be
given back.  No call holds a connection of Redis while it waits for another
of either server, and every path of a command gives its connection back;
hence one connection is enough for all threads to come to their end, from
every state that they can reach.  Connections of MySQL may be lost when a
conversion throws; the wait for one of them ends after its timeout.
-/

namespace LightningServer.Handler

open LightningServer.Foundation
open LightningServer.Foundation.Numerals
open LightningServer.Net
open LightningServer.Store
open LightningServer.Service

/-! ## The pool of Redis -/

/-- What an access does with the pool of Redis. -/
def accessRole : Access Server Connection Query → Role
  | .wait .redis => .takes
  | .use .redis _ _ => .employs
  | .release .redis _ => .givesBack
  -- only `CacheProxy` waits without a timeout, and it always does
  | .wait .mysql => .forbidden
  | .waitFor .redis => .forbidden
  | .waitFor .mysql => .ignores
  | .use .mysql _ _ => .ignores
  | .release .mysql _ => .ignores

def actionRole : Action → Role
  | .proxy access => accessRole access
  | .localTime => .ignores

/-- The connections of Redis that nobody holds. -/
def freeRedis (servers : Servers) : Nat :=
  (servers.stock .redis).length

/-- A granted access takes one connection of Redis, or gives one back. -/
theorem length_grant
    {access : Access Server Connection Query} {holds later : Bool}
    (allowed : (accessRole access).after holds = some later)
    {choice : Choice Query.Answer} {stock : Server → List Connection}
    {granted :
      access.Reply Query.Answer × List (Server × Connection) ×
        (Server → List Connection)}
    (isGranted : access.grant choice [] stock = some granted) :
    (granted.2.2 .redis).length + heldBy later =
      (stock .redis).length + heldBy holds := by
  cases access with
  | wait server =>
      cases server with
      | mysql => cases allowed
      | redis =>
          cases holds with
          | true => cases allowed
          | false =>
              cases allowed
              cases isStock : stock .redis with
              | nil => simp [Access.grant, isStock] at isGranted
              | cons conn others =>
                  simp only [Access.grant, isStock] at isGranted
                  cases isGranted
                  simp [heldBy]
  | waitFor server =>
      cases server with
      | redis => cases allowed
      | mysql =>
          cases holds with
          | true => cases allowed
          | false =>
              cases allowed
              cases isStock : stock .mysql with
              | nil =>
                  simp only [Access.grant, isStock] at isGranted
                  split at isGranted
                  · cases isGranted
                    rfl
                  · cases isGranted
              | cons conn others =>
                  simp only [Access.grant, isStock] at isGranted
                  cases isGranted
                  simp
  | use server conn query =>
      cases isGranted
      cases server with
      | mysql =>
          cases holds with
          | true => cases allowed
          | false =>
              cases allowed
              rfl
      | redis =>
          cases holds with
          | true =>
              cases allowed
              rfl
          | false => cases allowed
  | release server conn =>
      cases isGranted
      cases server with
      | mysql =>
          cases holds with
          | true => cases allowed
          | false =>
              cases allowed
              simp
      | redis =>
          cases holds with
          | true =>
              cases allowed
              simp [heldBy]
          | false => cases allowed

/-- An access waits for a connection of Redis, and for nothing else. -/
theorem exists_grant
    {access : Access Server Connection Query} {holds later : Bool}
    (allowed : (accessRole access).after holds = some later)
    {choice : Choice Query.Answer} (timesOut : choice.timesOut = true)
    {stock : Server → List Connection}
    (free : holds = false → 0 < (stock .redis).length) :
    ∃ granted, access.grant choice [] stock = some granted := by
  cases access with
  | wait server =>
      cases server with
      | mysql => cases allowed
      | redis =>
          cases holds with
          | true => cases allowed
          | false =>
              cases isStock : stock .redis with
              | nil =>
                  rw [isStock] at free
                  exact absurd (free rfl) (Nat.lt_irrefl 0)
              | cons conn others => simp [Access.grant, isStock]
  | waitFor server =>
      cases isStock : stock server with
      | nil => simp [Access.grant, isStock, timesOut]
      | cons conn others => simp [Access.grant, isStock]
  | use server conn query => exact ⟨_, rfl⟩
  | release server conn => exact ⟨_, rfl⟩

/-- Every wait on the empty pool of MySQL is over at once. -/
def impatient : Decision where
  timesOut := true
  fails := fun _ => false
  reaches := true

theorem stocked_perform
    (unsent : Statement → World → Option (List Row) × World) :
    Stocked (perform unsent) actionRole freeRedis where
  counts := by
    intro action holds later allowed decision servers answer next performed
    cases action with
    | localTime =>
        cases holds with
        | true => cases allowed
        | false =>
            cases allowed
            cases performed
            rfl
    | proxy access =>
        rcases Option.map_eq_some_iff.mp performed with
          ⟨granted, isGranted, same⟩
        cases same
        exact length_grant allowed isGranted
  ready := by
    intro action holds later allowed servers free
    cases action with
    | localTime => exact ⟨impatient, _, rfl⟩
    | proxy access =>
        let choice : Choice Query.Answer :=
          { timesOut := true
            answer := fun query =>
              (serveQuery unsent impatient query servers.world).1 }
        have isOver : choice.timesOut = true := rfl
        rcases exists_grant allowed isOver free with ⟨granted, isGranted⟩
        exact ⟨impatient, _,
          Option.map_eq_some_iff.mpr ⟨granted, isGranted, rfl⟩⟩

/-! ## The calls -/

/-- Code that never touches the pool of Redis. -/
abbrev LeavesRedis {Value : Type} (driver : Driver Value) : Prop :=
  driver.Asks fun access => accessRole access = .ignores

theorem disciplined_actions
    {Value : Type} {driver : Driver Value} {holds : Bool}
    (disciplined : driver.Disciplined accessRole holds) :
    (actions driver).Disciplined actionRole holds := by
  induction driver generalizing holds with
  | ret value => exact disciplined
  | throw exception => exact disciplined
  | call access next induction =>
      rcases disciplined with ⟨later, allowed, each⟩
      exact ⟨later, allowed, fun reply => induction reply (each reply)⟩

section Database

variable {Value : Type}

theorem leavesRedis_acquire
    {next : Option Connection → Driver Value}
    (without : LeavesRedis (next none))
    (later : ∀ conn, LeavesRedis (next (some conn))) :
    LeavesRedis (DatabaseProxy.acquireConnection >>= next) := by
  refine ⟨rfl, fun found => ?_⟩
  cases found with
  | none => exact without
  | some conn => exact later conn

theorem leavesRedis_release (conn : Connection) (value : Value) :
    LeavesRedis
      (DatabaseProxy.releaseConnection conn >>= fun _ => pure value) :=
  ⟨rfl, fun _ => trivial⟩

theorem leavesRedis_ofExcept
    {Read : Type} {result : Except StdException Read}
    {next : Read → Driver Value} (later : ∀ read, LeavesRedis (next read)) :
    LeavesRedis (Program.ofExcept result >>= next) :=
  Program.asks_bind (Program.asks_ofExcept result) later

/-- What is read from the rows, and then the release. -/
theorem leavesRedis_read
    {Read : Type} (result : Except StdException Read)
    (conn : Connection) (use : Read → Value) :
    LeavesRedis
      (Program.ofExcept result >>= fun read =>
        DatabaseProxy.releaseConnection conn >>= fun _ =>
          pure (use read)) :=
  leavesRedis_ofExcept fun read => leavesRedis_release conn (use read)

theorem leavesRedis_update (statement : Statement) :
    LeavesRedis (DatabaseProxy.update statement) := by
  apply leavesRedis_acquire
  · trivial
  · intro conn
    exact ⟨rfl, fun result => leavesRedis_release conn _⟩

theorem leavesRedis_select
    (statement : Statement) (read : Row → Except StdException Value) :
    LeavesRedis (DatabaseProxy.select statement read) := by
  apply leavesRedis_acquire
  · trivial
  · intro conn
    refine ⟨rfl, fun answer => ?_⟩
    cases answer with
    | none => exact leavesRedis_release conn _
    | some result => exact leavesRedis_read _ conn id

theorem leavesRedis_getArticles (page pageSize total : Int) :
    LeavesRedis (DatabaseProxy.getArticles page pageSize total) := by
  apply leavesRedis_acquire
  · trivial
  · intro conn
    refine ⟨rfl, fun counted => ?_⟩
    cases counted with
    | none => exact leavesRedis_release conn _
    | some countRes =>
        apply leavesRedis_ofExcept
        intro total
        refine ⟨rfl, fun answer => ?_⟩
        cases answer with
        | none => exact leavesRedis_release conn _
        | some result =>
            exact leavesRedis_read _ conn fun articles => (articles, total)

theorem leavesRedis_getArticleById (articleId : Int) :
    LeavesRedis (DatabaseProxy.getArticleById articleId) := by
  apply leavesRedis_acquire
  · trivial
  · intro conn
    refine ⟨rfl, fun answer => ?_⟩
    cases answer with
    | none => exact leavesRedis_release conn _
    | some result => exact leavesRedis_read _ conn id

theorem leavesRedis_getCommentCount (articleId : Int) :
    LeavesRedis (DatabaseProxy.getCommentCount articleId) := by
  apply leavesRedis_acquire
  · trivial
  · intro conn
    exact ⟨rfl, fun result => leavesRedis_read _ conn id⟩

end Database

/-- A command holds its connection only between two accesses. -/
theorem disciplined_send
    {Value : Type} (command : Command)
    (read : Option RedisReply → Value) :
    (CacheProxy.send command read).Disciplined accessRole false :=
  ⟨true, rfl, fun _ => ⟨true, rfl, fun _ => ⟨false, rfl, fun _ => rfl⟩⟩⟩

theorem Call.disciplined_driver
    {call : Call} (proxied : call ≠ .localTime) :
    (call.driver proxied).Disciplined accessRole false := by
  cases call with
  | localTime => exact absurd rfl proxied
  | getArticles page pageSize =>
      exact Program.disciplined_of_asks
        (leavesRedis_getArticles page pageSize 0)
  | getArticleById id =>
      exact Program.disciplined_of_asks (leavesRedis_getArticleById id)
  | setViewCount id count =>
      exact Program.disciplined_of_asks (leavesRedis_update _)
  | getCommentsByArticleId articleId limit =>
      exact Program.disciplined_of_asks (leavesRedis_select _ _)
  | createComment comment =>
      exact Program.disciplined_of_asks (leavesRedis_update _)
  | getCommentCount articleId =>
      exact Program.disciplined_of_asks
        (leavesRedis_getCommentCount articleId)
  | getHotArticles limit =>
      exact Program.disciplined_of_asks (leavesRedis_select _ _)
  | _ => exact disciplined_send _ _

theorem Call.disciplined_actions (call : Call) :
    call.actions.Disciplined actionRole false := by
  by_cases isClock : call = .localTime
  · subst isClock
    exact ⟨false, rfl, fun _ => rfl⟩
  · rw [Call.actions, dif_neg isClock]
    exact Handler.disciplined_actions (disciplined_driver isClock)

/-! ## The threads -/

section Threads

variable (json : JsonLibrary)
variable (unsent : Statement → World → Option (List Row) × World)

/-- The thread's next action is to wait for Redis. -/
def WaitsForRedis (thread : Actions (Option HttpResponse)) : Prop :=
  thread.nextCall = some (.proxy (.wait .redis))

theorem waitsForRedis_sync :
    WaitsForRedis
      ((taskCode json .syncViewCounts).expand Call.actions) := by
  have isCode :
      Call.actions (.zrevrange ArticleService.hotKey 0 99) =
        actions (CacheProxy.zrevrange ArticleService.hotKey 0 99) :=
    dif_neg (by decide)
  simp only [WaitsForRedis, taskCode, ArticleService.syncViewCounts,
    Call.perform]
  rw [Program.perform_bind, Program.call_bind, Program.expand, isCode]
  rfl

/-- Threads that wait on an empty pool are where they were. -/
theorem actionStep_of_waiting
    {pool : Pool (Actions (Option HttpResponse)) Servers}
    (waiting : pool.All WaitsForRedis)
    (isEmpty : pool.world.stock .redis = [])
    {event : ActionEvent} (advance : event.isAdvance = true) :
    actionStep json unsent pool event = pool := by
  cases event with
  | arrive task => cases advance
  | outside key => cases advance
  | advance index decision =>
      cases present : pool.threads[index]? with
      | none =>
          exact Pool.ruledStep_advance_of_none _ _ _ present decision
      | some thread =>
          refine (Pool.ruledStep_advance_of_some _ _ _ present
            decision).trans ?_
          have waits := waiting index thread present
          cases thread with
          | ret response => cases waits
          | throw exception => cases waits
          | call action next =>
              cases waits
              have blocked :
                  perform unsent decision (.proxy (.wait .redis))
                    pool.world = none := by
                simp only [perform, Access.grant, isEmpty, Option.map_none]
              simp only [Program.attempt, blocked, Pool.moved,
                set_of_getElem? present]

/-- Without a connection of Redis the sync waits for ever. -/
theorem not_allEnded_sync
    {stock : Server → List Connection} (isEmpty : stock .redis = [])
    (world : World) {events : List ActionEvent}
    (advance : ∀ event ∈ events, event.isAdvance = true) :
    ¬ (actionRun json unsent stock world
        (.arrive .syncViewCounts :: events)).AllEnded := by
  let start : Pool (Actions (Option HttpResponse)) Servers :=
    { threads := [(taskCode json .syncViewCounts).expand Call.actions]
      world := { stock := stock, world := world } }
  have waiting : start.All WaitsForRedis := by
    intro index thread present
    have isSync := List.mem_singleton.mp (List.mem_of_getElem? present)
    rw [isSync]
    exact waitsForRedis_sync json
  have stays :
      ∀ pool event, pool = start → event.isAdvance = true →
        actionStep json unsent pool event = start := by
    rintro pool event rfl advances
    exact actionStep_of_waiting json unsent waiting isEmpty advances
  have still :
      Transition.run (actionStep json unsent) start events = start :=
    Transition.run_invariant_along (fun pool => pool = start) stays rfl
      (Transition.along_of_forall_mem _ start advance)
  intro ended
  rw [show actionRun json unsent stock world
      (.arrive .syncViewCounts :: events) = start from still] at ended
  have sync := ended 0 _ rfl
  have waits := waitsForRedis_sync json
  cases isSync : (taskCode json .syncViewCounts).expand Call.actions with
  | ret response =>
      rw [isSync] at waits
      cases waits
  | throw exception =>
      rw [isSync] at waits
      cases waits
  | call action next =>
      rw [isSync] at sync
      cases sync

/-- No connection of Redis is ever lost. -/
theorem exists_redisCensus
    (stock : Server → List Connection) (world : World)
    (events : List ActionEvent) :
    ∃ holding,
      Census actionRole freeRedis (stock .redis).length holding
        (actionRun json unsent stock world events) := by
  have entries :
      ∀ task,
        ((taskCode json task).expand Call.actions).Disciplined
          actionRole false :=
    fun task => Program.disciplined_expand Call.disciplined_actions _
  have unseen :
      ∀ key servers,
        freeRedis (timeOutKey key servers) = freeRedis servers :=
    fun _ _ => rfl
  exact exists_census (stocked_perform unsent) entries unseen
    { stock := stock, world := world } events

/--
From every state that the threads can reach, whatever the requests, the
timeouts and the failures of the servers were, all of them can come to their
end, and then every connection of Redis is back: exactly if the pool has one.
-/
theorem threads_can_end
    (stock : Server → List Connection) (world : World) :
    0 < (stock .redis).length ↔
      ∀ events : List ActionEvent, ∃ more : List ActionEvent,
        let reached := actionRun json unsent stock world (events ++ more)
        (∀ event ∈ more, event.isAdvance = true) ∧ reached.AllEnded ∧
          (reached.world.stock .redis).length =
            (stock .redis).length := by
  constructor
  · intro positive events
    rcases exists_redisCensus json unsent stock world events with
      ⟨holding, census⟩
    rcases census.exists_drained
        (fun task => (taskCode json task).expand Call.actions) timeOutKey
        (stocked_perform unsent) positive with
      ⟨more, advance, ended, free⟩
    refine ⟨more, advance, ?_, ?_⟩
    · rw [actionRun, Transition.run_append]
      exact ended
    · rw [actionRun, Transition.run_append]
      exact free
  · intro always
    by_contra none
    have isEmpty : stock .redis = [] :=
      List.eq_nil_of_length_eq_zero (by omega)
    rcases always [.arrive .syncViewCounts] with ⟨more, advance, ended, -⟩
    exact not_allEnded_sync json unsent isEmpty world advance ended

end Threads

end LightningServer.Handler
