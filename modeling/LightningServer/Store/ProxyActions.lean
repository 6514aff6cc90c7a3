import LightningServer.Foundation.Atomicity
import LightningServer.Store.Outage

/-!
# The proxies action by action

Here a call of a service is no single step: its thread takes a connection
from the pool, sends its statements or its command, and gives the connection
back, and every other thread may act in between.  The pools and the two
servers are shared; a thread waits while the pool of Redis is empty, and at
most the timeout while the pool of MySQL is.

The environment decides which waits time out, which statements get an error
before they have an effect, and which commands do not reach Redis: their
reply is the null pointer.
-/

namespace LightningServer.Store

open LightningServer.Foundation
open LightningServer.Foundation.Numerals
open LightningServer.Store.DatabaseProxy (pageOffset)

/-! ## Actions of a thread -/

inductive Action where
  /-- an access to a pool, or to a connection out of it -/
  | proxy (access : Access Server Connection Query)
  /-- a reading of the clock, which has no proxy -/
  | localTime

@[reducible]
def Action.Answer : Action → Type
  | .proxy access => access.Reply Query.Answer
  | .localTime => Text

abbrev Actions (Value : Type) :=
  Program Action.Answer StdException Value

/-- The code of a proxy, as a part of the code of a thread. -/
def actions {Value : Type} : Driver Value → Actions Value
  | .ret value => .ret value
  | .throw exception => .throw exception
  | .call access next =>
      .call (.proxy access) fun reply => actions (next reply)

/-- A call, as its thread makes it. -/
def Call.actions (call : Call) : Actions call.Reply :=
  if isClock : call = .localTime then
    isClock ▸ Program.perform Action.localTime
  else Store.actions (call.driver isClock)

/-! ## What the threads share -/

structure Servers where
  /-- `pool_` of the two proxies -/
  stock : Server → List Connection
  world : World

structure Decision where
  /-- a wait on the empty pool of MySQL is over -/
  timesOut : Bool
  /-- the statement gets an error -/
  fails : Statement → Bool
  /-- a command reaches Redis -/
  reaches : Bool

section Perform

variable (unsent : Statement → World → Option (List Row) × World)
variable (decision : Decision)

/-- What a query gets, and the world after it. -/
def serveQuery : (query : Query) → World → query.Answer × World
  | .statement statement, world =>
      if decision.fails statement then (none, world)
      else statement.execute unsent world
  | .command command, world =>
      if decision.reaches then
        let (reply, redis) := command.execute world.redis
        (some reply, { world with redis })
      else (none, world)

/-- The world after an access. -/
def worldAfter : Access Server Connection Query → World → World
  | .use _ _ query, world => (serveQuery unsent decision query world).2
  | _, world => world

/-- An action of a thread, unless it blocks. -/
def perform : (action : Action) → Servers →
    Option (action.Answer × Servers)
  | .proxy access, servers =>
      let choice : Choice Query.Answer :=
        { timesOut := decision.timesOut
          answer := fun query =>
            (serveQuery unsent decision query servers.world).1 }
      (access.grant choice [] servers.stock).map fun granted =>
        (granted.1,
          { stock := granted.2.2
            world := worldAfter unsent decision access servers.world })
  | .localTime, servers =>
      some
        ((exec .localTime servers.world).1,
          { servers with world := (exec .localTime servers.world).2 })

end Perform

/-! ## Whole calls -/

/-- What the environment decides about one whole call. -/
structure Ruling where
  fault : Fault
  reaches : Bool

/-- The call is one command. -/
def Call.isCommand : Call → Bool
  | .localTime => false
  | call => !call.isDatabase

/-- What the cache proxy makes of a null pointer. -/
def Call.unanswered (world : World) : (call : Call) → call.Reply
  | .get _ => none
  | .set _ _ _ => false
  | .del _ => false
  | .incr _ => (0 : Int)
  | .zadd _ _ _ => false
  | .zrevrange _ _ _ => []
  | .lpush _ _ => false
  | .lrange _ _ _ => []
  | .expire _ _ => false
  | call => (exec call world).1

/-- The effect of a call under a ruling. -/
def execRuled (ruling : Ruling) (call : Call) (world : World) :
    call.Reply × World :=
  if call.isCommand && !ruling.reaches then (call.unanswered world, world)
  else execUnder ruling.fault call world

/-- No connection of MySQL within the timeout. -/
def Ruling.noConnection : Ruling where
  fault := { connects := false, fails := fun _ => false }
  reaches := true

/-- At most this statement gets an error. -/
def Ruling.ofStatement (statement : Statement) (fails : Bool) :
    Ruling where
  fault :=
    { connects := true, fails := fun other => fails && other = statement }
  reaches := true

/-- A command, which reaches Redis or does not. -/
def Ruling.ofCommand (reaches : Bool) : Ruling where
  fault := .none
  reaches := reaches

/-- The number of articles, and both tables countable. -/
def Counted (count : Nat) (world : World) : Prop :=
  world.database.articles.length = count ∧ world.database.Countable

/-! ## Parts of the code of a proxy -/

section Pending

variable {unsent : Statement → World → Option (List Row) × World}
variable {count : Nat}

/-- Nothing has been done yet for the call. -/
abbrev IsPending
    (unsent : Statement → World → Option (List Row) × World) (count : Nat)
    (call : Call) (program : Actions call.Reply) : Prop :=
  program.Pending (perform unsent) execRuled Servers.world (Counted count)
    call

/-- Only the value is left to be returned. -/
abbrev IsCommitted {Value : Type}
    (unsent : Statement → World → Option (List Row) × World) (count : Nat)
    (value : Value) (program : Actions Value) : Prop :=
  program.Committed (perform unsent) Servers.world (Counted count) value

/-- Code after the last query: a conversion, then the release. -/
def Ends {Value : Type} (rest : Connection → Driver Value) : Prop :=
  ∃ (Read : Type) (result : Except StdException Read)
      (use : Read → Value),
    ∀ conn,
      rest conn =
        Program.ofExcept result >>= fun read =>
          DatabaseProxy.releaseConnection conn >>= fun _ =>
            pure (use read)

/-- A release never blocks, and the world does not see it. -/
theorem committed_release
    {Value : Type} (kind : Server) (conn : Connection) (value : Value) :
    IsCommitted unsent count value
      (actions
        (Program.perform (Access.release kind conn) >>= fun _ =>
          pure value)) := by
  intro decision servers answer later _ performed
  cases performed
  exact ⟨rfl, rfl⟩

/-- The end of an operation, by the value that it has on any connection. -/
theorem Ends.committed
    {Value : Type} {rest : Connection → Driver Value} (ends : Ends rest)
    {fault : Fault} {conn : Connection} {serving last : Serving}
    {value : Value}
    (ran :
      (rest conn).run (serve unsent fault) serving = (.ok value, last)) :
    last = serving ∧
      ∀ other, IsCommitted unsent count value (actions (rest other)) := by
  rcases ends with ⟨Read, result, use, isRest⟩
  cases result with
  | error exception =>
      rw [isRest] at ran
      cases ran
  | ok read =>
      have returned : use read = value ∧ serving = last := by
        rw [isRest] at ran
        exact ⟨Except.ok.inj (congrArg Prod.fst ran),
          congrArg Prod.snd ran⟩
      rcases returned with ⟨rfl, rfl⟩
      refine ⟨rfl, fun other => ?_⟩
      rw [isRest]
      exact committed_release .mysql other (use read)

/-- Waiting for a connection of MySQL. -/
theorem pending_acquire
    {call : Call} {next : Option Connection → Driver call.Reply}
    (timesOut :
      ∀ world, Counted count world →
        ∃ ruling,
          (execRuled ruling call world).2 = world ∧
            IsCommitted unsent count (execRuled ruling call world).1
              (actions (next none)))
    (connects :
      ∀ conn, IsPending unsent count call (actions (next (some conn)))) :
    IsPending unsent count call
      (actions (DatabaseProxy.acquireConnection >>= next)) := by
  intro decision servers answer later counted performed
  rcases servers with ⟨stock, world⟩
  simp only [perform, Access.grant] at performed
  cases isStock : stock .mysql with
  | nil =>
      cases isOver : decision.timesOut with
      | false => simp [isStock, isOver] at performed
      | true =>
          rw [isStock, isOver] at performed
          cases performed
          exact Or.inr (timesOut world counted)
  | cons conn others =>
      rw [isStock] at performed
      cases performed
      exact Or.inl ⟨rfl, connects conn⟩

/-- A statement, which is the effect of the call or leads to it. -/
theorem pending_query
    {call : Call} {conn : Connection} {statement : Statement}
    {next : Option (List Row) → Driver call.Reply}
    (answers :
      ∀ decision world, Counted count world →
        let served :=
          serveQuery unsent decision (.statement statement) world
        served.2 = world ∧
            IsPending unsent count call (actions (next served.1)) ∨
          ∃ ruling,
            (execRuled ruling call world).2 = served.2 ∧
              IsCommitted unsent count (execRuled ruling call world).1
                (actions (next served.1))) :
    IsPending unsent count call
      (actions (DatabaseProxy.query conn statement >>= next)) := by
  intro decision servers answer later counted performed
  cases performed
  exact answers decision servers.world counted

/-! ## Calls under a ruling -/

/-- A call under a ruling has the effect of the call, or none. -/
theorem execRuled_cases (ruling : Ruling) (call : Call) (world : World) :
    (execRuled ruling call world).2 = world ∨
      execRuled ruling call world = exec call world := by
  rw [execRuled]
  split
  · exact Or.inl rfl
  · rw [execUnder]
    split
    · exact Or.inl rfl
    · exact Or.inr rfl

/-- The reply is that of the call, or stands for a failure. -/
theorem reply_execRuled
    (call : Call) {motive : call.Reply → Prop} {ruling : Ruling}
    {world : World} (executed : motive (exec call world).1)
    (unanswered : motive (call.unanswered world))
    (failed : ∀ fault, motive (call.failure fault world)) :
    motive (execRuled ruling call world).1 := by
  rw [execRuled]
  split
  · exact unanswered
  · rw [execUnder]
    split
    · exact failed ruling.fault
    · exact executed

/-! ## Calls of the database -/

theorem execRuled_of_database
    {call : Call} (isDatabase : call.isDatabase = true) (ruling : Ruling)
    (world : World) :
    execRuled ruling call world = execUnder ruling.fault call world := by
  have noCommand : call.isCommand = false := by
    cases call with
    | localTime => rfl
    | _ => simp [Call.isCommand, isDatabase]
  rw [execRuled, noCommand, Bool.false_and, if_neg Bool.false_ne_true]

/-- The run of a driver goes on with what the decision gives. -/
theorem exists_run_of_query
    {Value : Type} {decision : Decision} {statement : Statement}
    {next : Option (List Row) → Driver Value} {serving : Serving}
    {outcome : Except StdException Value × Serving}
    (ran :
      (DatabaseProxy.query (0 : Connection) statement >>= next).run
          (serve unsent
            (Ruling.ofStatement statement
              (decision.fails statement)).fault) serving = outcome) :
    let served :=
      serveQuery unsent decision (.statement statement) serving.world
    ∃ broken,
      (next served.1).run
          (serve unsent
            (Ruling.ofStatement statement
              (decision.fails statement)).fault)
          { world := served.2, broken := broken } = outcome := by
  intro served
  cases fails : decision.fails statement with
  | true =>
      refine ⟨true, ?_⟩
      rw [fails, run_query_failed (by simp [Ruling.ofStatement])] at ran
      simp only [served, serveQuery, fails, if_true]
      exact ran
  | false =>
      refine ⟨serving.broken ||
        (statement.execute unsent serving.world).1.isNone, ?_⟩
      rw [fails, run_query (by simp [Ruling.ofStatement])] at ran
      simp only [served, serveQuery, fails, Bool.false_eq_true, if_false]
      exact ran

/-- A call whose only statement is its effect. -/
theorem pending_single
    {call : Call} {statement : Statement} {bad : call.Reply}
    {next : Connection → Option (List Row) → Driver call.Reply}
    (isDatabase : call.isDatabase = true)
    (ends : ∀ answer, Ends fun conn => next conn answer)
    (agrees :
      ∀ fault world, world.database.Countable →
        Agrees unsent fault call
          (DatabaseProxy.acquireConnection >>= fun
            | none => pure bad
            | some conn =>
                DatabaseProxy.query conn statement >>= next conn)
          world) :
    IsPending unsent count call
      (actions
        (DatabaseProxy.acquireConnection >>= fun
          | none => pure bad
          | some conn =>
              DatabaseProxy.query conn statement >>= next conn)) := by
  apply pending_acquire
  · intro world counted
    have blocked := agrees Ruling.noConnection.fault world counted.2
    rw [Agrees, run_acquire_blocked rfl] at blocked
    refine ⟨.noConnection, ?_⟩
    rw [execRuled_of_database isDatabase]
    constructor
    · exact (congrArg (fun result => result.2.world) blocked).symm
    · exact Except.ok.inj (congrArg Prod.fst blocked)
  · intro conn
    apply pending_query
    intro decision world counted served
    right
    refine ⟨.ofStatement statement (decision.fails statement), ?_⟩
    rw [execRuled_of_database isDatabase]
    have ran := agrees
      (Ruling.ofStatement statement (decision.fails statement)).fault
      world counted.2
    rw [Agrees, run_acquire rfl] at ran
    rcases exists_run_of_query ran with ⟨broken, queried⟩
    rcases (ends served.1).committed queried with ⟨last, committed⟩
    exact ⟨congrArg Serving.world last, committed conn⟩

theorem ends_update (answer : Option (List Row)) :
    Ends fun conn => do
      DatabaseProxy.releaseConnection conn
      return answer.isSome :=
  ⟨Unit, .ok (), fun _ => answer.isSome, fun _ => rfl⟩

theorem ends_select
    {Value : Type} (read : Row → Except StdException Value)
    (answer : Option (List Row)) :
    Ends fun conn =>
      match answer with
      | none => do
          DatabaseProxy.releaseConnection conn
          return []
      | some result => do
          let values ← .ofExcept (result.mapM read)
          DatabaseProxy.releaseConnection conn
          return values := by
  cases answer with
  | none => exact ⟨Unit, .ok (), fun _ => [], fun _ => rfl⟩
  | some result => exact ⟨_, result.mapM read, id, fun _ => rfl⟩

theorem ends_getArticleById (answer : Option (List Row)) :
    Ends fun conn =>
      match answer with
      | none => do
          DatabaseProxy.releaseConnection conn
          return none
      | some result => do
          let article ← .ofExcept (result.head?.mapM Row.article)
          DatabaseProxy.releaseConnection conn
          return article := by
  cases answer with
  | none => exact ⟨Unit, .ok (), fun _ => none, fun _ => rfl⟩
  | some result =>
      exact ⟨_, result.head?.mapM Row.article, id, fun _ => rfl⟩

theorem ends_getCommentCount (answer : Option (List Row)) :
    Ends fun conn => do
      let count ← .ofExcept (countOf (answer.getD []))
      DatabaseProxy.releaseConnection conn
      return count :=
  ⟨Int, countOf (answer.getD []), id, fun _ => rfl⟩

/-- The second half of `getArticles`, after the rows have been counted. -/
theorem ends_getArticles (total : Int) (answer : Option (List Row)) :
    Ends fun conn =>
      match answer with
      | none => do
          DatabaseProxy.releaseConnection conn
          return (([], total) : List Article × Int)
      | some result => do
          let articles ← .ofExcept (result.mapM Row.article)
          DatabaseProxy.releaseConnection conn
          return (articles, total) := by
  cases answer with
  | none => exact ⟨Unit, .ok (), fun _ => ([], total), fun _ => rfl⟩
  | some result =>
      exact ⟨_, result.mapM Row.article,
        fun articles => (articles, total), fun _ => rfl⟩

/--
The page of articles: the rows are counted first, and no statement changes
their number before the page is selected.
-/
theorem pending_getArticles (page pageSize : Int) :
    IsPending unsent count (.getArticles page pageSize)
      (actions (DatabaseProxy.getArticles page pageSize 0)) := by
  have agrees :
      ∀ fault world, Counted count world →
        Agrees unsent fault (.getArticles page pageSize)
          (DatabaseProxy.getArticles page pageSize 0) world :=
    fun fault world counted => agrees_getArticles counted.2.1 page pageSize
  apply pending_acquire
  · intro world counted
    have blocked := agrees Ruling.noConnection.fault world counted
    rw [Agrees, DatabaseProxy.getArticles, run_acquire_blocked rfl]
      at blocked
    refine ⟨.noConnection, ?_⟩
    rw [execRuled_of_database rfl]
    constructor
    · exact (congrArg (fun result => result.2.world) blocked).symm
    · exact Except.ok.inj (congrArg Prod.fst blocked)
  intro conn
  apply pending_query
  intro decision world counted served
  cases fails : decision.fails .countArticles with
  | true =>
      right
      refine ⟨.ofStatement .countArticles true, ?_⟩
      rw [execRuled_of_database rfl]
      have isServed : served = (none, world) := by
        simp only [served, serveQuery, fails, if_true]
      rw [isServed]
      have hit :
          execUnder (Ruling.ofStatement .countArticles true).fault
              (.getArticles page pageSize) world =
            (([], 0), world) := by
        simp [execUnder, Call.blocked, Call.isDatabase, Call.statements,
          Ruling.ofStatement, Call.failure]
      rw [hit]
      exact ⟨rfl, committed_release .mysql conn _⟩
  | false =>
      left
      have isServed :
          served =
            (some [[some (decimal world.database.articles.length)]],
              world) := by
        simp only [served, serveQuery, fails, Bool.false_eq_true,
          if_false, Statement.execute, Database.length_storedArticles]
      rw [isServed]
      refine ⟨rfl, ?_⟩
      simp only [countOf_length counted.2.1, Program.ofExcept_ok,
        Program.ret_bind]
      apply pending_query
      intro decision later stillCounted served
      right
      refine ⟨.ofStatement
        (.selectArticles pageSize (pageOffset page pageSize))
        (decision.fails
          (.selectArticles pageSize (pageOffset page pageSize))), ?_⟩
      rw [execRuled_of_database rfl]
      have ran := agrees
        (Ruling.ofStatement
          (.selectArticles pageSize (pageOffset page pageSize))
          (decision.fails
            (.selectArticles pageSize (pageOffset page pageSize)))).fault
        later stillCounted
      rw [Agrees, DatabaseProxy.getArticles, run_acquire rfl] at ran
      simp only [] at ran
      rw [run_query (by simp [Ruling.ofStatement])] at ran
      simp only [Statement.execute, Database.length_storedArticles,
        countOf_length stillCounted.2.1, Program.ofExcept_ok,
        Program.ret_bind] at ran
      rcases exists_run_of_query ran with ⟨broken, queried⟩
      rcases (ends_getArticles later.database.articles.length
        served.1).committed queried with ⟨last, committed⟩
      rw [counted.1, ← stillCounted.1]
      exact ⟨congrArg Serving.world last, committed conn⟩

/-! ## Calls of the cache -/

/-- A command, and what the proxy makes of its reply. -/
theorem pending_command
    {call : Call} (isCommand : call.isCommand = true)
    {command : Command} {read : Option RedisReply → call.Reply}
    (agrees :
      ∀ world, world.database.Countable →
        Agrees unsent .none call (CacheProxy.send command read) world)
    (unanswered : ∀ world, read none = call.unanswered world) :
    IsPending unsent count call
      (actions (CacheProxy.send command read)) := by
  intro decision servers conn later counted performed
  -- the wait is silent, and the command is the effect
  have waited : later.world = servers.world := by
    rcases servers with ⟨stock, world⟩
    simp only [perform, Access.grant] at performed
    cases isStock : stock .redis with
    | nil => simp [isStock] at performed
    | cons first others =>
        rw [isStock] at performed
        cases performed
        rfl
  refine Or.inl ⟨waited, ?_⟩
  intro decision servers reply later counted performed
  cases performed
  right
  refine ⟨.ofCommand decision.reaches, ?_⟩
  cases reaches : decision.reaches with
  | false =>
      have lost :
          execRuled (.ofCommand false) call servers.world =
            (call.unanswered servers.world, servers.world) := by
        simp [execRuled, isCommand, Ruling.ofCommand]
      rw [lost]
      simp only [worldAfter, serveQuery, reaches, Bool.false_eq_true,
        if_false, ← unanswered servers.world]
      exact ⟨trivial, committed_release .redis conn _⟩
  | true =>
      have ran := agrees servers.world counted.2
      have reached :
          execRuled (.ofCommand true) call servers.world =
            execUnder .none call servers.world := by
        simp [execRuled, Ruling.ofCommand]
      rw [reached]
      simp only [worldAfter, serveQuery, reaches, if_true]
      have value :
          read (some (command.execute servers.world.redis).1) =
            (execUnder .none call servers.world).1 :=
        Except.ok.inj (congrArg Prod.fst ran)
      have world :
          { servers.world with
              redis := (command.execute servers.world.redis).2 } =
            (execUnder .none call servers.world).2 :=
        congrArg (fun result => result.2.world) ran
      rw [← value]
      exact ⟨world.symm, committed_release .redis conn _⟩

/-! ## All calls -/

/-- The clock is read in one action. -/
theorem pending_localTime :
    IsPending unsent count .localTime (Call.actions .localTime) := by
  intro decision servers now later counted performed
  cases performed
  right
  refine ⟨.ofCommand true, ?_⟩
  exact ⟨rfl, rfl⟩

/-- Every call of a service is atomic, as the proxies make it. -/
theorem pending_actions (call : Call) :
    IsPending unsent count call call.actions := by
  by_cases isClock : call = .localTime
  · subst isClock
    exact pending_localTime
  have agrees :
      ∀ fault world, world.database.Countable →
        Agrees unsent fault call (call.driver isClock) world :=
    fun fault world countable => run_driver isClock countable
  rw [Call.actions, dif_neg isClock]
  cases call with
  | localTime => exact absurd rfl isClock
  | getArticles page pageSize => exact pending_getArticles page pageSize
  | getArticleById id =>
      exact pending_single rfl ends_getArticleById agrees
  | setViewCount id viewCount =>
      exact pending_single rfl ends_update agrees
  | getCommentsByArticleId articleId limit =>
      exact pending_single rfl (ends_select Row.comment) agrees
  | createComment comment => exact pending_single rfl ends_update agrees
  | getCommentCount articleId =>
      exact pending_single rfl ends_getCommentCount agrees
  | getHotArticles limit =>
      exact pending_single rfl (ends_select Row.article) agrees
  | set key value ttlSec =>
      exact pending_command rfl (agrees .none) fun _ => rfl
  | _ => exact pending_command rfl (agrees .none) fun _ => rfl

end Pending

end LightningServer.Store
