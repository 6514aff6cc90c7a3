import LightningServer.Store.Proxy

/-!
# Calls of the database that fail

A call of `DatabaseProxy` fails when no connection comes within the timeout
or when one of its statements gets an error.  The proxy turns the failure
into an ordinary value, and the service goes on with it.

`execUnder` is the effect of a call under a fault; `run_driver` derives it
from the code of the proxies, `exec` itself being the case without a fault.
-/

namespace LightningServer.Store

open LightningServer.Foundation
open LightningServer.Foundation.Numerals
open LightningServer.Store.DatabaseProxy (pageOffset)

/-! ## Faults of one call -/

structure Fault where
  /-- a connection comes within the timeout -/
  connects : Bool
  /-- the statement gets an error before it has an effect -/
  fails : Statement → Bool

def Fault.none : Fault where
  connects := true
  fails := fun _ => false

namespace Call

/-- The statements of a call, in their order. -/
def statements : Call → List Statement
  | .getArticles page pageSize =>
      [.countArticles, .selectArticles pageSize (pageOffset page pageSize)]
  | .getArticleById id => [.selectArticle id]
  | .setViewCount id count => [.setViewCount id count]
  | .getCommentsByArticleId articleId limit =>
      [.selectComments articleId limit]
  | .createComment comment => [.insertComment comment]
  | .getCommentCount articleId => [.countComments articleId]
  | .getHotArticles limit => [.selectHotArticles limit]
  | _ => []

/-- The call goes to the database. -/
def isDatabase (call : Call) : Bool :=
  !call.statements.isEmpty

/-- The fault hits the call. -/
def blocked (call : Call) (fault : Fault) : Bool :=
  call.isDatabase &&
    (!fault.connects || call.statements.any fault.fails)

/-- The server itself answers with an error. -/
def refused (call : Call) (world : World) : Bool :=
  match call with
  | .getArticles page pageSize => pageOffset page pageSize < 0 ∨ pageSize < 0
  | .setViewCount id count =>
      !(world.database.setViewCount id count world.now).1
  | .getCommentsByArticleId _ limit => limit < 0
  | .createComment comment =>
      !(world.database.createComment comment
        (world.accepts world.ticks) world.now).1
  | .getHotArticles limit => limit < 0
  | _ => false

/-- The call fails, by the fault or by the server. -/
def broken (call : Call) (fault : Fault) (world : World) : Bool :=
  call.blocked fault || call.refused world

/-- The value that stands for the failure. -/
def failure (fault : Fault) (world : World) : (call : Call) → call.Reply
  | .getArticles _ _ =>
      ([],
        if fault.connects && !fault.fails .countArticles then
          world.database.articles.length
        else 0)
  | .getArticleById _ => none
  | .setViewCount _ _ => false
  | .getCommentsByArticleId _ _ => []
  | .createComment _ => false
  | .getCommentCount _ => (0 : Int)
  | .getHotArticles _ => []
  | call => (exec call world).1

end Call

/-- The effect of a call under a fault. -/
def execUnder (fault : Fault) (call : Call) (world : World) :
    call.Reply × World :=
  if call.blocked fault then (call.failure fault world, world)
  else exec call world

/-! ## The servers under a fault -/

/-- The world, and whether something has failed so far. -/
structure Serving where
  world : World
  broken : Bool

section Serve

variable (unsent : Statement → World → Option (List Row) × World)
variable (fault : Fault)

/-- What an access of a driver gets, on a pool that is not empty. -/
def serve : (access : Access Server Connection Query) → Serving →
    access.Reply Query.Answer × Serving
  | .wait _, serving => ((0 : Connection), serving)
  | .waitFor _, serving =>
      if fault.connects then (some (0 : Connection), serving)
      else (none, { serving with broken := true })
  | .use _ _ (.statement statement), serving =>
      if fault.fails statement then (none, { serving with broken := true })
      else
        let (result, world) := statement.execute unsent serving.world
        (result, { world, broken := serving.broken || result.isNone })
  | .use _ _ (.command command), serving =>
      let (reply, redis) := command.execute serving.world.redis
      (some reply, { serving with world := { serving.world with redis } })
  | .release _ _, serving => ((), serving)

/-- Both tables can be counted in an `int`. -/
def Database.Countable (database : Database) : Prop :=
  database.articles.length < 2 ^ 31 ∧ database.comments.length < 2 ^ 31

variable {unsent fault} {Value : Type}

theorem run_acquire_blocked
    {next : Option Connection → Driver Value}
    (refused : fault.connects = false) (serving : Serving) :
    (DatabaseProxy.acquireConnection >>= next).run (serve unsent fault)
        serving =
      (next none).run (serve unsent fault)
        { serving with broken := true } := by
  show (next _).run _ _ = _
  simp only [serve, refused, Bool.false_eq_true, if_false]

theorem run_acquire
    {next : Option Connection → Driver Value}
    (connects : fault.connects = true) (serving : Serving) :
    (DatabaseProxy.acquireConnection >>= next).run (serve unsent fault)
        serving =
      (next (some (0 : Connection))).run (serve unsent fault) serving := by
  show (next _).run _ _ = _
  simp only [serve, connects, if_true]

theorem run_query_failed
    {conn : Connection} {statement : Statement}
    {next : Option (List Row) → Driver Value}
    (fails : fault.fails statement = true) (serving : Serving) :
    (DatabaseProxy.query conn statement >>= next).run (serve unsent fault)
        serving =
      (next none).run (serve unsent fault)
        { serving with broken := true } := by
  show (next _).run _ _ = _
  simp only [serve, fails, if_true]

theorem run_query
    {conn : Connection} {statement : Statement}
    {next : Option (List Row) → Driver Value}
    (answers : fault.fails statement = false) (serving : Serving) :
    (DatabaseProxy.query conn statement >>= next).run (serve unsent fault)
        serving =
      (next (statement.execute unsent serving.world).1).run
        (serve unsent fault)
        { world := (statement.execute unsent serving.world).2
          broken :=
            serving.broken ||
              (statement.execute unsent serving.world).1.isNone } := by
  show (next _).run _ _ = _
  simp only [serve, answers, Bool.false_eq_true, if_false]

/-- A release, and what is returned after it. -/
theorem run_release (conn : Connection) (value : Value)
    (serving : Serving) :
    (DatabaseProxy.releaseConnection conn >>= fun _ => pure value).run
        (serve unsent fault) serving =
      (.ok value, serving) :=
  rfl

/-- An operation of one statement, which returns `bad` when that fails. -/
theorem run_statement
    {statement : Statement} {bad : Value}
    {next : Connection → Option (List Row) → Driver Value}
    (refuses :
      ∀ conn serving,
        (next conn none).run (serve unsent fault) serving =
          (.ok bad, serving))
    (world : World) :
    (DatabaseProxy.acquireConnection >>= fun
        | none => pure bad
        | some conn =>
            DatabaseProxy.query conn statement >>= next conn).run
          (serve unsent fault) ⟨world, false⟩ =
      if fault.connects = true ∧ fault.fails statement = false then
        (next (0 : Connection) (statement.execute unsent world).1).run
          (serve unsent fault)
          { world := (statement.execute unsent world).2
            broken := (statement.execute unsent world).1.isNone }
      else (.ok bad, ⟨world, true⟩) := by
  cases connects : fault.connects with
  | false =>
      rw [run_acquire_blocked connects, if_neg (by simp)]
      rfl
  | true =>
      rw [run_acquire connects]
      cases answers : fault.fails statement with
      | true =>
          simp only [run_query_failed answers, refuses]
          rfl
      | false =>
          simp only [run_query answers, Bool.false_or]
          rfl

theorem run_update (statement : Statement) (world : World) :
    (DatabaseProxy.update statement).run (serve unsent fault)
        ⟨world, false⟩ =
      if fault.connects = true ∧ fault.fails statement = false then
        (.ok (statement.execute unsent world).1.isSome,
          { world := (statement.execute unsent world).2
            broken := (statement.execute unsent world).1.isNone })
      else (.ok false, ⟨world, true⟩) :=
  run_statement (fun conn serving => run_release conn false serving) world

theorem run_select
    (statement : Statement) (read : Row → Except StdException Value)
    (world : World) :
    (DatabaseProxy.select statement read).run (serve unsent fault)
        ⟨world, false⟩ =
      if fault.connects = true ∧ fault.fails statement = false then
        match statement.execute unsent world with
        | (none, later) => (.ok [], ⟨later, true⟩)
        | (some rows, later) => (rows.mapM read, ⟨later, false⟩)
      else (.ok [], ⟨world, true⟩) := by
  refine (run_statement (fun conn serving => run_release conn [] serving)
    world).trans ?_
  congr 1
  rcases statement.execute unsent world with ⟨_ | rows, later⟩
  · rfl
  · cases isRead : rows.mapM read with
    | error exception =>
        simp only [isRead]
        rfl
    | ok values =>
        simp only [isRead]
        rfl

/-! ## From the code of the proxies to the calls -/

theorem Call.blocked_iff_of_single
    {call : Call} {statement : Statement}
    (single : call.statements = [statement]) :
    call.blocked fault = true ↔
      ¬ (fault.connects = true ∧ fault.fails statement = false) := by
  rw [Call.blocked, Call.isDatabase, single, List.any_cons, List.any_nil]
  cases fault.connects with
  | false => simp
  | true => simp

/-- A call of one statement that the fault does not hit. -/
theorem execUnder_of_through
    {call : Call} {statement : Statement}
    (single : call.statements = [statement])
    (through : fault.connects = true ∧ fault.fails statement = false)
    (world : World) :
    execUnder fault call world = exec call world ∧
      call.broken fault world = call.refused world := by
  have free : ¬ call.blocked fault = true := by
    rw [Call.blocked_iff_of_single single]
    exact not_not.mpr through
  rw [execUnder, if_neg free, Call.broken,
    Bool.eq_false_of_not_eq_true free]
  exact ⟨rfl, rfl⟩

/-- A call of one statement that the fault hits. -/
theorem execUnder_of_blocked
    {call : Call} {statement : Statement}
    (single : call.statements = [statement])
    (blocked : ¬ (fault.connects = true ∧ fault.fails statement = false))
    (world : World) :
    execUnder fault call world = (call.failure fault world, world) ∧
      call.broken fault world = true := by
  have hit := (Call.blocked_iff_of_single single).mpr blocked
  rw [execUnder, if_pos hit, Call.broken, hit]
  exact ⟨rfl, rfl⟩

/-- An UPDATE or INSERT, by the result of the tables. -/
theorem run_update_of_execute
    {statement : Statement} {world : World} {result : Bool × Database}
    (executed : statement.execute unsent world = world.onUpdate result) :
    (DatabaseProxy.update statement).run (serve unsent fault)
        ⟨world, false⟩ =
      if fault.connects = true ∧ fault.fails statement = false then
        (.ok result.1, ⟨(world.onDatabase result).2, !result.1⟩)
      else (.ok false, ⟨world, true⟩) := by
  rw [run_update, executed, World.onUpdate]
  cases done : result.1 with
  | false => simp [World.onDatabase, done]
  | true => simp [World.onDatabase, done]

/-- A SELECT, by the rows of the tables. -/
theorem run_select_of_execute
    {statement : Statement} {read : Row → Except StdException Value}
    {render : Value → Row} {receive : Value → Value} {world : World}
    {values : List Value} {refused : Bool}
    (nothing : refused = true → values = [])
    (executed :
      statement.execute unsent world =
        (if refused then none else some (values.map render), world))
    (each :
      ∀ value ∈ values, read (render value) = .ok (receive value)) :
    (DatabaseProxy.select statement read).run (serve unsent fault)
        ⟨world, false⟩ =
      if fault.connects = true ∧ fault.fails statement = false then
        (.ok (values.map receive), ⟨world, refused⟩)
      else (.ok [], ⟨world, true⟩) := by
  rw [run_select, executed]
  cases refused with
  | true => rw [nothing rfl]; rfl
  | false => simp [mapM_rows each]

end Serve

section Drivers

variable {unsent : Statement → World → Option (List Row) × World}
variable {fault : Fault}

/-- The run of a driver is the call under the fault. -/
def Agrees (unsent : Statement → World → Option (List Row) × World)
    (fault : Fault) (call : Call) (driver : Driver call.Reply)
    (world : World) : Prop :=
  driver.run (serve unsent fault) ⟨world, false⟩ =
    (.ok (execUnder fault call world).1,
      ⟨(execUnder fault call world).2, call.broken fault world⟩)

/-- Agreement for a call of one statement. -/
theorem Agrees.of_single
    {call : Call} {statement : Statement}
    (single : call.statements = [statement])
    {driver : Driver call.Reply} {world : World}
    (runs :
      driver.run (serve unsent fault) ⟨world, false⟩ =
        if fault.connects = true ∧ fault.fails statement = false then
          (.ok (exec call world).1,
            ⟨(exec call world).2, call.refused world⟩)
        else (.ok (call.failure fault world), ⟨world, true⟩)) :
    Agrees unsent fault call driver world := by
  rw [Agrees, runs]
  by_cases through : fault.connects = true ∧ fault.fails statement = false
  · rcases execUnder_of_through single through world with ⟨same, errs⟩
    rw [if_pos through, same, errs]
  · rcases execUnder_of_blocked single through world with ⟨same, errs⟩
    rw [if_neg through, same, errs]

theorem agrees_setViewCount (id count : Int) (world : World) :
    Agrees unsent fault (.setViewCount id count)
      (DatabaseProxy.setViewCount id count) world :=
  .of_single rfl (run_update_of_execute rfl)

theorem agrees_createComment (comment : Comment) (world : World) :
    Agrees unsent fault (.createComment comment)
      (DatabaseProxy.createComment comment) world :=
  .of_single rfl (run_update_of_execute rfl)

/-- A negative limit takes nothing, as its syntax error gives nothing. -/
theorem take_of_negative
    {limit : Int} (negative : decide (limit < 0) = true)
    (values : List Value) :
    values.take limit.toNat = [] := by
  have low := of_decide_eq_true negative
  rw [Int.toNat_of_nonpos (Int.le_of_lt low), List.take_zero]

theorem agrees_getCommentsByArticleId
    (articleId limit : Int) (world : World) :
    Agrees unsent fault (.getCommentsByArticleId articleId limit)
      (DatabaseProxy.getCommentsByArticleId articleId limit) world := by
  have executed :
      (Statement.selectComments articleId limit).execute unsent world =
        (if decide (limit < 0) = true then none
          else
            some
              (((world.database.storedCommentsOf articleId).take
                limit.toNat).map Comment.row), world) := by
    simp only [Statement.execute, Database.selectComments,
      decide_eq_true_eq]
  apply Agrees.of_single rfl
  rw [exec, Database.getCommentsByArticleId_eq_received]
  refine run_select_of_execute (take_of_negative · _) executed ?_
  intro comment member
  exact Row.comment_row (world.database.fits_of_mem_storedCommentsOf
    (List.mem_of_mem_take member))

theorem agrees_getHotArticles (limit : Int) (world : World) :
    Agrees unsent fault (.getHotArticles limit)
      (DatabaseProxy.getHotArticles limit) world := by
  have executed :
      (Statement.selectHotArticles limit).execute unsent world =
        (if decide (limit < 0) = true then none
          else
            some
              ((world.database.storedHotArticles limit).map Article.row),
          world) := by
    simp only [Statement.execute, Database.selectHotArticles,
      decide_eq_true_eq]
  apply Agrees.of_single rfl
  rw [exec, Database.getHotArticles_eq_received]
  refine run_select_of_execute (take_of_negative · _) executed ?_
  intro article member
  exact Row.article_row (world.database.storedArticlesFit article
    (mem_orderBy.mp (List.mem_of_mem_take member)))

theorem agrees_getArticleById (id : Int) (world : World) :
    Agrees unsent fault (.getArticleById id)
      (DatabaseProxy.getArticleById id) world := by
  apply Agrees.of_single rfl
  refine Eq.trans (run_statement ?_ world) ?_
  · intro conn serving
    exact run_release conn none serving
  have first :
      (world.database.selectArticle id).head? =
        (world.database.storedArticle id).map Article.row := by
    rw [Database.selectArticle, List.head?_map, List.head?_filter]
    rfl
  rw [Statement.execute, exec, Database.getArticleById_eq_received]
  simp only [first]
  cases found : world.database.storedArticle id with
  | none => rfl
  | some article =>
      have read := Row.article_row (world.database.storedArticlesFit
        article (List.mem_of_find?_eq_some found))
      simp only [Option.map_some, Option.mapM_some, read]
      rfl

/-- The count of rows, while it is an `int`. -/
theorem countOf_length {count : Nat} (small : count < 2 ^ 31) :
    countOf [[some (decimal (count : Int))]] = .ok (count : Int) := by
  have fits : IsInt (count : Int) := ⟨by omega, by omega⟩
  exact (stoi_decimal count).trans (if_pos fits)

theorem agrees_getCommentCount
    {world : World} (countable : world.database.Countable)
    (articleId : Int) :
    Agrees unsent fault (.getCommentCount articleId)
      (DatabaseProxy.getCommentCount articleId) world := by
  have small : world.database.countComments articleId < 2 ^ 31 :=
    (List.length_filter_le _ _).trans_lt
      (world.database.length_storedComments ▸ countable.2)
  apply Agrees.of_single rfl
  refine Eq.trans (run_statement ?_ world) ?_
  · intro conn serving
    rfl
  simp only [Statement.execute, exec,
    Database.getCommentCount_eq_stored, Option.getD_some,
    countOf_length small]
  rfl

theorem agrees_getArticles
    {world : World} (countable : world.database.articles.length < 2 ^ 31)
    (page pageSize : Int) :
    Agrees unsent fault (.getArticles page pageSize)
      (DatabaseProxy.getArticles page pageSize 0) world := by
  have blocked :
      (Call.getArticles page pageSize).blocked fault =
        (!fault.connects ||
          (fault.fails .countArticles ||
            fault.fails
              (.selectArticles pageSize (pageOffset page pageSize)))) := by
    simp [Call.blocked, Call.isDatabase, Call.statements]
  rw [Agrees, DatabaseProxy.getArticles, execUnder, Call.broken, blocked]
  cases connects : fault.connects with
  | false =>
      rw [run_acquire_blocked connects]
      simp [Call.failure, connects]
  | true =>
      rw [run_acquire connects]
      cases counts : fault.fails .countArticles with
      | true =>
          simp only [run_query_failed counts, run_release]
          simp [Call.failure, counts]
      | false =>
          simp only [run_query counts, Statement.execute,
            Database.length_storedArticles, countOf_length countable,
            Program.ofExcept_ok,
            Program.ret_bind]
          cases selects :
              fault.fails
                (.selectArticles pageSize (pageOffset page pageSize)) with
          | true =>
              simp only [run_query_failed selects, run_release]
              simp [Call.failure, counts, connects]
          | false =>
              have each :
                  ∀ article ∈
                      world.database.storedPage pageSize
                        (pageOffset page pageSize),
                    article.row.article = .ok article.received := by
                intro article member
                exact Row.article_row
                  (world.database.storedArticlesFit article
                    (mem_orderBy.mp (List.mem_of_mem_drop
                      (List.mem_of_mem_take member))))
              have isPage :
                  world.database.getArticles page pageSize =
                    if pageOffset page pageSize < 0 ∨ pageSize < 0 then _
                    else _ :=
                world.database.getArticles_eq_received page pageSize
              simp only [run_query selects, Statement.execute,
                Database.selectArticles]
              by_cases refused :
                  pageOffset page pageSize < 0 ∨ pageSize < 0
              · rw [if_pos refused] at isPage
                simp only [if_pos refused, run_release]
                simp [Call.refused, refused, exec, isPage]
              · rw [if_neg refused] at isPage
                simp only [if_neg refused, mapM_rows each,
                  Program.ofExcept_ok, Program.ret_bind, run_release]
                simp [Call.refused, refused, exec, isPage]
                rfl

/-- A command of the cache, which no fault of the database hits. -/
theorem Agrees.of_command
    {call : Call} {world : World}
    (noStatement : call.statements = [])
    (answers : call.refused world = false) {command : Command}
    {read : Option RedisReply → call.Reply}
    (replies :
      (read (some (command.execute world.redis).1),
          { world with redis := (command.execute world.redis).2 }) =
        exec call world) :
    Agrees unsent fault call (CacheProxy.send command read) world := by
  have free : call.blocked fault = false := by
    rw [Call.blocked, Call.isDatabase, noStatement]
    rfl
  rw [Agrees, execUnder, Call.broken, free, answers,
    if_neg Bool.false_ne_true, ← replies]
  rfl

/-- ZADD and LPUSH always get a reply. -/
theorem zadd_replies
    (redis : Redis) (key : Text) (score : Int) (member : Text) :
    (redis.zadd key score member).1 = true := by
  rw [Redis.zadd]
  split
  · rfl
  · rfl
  · rfl

theorem lpush_replies (redis : Redis) (key value : Text) :
    (redis.lpush key value).1 = true := by
  rw [Redis.lpush]
  split
  · rfl
  · rfl
  · rfl

/-- The code of the proxies has the effect of the calls, with any fault. -/
theorem run_driver
    {call : Call} (proxied : call ≠ .localTime) {world : World}
    (countable : world.database.Countable) :
    Agrees unsent fault call (call.driver proxied) world := by
  cases call with
  | localTime => exact absurd rfl proxied
  | getArticles page pageSize =>
      exact agrees_getArticles countable.1 page pageSize
  | getArticleById id => exact agrees_getArticleById id world
  | setViewCount id count => exact agrees_setViewCount id count world
  | getCommentsByArticleId articleId limit =>
      exact agrees_getCommentsByArticleId articleId limit world
  | createComment comment => exact agrees_createComment comment world
  | getCommentCount articleId =>
      exact agrees_getCommentCount countable articleId
  | getHotArticles limit => exact agrees_getHotArticles limit world
  | incr key => exact .of_command rfl rfl rfl
  | zrevrange key start stop => exact .of_command rfl rfl rfl
  | lrange key start stop => exact .of_command rfl rfl rfl
  | get key =>
      apply Agrees.of_command rfl rfl
      rw [Command.execute, exec]
      cases world.redis.get key with
      | none => rfl
      | some value => rfl
  | set key value ttlSec =>
      apply Agrees.of_command rfl rfl
      by_cases positive : 0 < ttlSec
      · rw [if_pos positive]
        rfl
      · rw [if_neg positive]
        simp [Command.execute, exec, World.onRedis, Redis.set, positive]
  | del key =>
      apply Agrees.of_command rfl rfl
      rw [Command.execute, exec, World.onRedis]
      cases (world.redis.del key).1 with
      | false => rfl
      | true => rfl
  | expire key ttlSec =>
      apply Agrees.of_command rfl rfl
      rw [Command.execute, exec, World.onRedis]
      cases (world.redis.expire key ttlSec).1 with
      | false => rfl
      | true => rfl
  | zadd key score member =>
      apply Agrees.of_command rfl rfl
      rw [exec, World.onRedis, zadd_replies]
      rfl
  | lpush key value =>
      apply Agrees.of_command rfl rfl
      rw [exec, World.onRedis, lpush_replies]
      rfl

/-- Without a fault the effect of a call is `exec`. -/
theorem execUnder_none (call : Call) (world : World) :
    execUnder .none call world = exec call world := by
  have free : call.blocked .none = false := by
    simp [Call.blocked, Fault.none]
  rw [execUnder, free, if_neg Bool.false_ne_true]

end Drivers

end LightningServer.Store
