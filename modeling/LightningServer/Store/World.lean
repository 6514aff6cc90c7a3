import LightningServer.Foundation.Program
import LightningServer.Store.Database
import LightningServer.Store.Redis

/-!
# The calls of the services and their effect

A `Call` is one call of a method of `CacheProxy` or `DatabaseProxy`, or a
reading of the system clock; each is atomic, and `exec` is what it does when
both servers answer.  Whatever the servers decide on their own is part of the
world: the time, and whether the database takes an INSERT.
-/

namespace LightningServer.Store

open LightningServer.Foundation
open LightningServer.Foundation.Numerals

inductive Call where
  -- `CacheProxy`
  | get (key : Text)
  | set (key value : Text) (ttlSec : Int)
  | del (key : Text)
  | incr (key : Text)
  | zadd (key : Text) (score : Int) (member : Text)
  | zrevrange (key : Text) (start stop : Int)
  | lpush (key value : Text)
  | lrange (key : Text) (start stop : Int)
  | expire (key : Text) (ttlSec : Int)
  -- `DatabaseProxy`
  | getArticles (page pageSize : Int)
  | getArticleById (id : Int)
  | setViewCount (id count : Int)
  | getCommentsByArticleId (articleId limit : Int)
  | createComment (comment : Comment)
  | getCommentCount (articleId : Int)
  | getHotArticles (limit : Int)
  -- `std::chrono::system_clock`, formatted
  | localTime
deriving DecidableEq

/-- What the caller gets; `getArticles` also sets `total`. -/
@[reducible]
def Call.Reply : Call → Type
  | .get _ => Option Text
  | .set _ _ _ => Bool
  | .del _ => Bool
  | .incr _ => Int
  | .zadd _ _ _ => Bool
  | .zrevrange _ _ _ => List Text
  | .lpush _ _ => Bool
  | .lrange _ _ _ => List Text
  | .expire _ _ => Bool
  | .getArticles _ _ => List Article × Int
  | .getArticleById _ => Option Article
  | .setViewCount _ _ => Bool
  | .getCommentsByArticleId _ _ => List Comment
  | .createComment _ => Bool
  | .getCommentCount _ => Int
  | .getHotArticles _ => List Article
  | .localTime => Text

/-- The code of a service: calls, and exceptions of the C++ library. -/
abbrev Service (Value : Type) :=
  Program Call.Reply StdException Value

/-- One call, as a piece of code. -/
abbrev Call.perform (call : Call) : Service call.Reply :=
  Program.perform call

structure World where
  redis : Redis
  database : Database
  /-- how often the clock has been read -/
  ticks : Nat
  /-- the time at each reading -/
  clock : Nat → Text
  /-- whether an INSERT at that reading is taken -/
  accepts : Nat → Bool

namespace World

/-- The world before the first request: nothing in Redis. -/
def initial (database : Database) (clock : Nat → Text)
    (accepts : Nat → Bool) : World :=
  { redis := .empty, database := database, ticks := 0, clock := clock
    accepts := accepts }

def now (world : World) : Text :=
  world.clock world.ticks

/-- A Redis command: its reply, and the world after it. -/
def onRedis {Value : Type} (world : World) (result : Value × Redis) :
    Value × World :=
  (result.1, { world with redis := result.2 })

/-- A statement that reads the clock. -/
def onDatabase {Value : Type} (world : World)
    (result : Value × Database) : Value × World :=
  (result.1,
    { world with database := result.2, ticks := world.ticks + 1 })

/-- The TTL of a key runs out. -/
def timeOut (world : World) (key : Text) : World :=
  { world with redis := world.redis.timeOut key }

end World

/-- The effect of a call when the servers answer. -/
def exec : (call : Call) → World → call.Reply × World
  | .get key, world => (world.redis.get key, world)
  | .set key value ttlSec, world =>
      world.onRedis (world.redis.set key value ttlSec)
  | .del key, world => world.onRedis (world.redis.del key)
  | .incr key, world => world.onRedis (world.redis.incr key)
  | .zadd key score member, world =>
      world.onRedis (world.redis.zadd key score member)
  | .zrevrange key start stop, world =>
      (world.redis.zrevrange key start stop, world)
  | .lpush key value, world =>
      world.onRedis (world.redis.lpush key value)
  | .lrange key start stop, world =>
      (world.redis.lrange key start stop, world)
  | .expire key ttlSec, world =>
      world.onRedis (world.redis.expire key ttlSec)
  | .getArticles page pageSize, world =>
      (world.database.getArticles page pageSize, world)
  | .getArticleById id, world =>
      (world.database.getArticleById id, world)
  | .setViewCount id count, world =>
      world.onDatabase (world.database.setViewCount id count world.now)
  | .getCommentsByArticleId articleId limit, world =>
      (world.database.getCommentsByArticleId articleId limit, world)
  | .createComment comment, world =>
      world.onDatabase
        (world.database.createComment comment
          (world.accepts world.ticks) world.now)
  | .getCommentCount articleId, world =>
      (world.database.getCommentCount articleId, world)
  | .getHotArticles limit, world =>
      (world.database.getHotArticles limit, world)
  | .localTime, world =>
      (world.now, { world with ticks := world.ticks + 1 })

/-! ## What a call can touch -/

/-- The key that a call can write. -/
def Call.writes : Call → Option Text
  | .set key _ _ => some key
  | .del key => some key
  | .incr key => some key
  | .zadd key _ _ => some key
  | .lpush key _ => some key
  | .expire key _ => some key
  | _ => none

/-- The call writes no key but the given one. -/
def Call.WritesOnly (key : Text) (call : Call) : Prop :=
  ∀ written ∈ call.writes, written = key

/-- The call leaves Redis as it is, and the comments too. -/
def Call.KeepsComments (call : Call) : Prop :=
  call.writes = none ∧ ∀ comment, call ≠ .createComment comment

/-- The call leaves Redis and the tables as they are. -/
def Call.ReadOnly : Call → Prop
  | .setViewCount _ _ => False
  | .createComment _ => False
  | call => call.writes = none

/-- A key that a call does not write is left alone. -/
theorem entries_exec
    {call : Call} {key other : Text} (only : call.WritesOnly key)
    (different : other ≠ key) (world : World) :
    (exec call world).2.redis.entries other =
      world.redis.entries other := by
  have apart {written : Text} (isWritten : call.writes = some written) :
      other ≠ written := by
    rw [only written isWritten]
    exact different
  cases call with
  | set written value ttlSec =>
      exact world.redis.entries_set_of_ne value ttlSec (apart rfl)
  | del written => exact world.redis.entries_del_of_ne (apart rfl)
  | incr written => exact world.redis.entries_incr_of_ne (apart rfl)
  | zadd written score member =>
      exact world.redis.entries_zadd_of_ne score member (apart rfl)
  | lpush written value =>
      exact world.redis.entries_lpush_of_ne value (apart rfl)
  | expire written ttlSec =>
      exact world.redis.entries_expire_of_ne ttlSec (apart rfl)
  | _ => rfl

theorem redis_exec
    {call : Call} (noKey : call.writes = none) (world : World) :
    (exec call world).2.redis = world.redis := by
  cases call with
  | set key value ttlSec => cases noKey
  | del key => cases noKey
  | incr key => cases noKey
  | zadd key score member => cases noKey
  | lpush key value => cases noKey
  | expire key ttlSec => cases noKey
  | _ => rfl

/-- A call of a reader leaves Redis and the tables as they are. -/
theorem exec_readOnly
    {call : Call} (readOnly : call.ReadOnly) (world : World) :
    (exec call world).2.redis = world.redis ∧
      (exec call world).2.database = world.database := by
  cases call with
  | setViewCount id count => exact readOnly.elim
  | createComment comment => exact readOnly.elim
  | set key value ttlSec => cases readOnly
  | del key => cases readOnly
  | incr key => cases readOnly
  | zadd key score member => cases readOnly
  | lpush key value => cases readOnly
  | expire key ttlSec => cases readOnly
  | _ => exact ⟨rfl, rfl⟩

/-- Only INSERT changes the comments. -/
theorem storedCommentsOf_exec
    {call : Call} (noInsert : ∀ comment, call ≠ .createComment comment)
    (world : World) (articleId : Int) :
    (exec call world).2.database.storedCommentsOf articleId =
      world.database.storedCommentsOf articleId := by
  cases call with
  | createComment comment => exact absurd rfl (noInsert comment)
  | setViewCount id count =>
      exact world.database.storedCommentsOf_setViewCount id count articleId _
  | _ => rfl

/-- No call changes the fixed columns of the articles. -/
theorem fixed_exec (call : Call) (world : World) :
    (exec call world).2.database.articles.map Article.fixed =
      world.database.articles.map Article.fixed := by
  cases call with
  | setViewCount id count =>
      exact world.database.fixed_setViewCount id count _
  | createComment comment =>
      exact congrArg (List.map Article.fixed)
        (world.database.articles_createComment comment _ _)
  | _ => rfl

/-! ## What a program can touch -/

section Frame

variable {Value : Type} {program : Service Value}

theorem entries_run
    {key other : Text} (only : program.Asks (Call.WritesOnly key))
    (different : other ≠ key) (world : World) :
    (program.run exec world).2.redis.entries other =
      world.redis.entries other :=
  Program.run_invariant only
    (fun later =>
      later.redis.entries other = world.redis.entries other)
    (fun _ later writes same =>
      (entries_exec writes different later).trans same)
    rfl

/-- No program changes the fixed columns of the articles. -/
theorem fixed_run (program : Service Value) (world : World) :
    (program.run exec world).2.database.articles.map Article.fixed =
      world.database.articles.map Article.fixed := by
  induction program generalizing world with
  | ret value => rfl
  | throw exception => rfl
  | call request next induction =>
      exact (induction _ _).trans (fixed_exec request world)

theorem run_readOnly
    (readOnly : program.Asks Call.ReadOnly) (world : World) :
    (program.run exec world).2.redis = world.redis ∧
      (program.run exec world).2.database = world.database :=
  Program.run_invariant readOnly
    (fun later =>
      later.redis = world.redis ∧ later.database = world.database)
    (fun _ later reads same =>
      ⟨(exec_readOnly reads later).1.trans same.1,
        (exec_readOnly reads later).2.trans same.2⟩)
    ⟨rfl, rfl⟩

theorem run_keepsComments
    (keeps : program.Asks Call.KeepsComments) (world : World) :
    (program.run exec world).2.redis = world.redis ∧
      ∀ articleId,
        (program.run exec world).2.database.storedCommentsOf articleId =
          world.database.storedCommentsOf articleId :=
  Program.run_invariant keeps
    (fun later =>
      later.redis = world.redis ∧
        ∀ articleId,
          later.database.storedCommentsOf articleId =
            world.database.storedCommentsOf articleId)
    (fun _ later keeps same =>
      ⟨(redis_exec keeps.1 later).trans same.1, fun articleId =>
        (storedCommentsOf_exec keeps.2 later articleId).trans
          (same.2 articleId)⟩)
    ⟨rfl, fun _ => rfl⟩

end Frame

end LightningServer.Store
