import LightningServer.Store.Driver

/-!
# The operations of the two proxies

Each operation of `DatabaseProxy` and `CacheProxy`, as it takes, uses and
releases its connection.  No guard object gives a connection back: every
path of an operation has its own release, and an exception of a numeric
conversion skips it.
-/

namespace LightningServer.Store

open LightningServer.Foundation
open LightningServer.Foundation.Numerals

/-! ## `DatabaseProxy` -/

namespace DatabaseProxy

/-- Nothing, if no connection comes within the timeout. -/
def acquireConnection : Driver (Option Connection) :=
  .perform (Access.waitFor Server.mysql)

def releaseConnection (conn : Connection) : Driver Unit :=
  .perform (Access.release Server.mysql conn)

/-- `mysql_query` and `mysql_store_result` -/
def query (conn : Connection) (statement : Statement) :
    Driver (Option (List Row)) :=
  .perform (Access.use Server.mysql conn (Query.statement statement))

/-- An INSERT or UPDATE. -/
def update (statement : Statement) : Driver Bool := do
  match ← acquireConnection with
  | none => return false
  | some conn =>
      let result ← query conn statement
      releaseConnection conn
      return result.isSome

/-- A SELECT of any number of rows. -/
def select {Value : Type} (statement : Statement)
    (read : Row → Except StdException Value) : Driver (List Value) := do
  match ← acquireConnection with
  | none => return []
  | some conn =>
      match ← query conn statement with
      | none =>
          releaseConnection conn
          return []
      | some result =>
          let values ← .ofExcept (result.mapM read)
          releaseConnection conn
          return values

/-- The offset that `getArticles` computes, an `int`. -/
def pageOffset (page pageSize : Int) : Int :=
  toInt32 ((page - 1) * pageSize)

/-- The articles of a page, and `total`, which the caller has set before. -/
def getArticles (page pageSize total : Int) :
    Driver (List Article × Int) := do
  match ← acquireConnection with
  | none => return ([], total)
  | some conn =>
      match ← query conn .countArticles with
      | none =>
          releaseConnection conn
          return ([], total)
      | some countRes =>
          let total ← .ofExcept (countOf countRes)
          let offset := pageOffset page pageSize
          match ← query conn (.selectArticles pageSize offset) with
          | none =>
              releaseConnection conn
              return ([], total)
          | some result =>
              let articles ← .ofExcept (result.mapM Row.article)
              releaseConnection conn
              return (articles, total)

def getArticleById (id : Int) : Driver (Option Article) := do
  match ← acquireConnection with
  | none => return none
  | some conn =>
      match ← query conn (.selectArticle id) with
      | none =>
          releaseConnection conn
          return none
      | some result =>
          let article ← .ofExcept (result.head?.mapM Row.article)
          releaseConnection conn
          return article

def createArticle (article : Article) : Driver Bool :=
  update (.insertArticle article)

def incrementViewCount (id delta : Int) : Driver Bool :=
  update (.addViewCount id delta)

def setViewCount (id count : Int) : Driver Bool :=
  update (.setViewCount id count)

def getCommentsByArticleId (articleId limit : Int) :
    Driver (List Comment) :=
  select (.selectComments articleId limit) Row.comment

def createComment (comment : Comment) : Driver Bool :=
  update (.insertComment comment)

def getCommentCount (articleId : Int) : Driver Int := do
  match ← acquireConnection with
  | none => return 0
  | some conn =>
      -- an error is not looked at: there is no result then, and no row
      let result ← query conn (.countComments articleId)
      let count ← .ofExcept (countOf (result.getD []))
      releaseConnection conn
      return count

def getHotArticles (limit : Int) : Driver (List Article) :=
  select (.selectHotArticles limit) Row.article

end DatabaseProxy

/-! ## `CacheProxy` -/

namespace CacheProxy

/-- Waits for a connection, however long it takes. -/
def acquireConnection : Driver Connection :=
  .perform (Access.wait Server.redis)

def releaseConnection (conn : Connection) : Driver Unit :=
  .perform (Access.release Server.redis conn)

def redisCommand (conn : Connection) (command : Command) :
    Driver (Option RedisReply) :=
  .perform (Access.use Server.redis conn (Query.command command))

/-- One command, and what is read from its reply. -/
def send {Value : Type} (command : Command)
    (read : Option RedisReply → Value) : Driver Value := do
  let conn ← acquireConnection
  let reply ← redisCommand conn command
  releaseConnection conn
  return read reply

def get (key : Text) : Driver (Option Text) :=
  send (.get key) fun
    | some (.string value) => some value
    | _ => none

def set (key value : Text) (ttlSec : Int) : Driver Bool :=
  send
    (if 0 < ttlSec then .setex key ttlSec value else .set key value)
    fun reply => reply = some .status

def del (key : Text) : Driver Bool :=
  send (.del key) fun reply =>
    reply.any fun found => 0 < found.asInteger

def incr (key : Text) : Driver Int :=
  send (.incr key) fun
    | some reply => reply.asInteger
    | none => 0

def zadd (key : Text) (score : Int) (member : Text) : Driver Bool :=
  send (.zadd key score member) Option.isSome

def zrevrange (key : Text) (start stop : Int) : Driver (List Text) :=
  send (.zrevrange key start stop) fun
    | some (.array elements) => elements
    | _ => []

def lpush (key value : Text) : Driver Bool :=
  send (.lpush key value) Option.isSome

def lrange (key : Text) (start stop : Int) : Driver (List Text) :=
  send (.lrange key start stop) fun
    | some (.array elements) => elements
    | _ => []

def expire (key : Text) (ttlSec : Int) : Driver Bool :=
  send (.expire key ttlSec) fun reply =>
    reply.any fun found => found.asInteger = 1

end CacheProxy

/-! ## All operations -/

/-- A call of the services, as its proxy makes it. -/
def Call.driver : (call : Call) → call ≠ .localTime → Driver call.Reply
  | .get key, _ => CacheProxy.get key
  | .set key value ttlSec, _ => CacheProxy.set key value ttlSec
  | .del key, _ => CacheProxy.del key
  | .incr key, _ => CacheProxy.incr key
  | .zadd key score member, _ => CacheProxy.zadd key score member
  | .zrevrange key start stop, _ => CacheProxy.zrevrange key start stop
  | .lpush key value, _ => CacheProxy.lpush key value
  | .lrange key start stop, _ => CacheProxy.lrange key start stop
  | .expire key ttlSec, _ => CacheProxy.expire key ttlSec
  | .getArticles page pageSize, _ =>
      DatabaseProxy.getArticles page pageSize 0
  | .getArticleById id, _ => DatabaseProxy.getArticleById id
  | .setViewCount id count, _ => DatabaseProxy.setViewCount id count
  | .getCommentsByArticleId articleId limit, _ =>
      DatabaseProxy.getCommentsByArticleId articleId limit
  | .createComment comment, _ => DatabaseProxy.createComment comment
  | .getCommentCount articleId, _ =>
      DatabaseProxy.getCommentCount articleId
  | .getHotArticles limit, _ => DatabaseProxy.getHotArticles limit
  | .localTime, proxied => absurd rfl proxied

/-- A call of a proxy, or an operation that no service calls. -/
inductive Operation where
  | service (call : Call) (proxied : call ≠ .localTime)
  | createArticle (article : Article)
  | incrementViewCount (id delta : Int)

@[reducible]
def Operation.Reply : Operation → Type
  | .service call _ => call.Reply
  | .createArticle _ => Bool
  | .incrementViewCount _ _ => Bool

def Operation.driver : (operation : Operation) → Driver operation.Reply
  | .service call proxied => call.driver proxied
  | .createArticle article => DatabaseProxy.createArticle article
  | .incrementViewCount id delta =>
      DatabaseProxy.incrementViewCount id delta

/-! ## The discipline of the operations -/

section Returns

variable {Value : Type}

theorem lacks_of_nil {Kind Item : Type} (kind : Kind) :
    ∀ loan ∈ ([] : List (Kind × Item)), loan.1 ≠ kind :=
  fun _ impossible => absurd impossible List.not_mem_nil

namespace DatabaseProxy

/-- Code that acquires a connection and keeps the discipline with it. -/
theorem returns_acquire
    {next : Option Connection → Driver Value}
    (without : (next none).Returns [])
    (later : ∀ conn, (next (some conn)).Returns [(.mysql, conn)]) :
    (acquireConnection >>= next).Returns [] :=
  Program.returns_waitFor_bind (lacks_of_nil _) without later

theorem returns_query
    {conn : Connection} {statement : Statement}
    {next : Option (List Row) → Driver Value}
    (later : ∀ result, (next result).Returns [(.mysql, conn)]) :
    (query conn statement >>= next).Returns [(.mysql, conn)] :=
  Program.returns_use_bind (List.mem_singleton.mpr rfl) later

/-- A release, and what is returned after it. -/
theorem returns_release (conn : Connection) (value : Value) :
    (releaseConnection conn >>= fun _ => pure value).Returns
      [(.mysql, conn)] :=
  Program.returns_release_bind (List.mem_singleton.mpr rfl)
    (List.erase_cons_head ..)

theorem returns_update (statement : Statement) :
    (update statement).Returns [] := by
  apply returns_acquire
  · rfl
  · intro conn
    exact returns_query fun result => returns_release conn _

theorem returns_select
    (statement : Statement) (read : Row → Except StdException Value) :
    (select statement read).Returns [] := by
  apply returns_acquire
  · rfl
  · intro conn
    apply returns_query
    intro answer
    cases answer with
    | none => exact returns_release conn _
    | some result =>
        exact Program.returns_ofExcept_bind
          fun values => returns_release conn _

theorem returns_getArticles (page pageSize total : Int) :
    (getArticles page pageSize total).Returns [] := by
  apply returns_acquire
  · rfl
  · intro conn
    apply returns_query
    intro counted
    cases counted with
    | none => exact returns_release conn _
    | some countRes =>
        apply Program.returns_ofExcept_bind
        intro total
        apply returns_query
        intro answer
        cases answer with
        | none => exact returns_release conn _
        | some result =>
            exact Program.returns_ofExcept_bind
              fun articles => returns_release conn _

theorem returns_getArticleById (id : Int) :
    (getArticleById id).Returns [] := by
  apply returns_acquire
  · rfl
  · intro conn
    apply returns_query
    intro answer
    cases answer with
    | none => exact returns_release conn _
    | some result =>
        exact Program.returns_ofExcept_bind
          fun article => returns_release conn _

theorem returns_getCommentCount (articleId : Int) :
    (getCommentCount articleId).Returns [] := by
  apply returns_acquire
  · rfl
  · intro conn
    apply returns_query
    intro result
    exact Program.returns_ofExcept_bind
      fun count => returns_release conn _

end DatabaseProxy

theorem CacheProxy.returns_send
    (command : Command) (read : Option RedisReply → Value) :
    (CacheProxy.send command read).Returns [] := by
  apply Program.returns_wait_bind (lacks_of_nil _)
  intro conn
  apply Program.returns_use_bind (List.mem_singleton.mpr rfl)
  intro reply
  exact Program.returns_release_bind (List.mem_singleton.mpr rfl)
    (List.erase_cons_head ..)

/-- Every operation releases what it has acquired, on every path. -/
theorem Operation.returns_driver (operation : Operation) :
    operation.driver.Returns [] := by
  cases operation with
  | createArticle article => exact DatabaseProxy.returns_update _
  | incrementViewCount id delta => exact DatabaseProxy.returns_update _
  | service call proxied =>
      cases call with
      | localTime => exact absurd rfl proxied
      | getArticles page pageSize =>
          exact DatabaseProxy.returns_getArticles page pageSize 0
      | getArticleById id => exact DatabaseProxy.returns_getArticleById id
      | setViewCount id count => exact DatabaseProxy.returns_update _
      | getCommentsByArticleId articleId limit =>
          exact DatabaseProxy.returns_select _ _
      | createComment comment => exact DatabaseProxy.returns_update _
      | getCommentCount articleId =>
          exact DatabaseProxy.returns_getCommentCount articleId
      | getHotArticles limit => exact DatabaseProxy.returns_select _ _
      | _ => exact CacheProxy.returns_send _ _

end Returns

end LightningServer.Store
