import LightningServer.Foundation.Lending
import LightningServer.Store.World

/-!
# What the proxies send to their servers

Below a `Call`, a proxy takes a connection from the pool of its server, sends
statements or commands over it, and reads rows or replies.  The text of a
statement is left out: each kind of statement is a constructor with the
values that the proxy puts into it.

`Statement.execute` and `Command.execute` are what the servers do, on the
tables and the keyspace of a `World`.
-/

namespace LightningServer.Store

open LightningServer.Foundation
open LightningServer.Foundation.Numerals

/-! ## Requests and replies -/

/-- The two servers, each with a pool of connections. -/
inductive Server where
  | mysql
  | redis
deriving DecidableEq

inductive Statement where
  | countArticles
  | selectArticles (pageSize offset : Int)
  | selectArticle (id : Int)
  | insertArticle (article : Article)
  | addViewCount (id delta : Int)
  | setViewCount (id count : Int)
  | selectComments (articleId limit : Int)
  | insertComment (comment : Comment)
  | countComments (articleId : Int)
  | selectHotArticles (limit : Int)
deriving DecidableEq

/-- `MYSQL_ROW`: the text of each column, or NULL. -/
abbrev Row :=
  List (Option Text)

inductive Command where
  | get (key : Text)
  | setex (key : Text) (ttlSec : Int) (value : Text)
  | set (key value : Text)
  | del (key : Text)
  | incr (key : Text)
  | zadd (key : Text) (score : Int) (member : Text)
  | zrevrange (key : Text) (start stop : Int)
  | lpush (key value : Text)
  | lrange (key : Text) (start stop : Int)
  | expire (key : Text) (ttlSec : Int)
deriving DecidableEq

/-- `redisReply`, by its `type`. -/
inductive RedisReply where
  | string (value : Text)
  | status
  | integer (value : Int)
  | array (elements : List Text)
  | nil
  | error
deriving DecidableEq

/-- The field `integer`, which is 0 in a reply of another type. -/
def RedisReply.asInteger : RedisReply → Int
  | .integer value => value
  | _ => 0

inductive Query where
  | statement (statement : Statement)
  | command (command : Command)
deriving DecidableEq

/-- The rows, or a query error; the reply, or a null pointer. -/
@[reducible]
def Query.Answer : Query → Type
  | .statement _ => Option (List Row)
  | .command _ => Option RedisReply

/-- A connection, by its number in the pool's first content. -/
abbrev Connection :=
  Nat

/-- The code of a proxy. -/
abbrev Driver (Value : Type) :=
  Borrower Server Connection Query.Answer StdException Value

/-! ## Rows -/

namespace Row

/-- `row[index]` -/
def column (row : Row) (index : Nat) : Option Text :=
  row[index]?.join

/-- `row[index] ? row[index] : ""`, a C string -/
def textAt (row : Row) (index : Nat) : Text :=
  cString ((row.column index).getD [])

/-- The same for a `DATETIME`, whose text holds no NUL. -/
def dateTimeAt (row : Row) (index : Nat) : Text :=
  (row.column index).getD []

/-- `std::stoi(row[index])`; a null pointer is no text. -/
def numberAt (row : Row) (index : Nat) : Except StdException Int :=
  match row.column index with
  | none =>
      .error (.other (text
        "basic_string: construction from null is not valid"))
  | some digits => stoi digits

/-- An article, as three of the queries read it. -/
def article (row : Row) : Except StdException Article := do
  let id ← row.numberAt 0
  let viewCount ←
    match row.column 6 with
    | none => pure 0
    | some digits => stoi digits
  return {
    id := id
    title := row.textAt 1
    content := row.textAt 2
    author := row.textAt 3
    createTime := row.dateTimeAt 4
    updateTime := row.dateTimeAt 5
    viewCount := viewCount }

def comment (row : Row) : Except StdException Comment := do
  let id ← row.numberAt 0
  let articleId ← row.numberAt 1
  return {
    id := id
    articleId := articleId
    content := row.textAt 2
    commenter := row.textAt 3
    createTime := row.dateTimeAt 4 }

end Row

/-- The only row of `COUNT(*)`. -/
def countOf : List Row → Except StdException Int
  | [] => .ok 0
  | row :: _ => row.numberAt 0

/-! ## The servers -/

/-- The columns that the queries select. -/
def Article.row (article : Article) : Row :=
  [some (decimal article.id), some article.title, some article.content,
    some article.author, some article.createTime, some article.updateTime,
    some (decimal article.viewCount)]

def Comment.row (comment : Comment) : Row :=
  [some (decimal comment.id), some (decimal comment.articleId),
    some comment.content, some comment.commenter, some comment.createTime]

theorem Row.article_row
    {article : Article}
    (fits : IsInt article.id ∧ IsInt article.viewCount) :
    article.row.article = .ok article.received := by
  have id : Row.numberAt article.row 0 = .ok article.id :=
    (stoi_decimal article.id).trans (if_pos fits.1)
  have views : stoi (decimal article.viewCount) = .ok article.viewCount :=
    (stoi_decimal article.viewCount).trans (if_pos fits.2)
  have column :
      Row.column article.row 6 = some (decimal article.viewCount) :=
    rfl
  rw [Row.article, id, column]
  show (stoi (decimal article.viewCount) >>= fun _ => _) = _
  rw [views]
  rfl

theorem Row.comment_row
    {comment : Comment}
    (fits : IsInt comment.id ∧ IsInt comment.articleId) :
    comment.row.comment = .ok comment.received := by
  have id : Row.numberAt comment.row 0 = .ok comment.id :=
    (stoi_decimal comment.id).trans (if_pos fits.1)
  have articleId :
      Row.numberAt comment.row 1 = .ok comment.articleId :=
    (stoi_decimal comment.articleId).trans (if_pos fits.2)
  rw [Row.comment, id]
  show (Row.numberAt comment.row 1 >>= fun _ => _) = _
  rw [articleId]
  rfl

/-- Rows that are read one by one. -/
theorem mapM_rows
    {Value : Type} {render : Value → Row} {receive : Value → Value}
    {read : Row → Except StdException Value} {values : List Value}
    (each :
      ∀ value ∈ values, read (render value) = .ok (receive value)) :
    (values.map render).mapM read = .ok (values.map receive) := by
  induction values with
  | nil => rfl
  | cons value rest induction =>
      rw [List.forall_mem_cons] at each
      rw [List.map_cons, List.mapM_cons, each.1, induction each.2]
      rfl

/-- The articles in the order of the list, from a row on. -/
def Database.selectArticles (database : Database)
    (pageSize offset : Int) : Option (List Row) :=
  -- a negative LIMIT or OFFSET is a syntax error
  if offset < 0 ∨ pageSize < 0 then none
  else
    some ((database.storedPage pageSize offset).map Article.row)

def Database.selectArticle (database : Database) (id : Int) :
    List Row :=
  (database.storedArticles.filter fun article => article.id = id).map
    Article.row

/-- The comments of an article, newest first. -/
def Database.selectComments (database : Database)
    (articleId limit : Int) : Option (List Row) :=
  -- so is a negative LIMIT alone
  if limit < 0 then none
  else
    some
      (((database.storedCommentsOf articleId).take limit.toNat).map
        Comment.row)

def Database.countComments (database : Database) (articleId : Int) : Nat :=
  (database.storedComments.filter fun comment =>
    comment.articleId = articleId).length

def Database.selectHotArticles (database : Database) (limit : Int) :
    Option (List Row) :=
  if limit < 0 then none
  else
    some ((database.storedHotArticles limit).map Article.row)

/-- The result of a statement without rows. -/
def World.onUpdate (world : World) (result : Bool × Database) :
    Option (List Row) × World :=
  let (ok, later) := world.onDatabase result
  (if ok then some [] else none, later)

/--
What MySQL does with a statement.  The two statements that no service sends
are left to `unsent`.
-/
def Statement.execute
    (unsent : Statement → World → Option (List Row) × World) :
    Statement → World → Option (List Row) × World
  | .countArticles, world =>
      (some [[some (decimal world.database.storedArticles.length)]],
        world)
  | .selectArticles pageSize offset, world =>
      (world.database.selectArticles pageSize offset, world)
  | .selectArticle id, world =>
      (some (world.database.selectArticle id), world)
  | .setViewCount id count, world =>
      world.onUpdate (world.database.setViewCount id count world.now)
  | .selectComments articleId limit, world =>
      (world.database.selectComments articleId limit, world)
  | .insertComment comment, world =>
      world.onUpdate
        (world.database.createComment comment
          (world.accepts world.ticks) world.now)
  | .countComments articleId, world =>
      (some [[some (decimal (world.database.countComments articleId))]],
        world)
  | .selectHotArticles limit, world =>
      (world.database.selectHotArticles limit, world)
  | statement, world => unsent statement world

/--
What Redis does with a command.  The proxy only tests the replies of ZADD and
LPUSH for their presence; their number is not computed.
-/
def Command.execute : Command → Redis → RedisReply × Redis
  | .get key, redis =>
      match redis.get key with
      | some value => (.string value, redis)
      | none => (.nil, redis)
  | .setex key ttlSec value, redis =>
      (.status, (redis.set key value ttlSec).2)
  | .set key value, redis => (.status, (redis.set key value 0).2)
  | .del key, redis =>
      (.integer (if (redis.del key).1 then 1 else 0), (redis.del key).2)
  | .incr key, redis => (.integer (redis.incr key).1, (redis.incr key).2)
  | .zadd key score member, redis =>
      (.integer 0, (redis.zadd key score member).2)
  | .zrevrange key start stop, redis =>
      (.array (redis.zrevrange key start stop), redis)
  | .lpush key value, redis => (.integer 0, (redis.lpush key value).2)
  | .lrange key start stop, redis =>
      (.array (redis.lrange key start stop), redis)
  | .expire key ttlSec, redis =>
      (.integer (if (redis.expire key ttlSec).1 then 1 else 0),
        (redis.expire key ttlSec).2)

end LightningServer.Store
