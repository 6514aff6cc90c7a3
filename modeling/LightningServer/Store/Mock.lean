import LightningServer.Store.World

/-!
# The mock build

Without MySQL and Redis the proxies answer from containers of the process:
the database from fixed rows that no statement changes, the cache from one
map of strings and one of counters.  The calls are those of `Call`, so the
services run against `mockExec` as they run against `exec`.
-/

namespace LightningServer.Store

open LightningServer.Foundation
open LightningServer.Foundation.Numerals

/-! ## The cache -/

structure MockCache where
  /-- `mockStore` -/
  store : Text → Option Text
  /-- `mockCounters`, whose `operator[]` starts a counter at 0 -/
  counters : Text → Int

namespace MockCache

def empty : MockCache where
  store := fun _ => none
  counters := fun _ => 0

def put (cache : MockCache) (key : Text) (value : Option Text) :
    MockCache :=
  { cache with
    store := fun other => if other = key then value else cache.store other }

@[simp]
theorem store_put_self
    (cache : MockCache) (key : Text) (value : Option Text) :
    (cache.put key value).store key = value :=
  if_pos rfl

theorem store_put_of_ne
    (cache : MockCache) {key other : Text} (value : Option Text)
    (different : other ≠ key) :
    (cache.put key value).store other = cache.store other :=
  if_neg different

/-! ## Translation of the source -/

def get (cache : MockCache) (key : Text) : Option Text :=
  cache.store key

def set (cache : MockCache) (key value : Text) : Bool × MockCache :=
  (true, cache.put key (some value))

def del (cache : MockCache) (key : Text) : Bool × MockCache :=
  ((cache.store key).isSome, cache.put key none)

def incr (cache : MockCache) (key : Text) : Int × MockCache :=
  (cache.counters key + 1,
    { cache with
      counters := fun other =>
        if other = key then cache.counters key + 1
        else cache.counters other })

def zadd (cache : MockCache) : Bool × MockCache :=
  (true, cache)

def zrevrange : List Text :=
  []

/-- The new value is put in front of what is there. -/
def lpush (cache : MockCache) (key value : Text) : Bool × MockCache :=
  (true, cache.put key (some (value ++ (cache.store key).getD [])))

/-- All that is there, as one element. -/
def lrange (cache : MockCache) (key : Text) : List Text :=
  (cache.store key).toList

def expire (cache : MockCache) : Bool × MockCache :=
  (true, cache)

end MockCache

/-! ## The database and the calls -/

structure MockWorld where
  cache : MockCache
  /-- `mockArticles()` -/
  articles : List Article
  /-- `mockComments()` -/
  comments : List Comment
  /-- how often the clock has been read -/
  ticks : Nat
  /-- the time at each reading -/
  clock : Nat → Text

namespace MockWorld

def onCache {Value : Type} (world : MockWorld)
    (result : Value × MockCache) : Value × MockWorld :=
  (result.1, { world with cache := result.2 })

/-- The bounds of the slice, `int`s; none for a page past the end. -/
def sliceBounds (page pageSize total : Int) : Option (Int × Int) :=
  let offset := toInt32 ((page - 1) * pageSize)
  if total ≤ offset then none
  else some (offset, min (toInt32 (offset + pageSize)) total)

/-- The slice is undefined behaviour outside `0 ≤ offset ≤ stop ≤ total`. -/
def getArticles (world : MockWorld) (page pageSize : Int) :
    List Article × Int :=
  let total := toInt32 world.articles.length
  match sliceBounds page pageSize total with
  | none => ([], total)
  | some (offset, stop) =>
      ((world.articles.drop offset.toNat).take (stop - offset).toNat, total)

def commentsOf (world : MockWorld) (articleId : Int) : List Comment :=
  world.comments.filter fun comment => comment.articleId = articleId

def getCommentsByArticleId (world : MockWorld) (articleId limit : Int) :
    List Comment :=
  let result := world.commentsOf articleId
  if limit < result.length then result.take limit.toNat else result

/-- `std::sort` by views; articles with equal views keep their order here. -/
def getHotArticles (world : MockWorld) (limit : Int) : List Article :=
  let all :=
    world.articles.insertionSort fun left right =>
      right.viewCount ≤ left.viewCount
  if limit < all.length then all.take limit.toNat else all

end MockWorld

/-- The effect of a call in the mock build. -/
def mockExec : (call : Call) → MockWorld → call.Reply × MockWorld
  | .get key, world => (world.cache.get key, world)
  | .set key value _, world => world.onCache (world.cache.set key value)
  | .del key, world => world.onCache (world.cache.del key)
  | .incr key, world => world.onCache (world.cache.incr key)
  | .zadd _ _ _, world => world.onCache world.cache.zadd
  | .zrevrange _ _ _, world => (MockCache.zrevrange, world)
  | .lpush key value, world => world.onCache (world.cache.lpush key value)
  | .lrange key _ _, world => (world.cache.lrange key, world)
  | .expire _ _, world => world.onCache world.cache.expire
  | .getArticles page pageSize, world =>
      (world.getArticles page pageSize, world)
  | .getArticleById id, world =>
      (world.articles.find? fun article => article.id = id, world)
  | .setViewCount _ _, world => (true, world)
  | .getCommentsByArticleId articleId limit, world =>
      (world.getCommentsByArticleId articleId limit, world)
  | .createComment _, world => (true, world)
  | .getCommentCount articleId, world =>
      (((world.commentsOf articleId).length : Int), world)
  | .getHotArticles limit, world => (world.getHotArticles limit, world)
  | .localTime, world =>
      (world.clock world.ticks, { world with ticks := world.ticks + 1 })

end LightningServer.Store
