import LightningServer.Store.World

/-!
# The article service

The view count of an article has four copies: the column `view_count`, the
counter `article:view:{id}`, the score in `hot:articles:weekly`, and the
number inside the cached detail `article:info:{id}`.  Only the detail of an
article that is not cached moves the counter and the score; the periodic
`syncViewCounts` writes the counter into the column.
-/

namespace LightningServer.Service

open LightningServer.Foundation
open LightningServer.Foundation.Numerals
open LightningServer.Store

/-- A response that is only a code and a message. -/
def failure (code : Int) (message : Text) : Json :=
  Json.ofFields
    [(text "code", .number code), (text "message", .string message)]

namespace ArticleService

/-! ## Translation of the source -/

def articleCacheKey (id : Int) : Text :=
  text "article:info:" ++ decimal id

/-- The key of the counter, from the text of an id. -/
def articleViewKey (idStr : Text) : Text :=
  text "article:view:" ++ idStr

def hotKey : Text :=
  text "hot:articles:weekly"

def articleToJson (article : Article) : Json :=
  Json.ofFields
    [(text "id", .number article.id),
      (text "title", .string article.title),
      (text "content", .string article.content),
      (text "author", .string article.author),
      (text "createTime", .string article.createTime),
      (text "updateTime", .string article.updateTime),
      (text "viewCount", .number article.viewCount)]

/-- The JSON of an article in a list. -/
def listItem (article : Article) : Json :=
  (articleToJson article).eraseField (text "content")

def listArticles (page pageSize : Int) : Service Json := do
  let page := if page < 1 then 1 else page
  let pageSize := if pageSize < 1 ∨ 50 < pageSize then 10 else pageSize
  let (articles, total) ←
    Call.perform (.getArticles page pageSize)
  pure (Json.ofFields
    [(text "code", .number 0),
      (text "data", Json.ofFields
        [(text "list", .array (articles.map listItem)),
          (text "total", .number total),
          (text "page", .number page),
          (text "pageSize", .number pageSize)])])

/-- `nlohmann::json::parse` throws on a text that is not JSON. -/
def parseOrThrow (json : JsonLibrary) (value : Text) :
    Except StdException Json :=
  match json.parse value with
  | some parsed => .ok parsed
  | none => .error (.other (text "parse_error"))

def getArticleDetail (json : JsonLibrary) (id : Int) : Service Json := do
  let cacheKey := articleCacheKey id
  let cached ← Call.perform (.get cacheKey)
  match cached with
  | some value => Program.ofExcept (parseOrThrow json value)
  | none => do
      let found ← Call.perform (.getArticleById id)
      match found with
      | none => pure (failure 404 (text "Article not found"))
      | some article => do
          let redisViews ←
            Call.perform (.incr (articleViewKey (decimal id)))
          let article :=
            { article with
              viewCount := max article.viewCount (toInt32 redisViews) }
          let _ ←
            Call.perform (.zadd hotKey (toDouble redisViews) (decimal id))
          let result :=
            Json.ofFields
              [(text "code", .number 0), (text "data", articleToJson article)]
          let _ ← Call.perform (.set cacheKey (json.dump result) 3600)
          pure result

/-- The loop of `getHotArticles` over the members of the ranking. -/
def hotLoop : List Text → List Json → Service (List Json)
  | [], list => pure list
  | idStr :: rest, list => do
      let id ← Program.ofExcept (stoi idStr)
      let found ← Call.perform (.getArticleById id)
      match found with
      | none => hotLoop rest list
      | some article => do
          let viewStr ← Call.perform (.get (articleViewKey idStr))
          match viewStr with
          | none => hotLoop rest (list ++ [listItem article])
          | some viewStr => do
              let views ← Program.ofExcept (stoi viewStr)
              let article :=
                { article with viewCount := max article.viewCount views }
              hotLoop rest (list ++ [listItem article])

/-- The list from the ranking, or from the database when it is empty. -/
def hotList (limit : Int) (hotIds : List Text) : Service (List Json) :=
  if hotIds ≠ [] then hotLoop hotIds []
  else do
    let articles ← Call.perform (.getHotArticles limit)
    pure (articles.map listItem)

def getHotArticles (limit : Int) : Service Json := do
  let limit := if limit < 1 ∨ 20 < limit then 10 else limit
  let hotIds ← Call.perform (.zrevrange hotKey 0 (limit - 1))
  let list ← hotList limit hotIds
  pure (Json.ofFields
    [(text "code", .number 0), (text "data", .array list)])

/-- The loop of `syncViewCounts` over the members of the ranking. -/
def syncLoop : List Text → Service Unit
  | [] => pure ()
  | idStr :: rest => do
      let viewStr ← Call.perform (.get (articleViewKey idStr))
      match viewStr with
      | none => syncLoop rest
      | some viewStr => do
          let id ← Program.ofExcept (stoi idStr)
          let count ← Program.ofExcept (stoi viewStr)
          let _ ← Call.perform (.setViewCount id count)
          syncLoop rest

def syncViewCounts : Service Unit := do
  let hotIds ← Call.perform (.zrevrange hotKey 0 99)
  syncLoop hotIds

/-! ## Keys -/

theorem articleViewKey_injective : Function.Injective articleViewKey :=
  fun _ _ equal => List.append_cancel_left equal

theorem articleCacheKey_injective : Function.Injective articleCacheKey :=
  fun _ _ equal => decimal_injective (List.append_cancel_left equal)

theorem articleCacheKey_ne_articleViewKey (id : Int) (idStr : Text) :
    articleCacheKey id ≠ articleViewKey idStr := by
  intro equal
  have prefixes := congrArg (List.take 9) equal
  simp [articleCacheKey, articleViewKey, text] at prefixes

theorem articleCacheKey_ne_hotKey (id : Int) :
    articleCacheKey id ≠ hotKey := by
  intro equal
  have prefixes := congrArg List.head? equal
  simp [articleCacheKey, hotKey, text] at prefixes

theorem articleViewKey_ne_hotKey (idStr : Text) :
    articleViewKey idStr ≠ hotKey := by
  intro equal
  have prefixes := congrArg List.head? equal
  simp [articleViewKey, hotKey, text] at prefixes

/-! ## What each function can do -/

/-- A function of the service that answers without writing anything. -/
theorem listArticles_readOnly (page pageSize : Int) :
    (listArticles page pageSize).Asks Call.ReadOnly := by
  refine Program.asks_perform_bind (by rfl) fun reply => ?_
  trivial

theorem hotLoop_readOnly (hotIds : List Text) (list : List Json) :
    (hotLoop hotIds list).Asks Call.ReadOnly := by
  induction hotIds generalizing list with
  | nil => trivial
  | cons idStr rest induction =>
      apply Program.asks_bind (Program.asks_ofExcept _)
      intro id
      refine Program.asks_perform_bind (by rfl) fun found => ?_
      cases found with
      | none => exact induction list
      | some article =>
          refine Program.asks_perform_bind (by rfl) fun viewStr => ?_
          cases viewStr with
          | none => exact induction _
          | some viewStr =>
              apply Program.asks_bind (Program.asks_ofExcept _)
              intro views
              exact induction _

theorem hotList_readOnly (limit : Int) (hotIds : List Text) :
    (hotList limit hotIds).Asks Call.ReadOnly := by
  unfold hotList
  split
  · exact hotLoop_readOnly hotIds []
  · refine Program.asks_perform_bind (by rfl) fun articles => ?_
    trivial

theorem getHotArticles_readOnly (limit : Int) :
    (getHotArticles limit).Asks Call.ReadOnly := by
  refine Program.asks_perform_bind (by rfl) fun hotIds => ?_
  apply Program.asks_bind (hotList_readOnly _ hotIds)
  intro list
  trivial

/-- What the detail of an article that is not cached does to Redis. -/
def visit (json : JsonLibrary) (article : Article) (redis : Redis) :
    Redis :=
  let views := redis.incr (articleViewKey (decimal article.id))
  let ranked := views.2.zadd hotKey (toDouble views.1) (decimal article.id)
  (ranked.2.set (articleCacheKey article.id)
    (json.dump (Json.ofFields
      [(text "code", .number 0),
        (text "data", articleToJson
          { article with
            viewCount := max article.viewCount (toInt32 views.1) })]))
    3600).2

/-- The response with an article. -/
def detailResponse (article : Article) : Json :=
  Json.ofFields
    [(text "code", .number 0), (text "data", articleToJson article)]

section Detail

variable (json : JsonLibrary) {id : Int} {world : World}

theorem run_getArticleDetail_hit
    {value : Text}
    (hit : world.redis.get (articleCacheKey id) = some value) :
    (getArticleDetail json id).run exec world =
      (parseOrThrow json value, world) := by
  simp only [getArticleDetail, Program.perform_bind, Program.run_call,
    exec, hit]
  cases parseOrThrow json value with
  | ok parsed => rfl
  | error exception => rfl

theorem run_getArticleDetail_absent
    (miss : world.redis.get (articleCacheKey id) = none)
    (absent : world.database.getArticleById id = none) :
    (getArticleDetail json id).run exec world =
      (.ok (failure 404 (text "Article not found")), world) := by
  simp only [getArticleDetail, Program.perform_bind, Program.run_call,
    exec, miss, absent]
  rfl

theorem run_getArticleDetail_miss
    (miss : world.redis.get (articleCacheKey id) = none)
    {article : Article}
    (found : world.database.getArticleById id = some article) :
    (getArticleDetail json id).run exec world =
      (.ok (detailResponse
        { article with
          viewCount :=
            max article.viewCount
              (toInt32
                (world.redis.incr (articleViewKey (decimal id))).1) }),
        { world with redis := visit json article world.redis }) := by
  have same := (Database.getArticleById_eq_some found).2
  simp only [getArticleDetail, Program.perform_bind, Program.run_call,
    exec, miss, found]
  subst same
  rfl

/-- A detail leaves the world as it is, or visits the article. -/
theorem getArticleDetail_effect (id : Int) (world : World) :
    ((getArticleDetail json id).run exec world).2 = world ∨
      ∃ article,
        world.database.getArticleById id = some article ∧
          ((getArticleDetail json id).run exec world).2 =
            { world with redis := visit json article world.redis } := by
  cases cached : world.redis.get (articleCacheKey id) with
  | some value =>
      left
      rw [run_getArticleDetail_hit json cached]
  | none =>
      cases found : world.database.getArticleById id with
      | none =>
          left
          rw [run_getArticleDetail_absent json cached found]
      | some article =>
          right
          refine ⟨article, rfl, ?_⟩
          rw [run_getArticleDetail_miss json cached found]

end Detail

end ArticleService

end LightningServer.Service
