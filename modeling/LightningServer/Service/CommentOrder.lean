import LightningServer.Foundation.JsonParser
import LightningServer.Service.CommentCache

/-!
# The order in which comments are served

MySQL returns an article's comments newest first.  The fill pushes them in
that order, so the Redis list starts with the oldest of them, and a response
served from it is in the opposite order: the same request is answered newest
first when the list is absent and oldest first afterwards.
-/

namespace LightningServer.Service

open LightningServer.Foundation
open LightningServer.Foundation.Numerals
open LightningServer.Store
open LightningServer.Service.CommentService

/-! ## Reading a response -/

/-- The entries of `data.list`. -/
def responseList (response : Json) : List Json :=
  (((response.field? (text "data")).bind
    fun data => data.field? (text "list")).map Json.items).getD []

/-- The creation time of an entry. -/
def createTime? (item : Json) : Option Text :=
  (item.field? (text "createTime")).bind Json.string?

/-- The creation times of a response, in its order. -/
def createTimes (response : Json) : List Text :=
  (responseList response).filterMap createTime?

@[simp]
theorem responseList_commentsResponse
    (list : List Json) (total : Int) :
    responseList (commentsResponse list total) = list := by
  rfl

@[simp]
theorem createTime?_commentToJson (comment : Comment) :
    createTime? (commentToJson comment) = some comment.createTime := by
  rfl

theorem createTimes_commentsResponse
    (comments : List Comment) (total : Int) :
    createTimes (commentsResponse (comments.map commentToJson) total) =
      comments.map Comment.createTime := by
  rw [createTimes, responseList_commentsResponse, List.filterMap_map]
  have each :
      createTime? ∘ commentToJson = some ∘ Comment.createTime := by
    ext comment : 1
    exact createTime?_commentToJson comment
  rw [each, List.filterMap_eq_map]

/-- The request returns, and its list is strictly newest first. -/
def NewestFirst : Except StdException Json → Prop
  | .ok response =>
      (createTimes response).Pairwise (fun left right => right < left)
  | .error _ => False

/-! ## The two orders -/

theorem pairwise_commentsOf
    {database : Database} {articleId : Int}
    (distinct :
      ((database.commentsOf articleId).map Comment.createTime).Nodup) :
    (database.commentsOf articleId).Pairwise
      fun left right => right.createTime < left.createTime :=
  pairwise_orderBy_of_distinct
    (((perm_orderBy _ _ _).map Comment.createTime).nodup_iff.mp distinct)

/-- A list that is sorted both ways has at most one element. -/
theorem pairwise_reverse_order_iff
    {Row : Type} {before : Row → Row → Prop}
    (asymmetric : ∀ left right, before left right → ¬ before right left)
    {rows : List Row} (sorted : rows.Pairwise before) :
    rows.Pairwise (fun left right => before right left) ↔
      rows.length ≤ 1 := by
  cases rows with
  | nil => simp
  | cons row rest =>
      cases rest with
      | nil => simp
      | cons second others =>
          have ordered := (List.pairwise_cons.mp sorted).1 second
            List.mem_cons_self
          constructor
          · intro opposite
            have reversed := (List.pairwise_cons.mp opposite).1 second
              List.mem_cons_self
            exact absurd reversed (asymmetric row second ordered)
          · intro short
            simp at short

/--
In every reachable state, a request is answered strictly newest first if and
only if Redis has at most one of the entries it asks for.
-/
theorem getComments_newestFirst_iff
    (json : JsonLibrary) (database : Database) (clock : Nat → Text)
    (accepts : Nat → Bool) (events : List Event) (articleId limit : Int)
    (distinct :
      (((runFrom json database clock accepts events).database.commentsOf
        articleId).map Comment.createTime).Nodup) :
    let world := runFrom json database clock accepts events
    NewestFirst ((getComments json articleId limit).run exec world).1 ↔
      (world.redis.lrange (commentListKey articleId) 0
        (clampLimit limit - 1)).length ≤ 1 := by
  intro world
  have newest := pairwise_commentsOf distinct
  have shape : CacheShape json world articleId :=
    cacheShape_runFrom json database clock accepts events articleId
  rcases shape with absent | ⟨count, holds⟩
  · -- served from the database
    have served :
        (getComments json articleId limit).run exec world = _ :=
      run_getComments_miss json (cachedItems_of_absent json absent limit)
    have nothing :
        world.redis.lrange (commentListKey articleId) 0
          (clampLimit limit - 1) = [] := by
      simp [Redis.lrange, absent]
    rw [served, nothing]
    constructor
    · intro _
      exact Nat.zero_le 1
    · intro _
      rw [NewestFirst, createTimes_commentsResponse, List.pairwise_map]
      exact newest.sublist (List.take_sublist _ _)
  · -- served from Redis, where the oldest comes first
    have served :
        (getComments json articleId limit).run exec world = _ :=
      run_getComments_hit json (cachedItems_nonempty json holds limit)
    have oldest :
        (((world.database.commentsOf articleId).take count).reverse.take
            (clampLimit limit).toNat).Pairwise
          fun left right => left.createTime < right.createTime :=
      ((List.pairwise_reverse.mpr
        (newest.sublist (List.take_sublist count _))).sublist
          (List.take_sublist _ _))
    rw [served, NewestFirst, cachedItems_of_holdsReversed json holds,
      createTimes_commentsResponse, List.pairwise_map,
      lrange_of_holdsReversed json holds, List.length_map]
    exact pairwise_reverse_order_iff
      (fun _ _ before after => lt_asymm before after) oldest

/-! ## Two comments -/

/-- An article with two comments. -/
def twoComments : Database where
  storedArticles := [{ id := 1 }]
  storedComments :=
    [{ id := 1, articleId := 1, createTime := text "2026-06-01 12:00:00" },
      { id := 2, articleId := 1, createTime := text "2026-06-01 13:30:00" }]
  nextCommentId := 3
  tieRank := fun id => id
  storedArticleIds := by decide
  storedArticlesFit := by decide
  storedCommentIds := by decide
  storedCommentsFit := by decide
  storedCommentsBelow := by decide

theorem getComments_newestFirst_of_two :
    NewestFirst
      ((getComments Json.compactLibrary 1 20).run exec
        (runFrom Json.compactLibrary twoComments (fun _ => [])
          (fun _ => true) [])).1 :=
  (getComments_newestFirst_iff Json.compactLibrary twoComments
    (fun _ => []) (fun _ => true) [] 1 20 (by decide)).mpr (by decide)

/-- The second of two equal requests is answered oldest first. -/
theorem getComments_oldestFirst_from_cache :
    ¬ NewestFirst
      ((getComments Json.compactLibrary 1 20).run exec
        (runFrom Json.compactLibrary twoComments (fun _ => [])
          (fun _ => true) [.request (.getComments 1 20)])).1 := by
  have times :
      ((getComments Json.compactLibrary 1 20).run exec
          (runFrom Json.compactLibrary twoComments (fun _ => [])
            (fun _ => true) [.request (.getComments 1 20)])).1.map
          createTimes =
        .ok [text "2026-06-01 12:00:00", text "2026-06-01 13:30:00"] := by
    rfl
  intro newest
  cases result :
      ((getComments Json.compactLibrary 1 20).run exec
        (runFrom Json.compactLibrary twoComments (fun _ => [])
          (fun _ => true) [.request (.getComments 1 20)])).1 with
  | error exception => simp [result, Except.map] at times
  | ok response =>
      rw [result] at times newest
      simp only [Except.map, Except.ok.injEq] at times
      rw [NewestFirst, times] at newest
      revert newest
      decide

end LightningServer.Service
