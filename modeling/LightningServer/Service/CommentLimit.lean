import LightningServer.Service.CommentOrder

/-!
# How many comments a request gets

A fill caches as many rows as its own request asked for, and nothing in Redis
records that number.  A later request reads what is there and asks the
database for the rest only when nothing is there: it is short whenever the
list was filled for a smaller limit.
-/

namespace LightningServer.Service

open LightningServer.Foundation
open LightningServer.Foundation.Numerals
open LightningServer.Store
open LightningServer.Service.CommentService

/-- The number of comments that the request has to list. -/
def askedComments (database : Database) (articleId limit : Int) : Nat :=
  min (clampLimit limit).toNat (database.commentsOf articleId).length

/-- The request returns, and its list has this many entries. -/
def ListsExactly (count : Nat) : Except StdException Json → Prop
  | .ok response => (responseList response).length = count
  | .error _ => False

instance (count : Nat) :
    ∀ result : Except StdException Json,
      Decidable (ListsExactly count result)
  | .ok _ => inferInstanceAs (Decidable (_ = _))
  | .error _ => inferInstanceAs (Decidable False)

/-- What is cached for the article, if anything is, suffices. -/
def CachesEnough (redis : Redis) (articleId : Int) (count : Nat) : Prop :=
  ∀ elements volatile,
    redis.entries (commentListKey articleId) =
      some ⟨.list elements, volatile⟩ →
    count ≤ elements.length

theorem length_getCommentsByArticleId
    (database : Database) (articleId limit : Int) :
    (database.getCommentsByArticleId articleId
      (clampLimit limit)).length =
        askedComments database articleId limit :=
  List.length_take

/-- From the database, a request gets what it has to list. -/
theorem listsExactly_of_absent
    (json : JsonLibrary) {world : World} {articleId : Int}
    (absent :
      world.redis.entries (commentListKey articleId) = none)
    (limit : Int) :
    ListsExactly (askedComments world.database articleId limit)
      ((getComments json articleId limit).run exec world).1 := by
  rw [run_getComments_miss json (cachedItems_of_absent json absent limit),
    ListsExactly, responseList_commentsResponse, List.length_map]
  exact length_getCommentsByArticleId world.database articleId limit

/-- From Redis, it gets no more than an earlier request asked for. -/
theorem listsExactly_of_holdsReversed
    (json : JsonLibrary) {world : World} {articleId : Int} {count : Nat}
    (holds : HoldsReversed json world articleId count) (limit : Int) :
    ListsExactly (askedComments world.database articleId limit)
        ((getComments json articleId limit).run exec world).1 ↔
      askedComments world.database articleId limit ≤ count := by
  have enough := holds.2.2.1
  rw [run_getComments_hit json (cachedItems_nonempty json holds limit),
    ListsExactly, responseList_commentsResponse,
    cachedItems_of_holdsReversed json holds, List.length_map,
    List.length_take, List.length_reverse, List.length_take,
    askedComments]
  omega

theorem cachesEnough_of_holdsReversed
    (json : JsonLibrary) {world : World} {articleId : Int} {count : Nat}
    (holds : HoldsReversed json world articleId count) (asked : Nat) :
    CachesEnough world.redis articleId asked ↔ asked ≤ count := by
  rcases holds with ⟨-, -, enough, volatile, present⟩
  have size :
      ((((world.database.commentsOf articleId).take count).map
        (cacheText json)).reverse).length = count := by
    rw [List.length_reverse, List.length_map, List.length_take]
    exact Nat.min_eq_left enough
  constructor
  · intro sufficient
    have bound := sufficient _ volatile present
    rwa [size] at bound
  · intro bound elements volatile' found
    rw [present] at found
    cases found
    rwa [size]

/--
In every reachable state, a request lists as many comments as it has to if
and only if the cached list, where there is one, has as many.
-/
theorem getComments_listsExactly_iff
    (json : JsonLibrary) (database : Database) (clock : Nat → Text)
    (accepts : Nat → Bool) (events : List Event) (articleId limit : Int) :
    let world := runFrom json database clock accepts events
    let asked := askedComments world.database articleId limit
    ListsExactly asked
        ((getComments json articleId limit).run exec world).1 ↔
      CachesEnough world.redis articleId asked := by
  intro world asked
  have shape : CacheShape json world articleId :=
    cacheShape_runFrom json database clock accepts events articleId
  rcases shape with absent | ⟨count, holds⟩
  · constructor
    · intro _ elements volatile found
      rw [absent] at found
      cases found
    · intro _
      exact listsExactly_of_absent json absent limit
  · rw [listsExactly_of_holdsReversed json holds limit,
      cachesEnough_of_holdsReversed json holds]

/-- Two comments, asked for one and then for twenty: the answer is one. -/
theorem getComments_short_after_smaller_limit :
    ¬ ListsExactly
      (askedComments
        (runFrom Json.compactLibrary twoComments (fun _ => [])
          (fun _ => true) [.request (.getComments 1 1)]).database 1 20)
      ((getComments Json.compactLibrary 1 20).run exec
        (runFrom Json.compactLibrary twoComments (fun _ => [])
          (fun _ => true) [.request (.getComments 1 1)])).1 := by
  decide +kernel

end LightningServer.Service
