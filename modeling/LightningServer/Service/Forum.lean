import LightningServer.Foundation.Transition
import LightningServer.Service.CommentService

/-!
# The forum as a transition system

Requests served one after the other, and keys whose time to live runs out
between them.  The two services share one Redis and one database; what each
request can touch is stated here once, so that an invariant about one key does
not have to look into the requests that never write it.
-/

namespace LightningServer.Service

open LightningServer.Foundation
open LightningServer.Foundation.Numerals
open LightningServer.Store

/-! ## Keys of the two services -/

namespace CommentService

theorem commentListKey_injective :
    Function.Injective commentListKey := fun _ _ equal =>
  decimal_injective (List.append_cancel_left equal)

theorem ne_commentListKey
    {key : Text} (first : key.head? ≠ some 'c') (articleId : Int) :
    key ≠ commentListKey articleId := by
  rintro rfl
  exact first rfl

theorem hotKey_ne_commentListKey (articleId : Int) :
    ArticleService.hotKey ≠ commentListKey articleId :=
  ne_commentListKey (by decide) articleId

theorem articleViewKey_ne_commentListKey
    (idStr : Text) (articleId : Int) :
    ArticleService.articleViewKey idStr ≠ commentListKey articleId :=
  ne_commentListKey (by simp [ArticleService.articleViewKey, text])
    articleId

theorem articleCacheKey_ne_commentListKey (id articleId : Int) :
    ArticleService.articleCacheKey id ≠ commentListKey articleId :=
  ne_commentListKey (by simp [ArticleService.articleCacheKey, text])
    articleId

/-- Only the list of the article is written. -/
theorem fillLoop_writesOnly
    (json : JsonLibrary) (articleId : Int) (comments : List Comment)
    (list : List Json) :
    (fillLoop json articleId comments list).Asks
      (Call.WritesOnly (commentListKey articleId)) := by
  induction comments generalizing list with
  | nil => trivial
  | cons comment rest induction =>
      refine Program.asks_perform_bind ?_ fun pushed => induction _
      rintro written (rfl | _)
      rfl

theorem fill_writesOnly
    (json : JsonLibrary) (articleId limit : Int) :
    (fill json articleId limit).Asks
      (Call.WritesOnly (commentListKey articleId)) := by
  refine Program.asks_perform_bind ?_ fun comments => ?_
  · rintro written (_ | _)
  · refine Program.asks_bind
      (fillLoop_writesOnly json articleId comments []) fun list => ?_
    refine Program.asks_perform_bind ?_ fun expired => trivial
    rintro written (rfl | _)
    rfl

theorem getComments_writesOnly
    (json : JsonLibrary) (articleId limit : Int) :
    (getComments json articleId limit).Asks
      (Call.WritesOnly (commentListKey articleId)) := by
  refine Program.asks_perform_bind ?_ fun cached => ?_
  · rintro written (_ | _)
  · refine Program.asks_bind ?_ fun list => ?_
    · split
      · exact fill_writesOnly json articleId _
      · trivial
    · refine Program.asks_perform_bind ?_ fun total => trivial
      rintro written (_ | _)

theorem createComment_writesOnly
    (articleId : Int) (content commenter : Text) :
    (createComment articleId content commenter).Asks
      (Call.WritesOnly (commentListKey articleId)) := by
  unfold createComment
  split
  · trivial
  · split
    · trivial
    · refine Program.asks_perform_bind ?_ fun found => ?_
      · rintro written (_ | _)
      · cases found with
        | none => trivial
        | some article =>
            refine Program.asks_perform_bind ?_ fun created => ?_
            · rintro written (_ | _)
            · cases created with
              | false => trivial
              | true =>
                  refine Program.asks_perform_bind ?_ fun now => ?_
                  · rintro written (_ | _)
                  · refine Program.asks_perform_bind ?_
                      fun deleted => trivial
                    rintro written (rfl | _)
                    rfl

end CommentService

namespace ArticleService

theorem syncLoop_keepsComments (hotIds : List Text) :
    (syncLoop hotIds).Asks Call.KeepsComments := by
  induction hotIds with
  | nil => trivial
  | cons idStr rest induction =>
      refine Program.asks_perform_bind ⟨rfl, by simp⟩ fun viewStr => ?_
      cases viewStr with
      | none => exact induction
      | some viewStr =>
          refine Program.asks_bind (Program.asks_ofExcept _) fun id => ?_
          refine Program.asks_bind (Program.asks_ofExcept _)
            fun count => ?_
          exact Program.asks_perform_bind ⟨rfl, by simp⟩
            fun updated => induction

theorem syncViewCounts_keepsComments :
    syncViewCounts.Asks Call.KeepsComments :=
  Program.asks_perform_bind ⟨rfl, by simp⟩ fun hotIds =>
    syncLoop_keepsComments hotIds

/-- The keys that a visit writes, from the outside. -/
theorem entries_visit
    (json : JsonLibrary) (article : Article) (redis : Redis)
    {key : Text}
    (notCounter : key ≠ articleViewKey (decimal article.id))
    (notRanking : key ≠ hotKey)
    (notCache : key ≠ articleCacheKey article.id) :
    (visit json article redis).entries key = redis.entries key := by
  unfold visit
  rw [Redis.entries_set_of_ne _ _ _ notCache,
    Redis.entries_zadd_of_ne _ _ _ notRanking,
    Redis.entries_incr_of_ne _ notCounter]

end ArticleService

/-! ## Requests and steps -/

inductive Request where
  | listArticles (page pageSize : Int)
  | getArticleDetail (id : Int)
  | getHotArticles (limit : Int)
  | syncViewCounts
  | getComments (articleId limit : Int)
  | createComment (articleId : Int) (content commenter : Text)

inductive Event where
  | request (request : Request)
  /-- the time to live of a key runs out -/
  | timeOut (key : Text)

/-- The event asks for the detail of this article. -/
def Event.opens (id : Int) : Event → Bool
  | .request (.getArticleDetail other) => other = id
  | _ => false

section

variable (json : JsonLibrary)

/-- The code of a request; a sync has no response, and gives null. -/
def requestCode : Request → Service Json
  | .listArticles page pageSize =>
      ArticleService.listArticles page pageSize
  | .getArticleDetail id => ArticleService.getArticleDetail json id
  | .getHotArticles limit => ArticleService.getHotArticles limit
  | .syncViewCounts => do
      ArticleService.syncViewCounts
      pure .null
  | .getComments articleId limit =>
      CommentService.getComments json articleId limit
  | .createComment articleId content commenter =>
      CommentService.createComment articleId content commenter

/-- The world after a request. -/
def serve (world : World) : Request → World
  | .listArticles page pageSize =>
      ((ArticleService.listArticles page pageSize).run exec world).2
  | .getArticleDetail id =>
      ((ArticleService.getArticleDetail json id).run exec world).2
  | .getHotArticles limit =>
      ((ArticleService.getHotArticles limit).run exec world).2
  | .syncViewCounts => (ArticleService.syncViewCounts.run exec world).2
  | .getComments articleId limit =>
      ((CommentService.getComments json articleId limit).run exec world).2
  | .createComment articleId content commenter =>
      ((CommentService.createComment articleId content commenter).run
        exec world).2

theorem serve_eq (world : World) (request : Request) :
    serve json world request =
      ((requestCode json request).run exec world).2 := by
  cases request with
  | syncViewCounts =>
      rw [requestCode, Program.run_bind, serve]
      cases ArticleService.syncViewCounts.run exec world with
      | mk outcome later =>
          cases outcome with
          | ok done => rfl
          | error exception => rfl
  | _ => rfl

def step (world : World) : Event → World
  | .request request => serve json world request
  | .timeOut key => world.timeOut key

/-- The world after a sequence of events from an empty Redis. -/
def runFrom (database : Database) (clock : Nat → Text)
    (accepts : Nat → Bool) (events : List Event) : World :=
  Transition.run (step json) (.initial database clock accepts) events

/-- A request and its outcome. -/
structure Answer where
  request : Request
  result : Except StdException Json

/-- What an event is answered, read in the world before it. -/
def answersTo (world : World) : Event → List Answer
  | .request request =>
      [{ request := request
         result := ((requestCode json request).run exec world).1 }]
  | .timeOut _ => []

/-- All answers of a run, in their order. -/
def answers (database : Database) (clock : Nat → Text)
    (accepts : Nat → Bool) (events : List Event) : List Answer :=
  Transition.outputs (step json) (answersTo json)
    (.initial database clock accepts) events

variable {json}

theorem runFrom_concat
    (database : Database) (clock : Nat → Text) (accepts : Nat → Bool)
    (events : List Event) (event : Event) :
    runFrom json database clock accepts (events ++ [event]) =
      step json (runFrom json database clock accepts events) event :=
  Transition.run_append _ _ _ _

theorem answers_concat
    (database : Database) (clock : Nat → Text) (accepts : Nat → Bool)
    (events : List Event) (event : Event) :
    answers json database clock accepts (events ++ [event]) =
      answers json database clock accepts events ++
        answersTo json (runFrom json database clock accepts events)
          event := by
  rw [answers, Transition.outputs_append, Transition.outputs_cons,
    Transition.outputs_nil, List.append_nil]
  rfl

end

theorem eq_of_opens
    {event : Event} {id : Int} (opens : event.opens id = true) :
    event = .request (.getArticleDetail id) := by
  cases event with
  | timeOut key => cases opens
  | request request =>
      cases request with
      | getArticleDetail other =>
          have same : other = id := by simpa [Event.opens] using opens
          rw [same]
      | _ => cases opens

end LightningServer.Service
