import LightningServer.Service.ArticleCache
import LightningServer.Service.ViewTally

/-!
# Concurrent details of one article

Several threads ask for the detail of one article.  INCR is atomic, but ZADD
and SETEX publish its reply later, as absolute values: whoever comes last wins,
with whatever reply it carries.

A `DetailPhase` says how far a request is.  `code` gives the rest of its
program, and `move_code` shows that the phases move exactly as the code does.
-/

namespace LightningServer.Service

open LightningServer.Foundation
open LightningServer.Foundation.Numerals
open LightningServer.Foundation.Transition
open LightningServer.Store
open LightningServer.Service.ArticleService

/-! ## Phases of a detail -/

/-- How far a detail is; `views` is the reply of its INCR. -/
inductive DetailPhase where
  /-- before the GET -/
  | looking
  /-- before the SELECT -/
  | reading
  /-- before the INCR -/
  | counting (article : Article)
  /-- before the ZADD -/
  | ranking (article : Article) (views : Int)
  /-- before the SETEX -/
  | storing (article : Article) (views : Int)
  | finished (article : Article) (views : Int)
  /-- answered without counting -/
  | served (outcome : Except StdException Json)

namespace DetailPhase

/-- The article as it is shown after an INCR with this reply. -/
def shown (article : Article) (views : Int) : Article :=
  { article with viewCount := max article.viewCount (toInt32 views) }

section

variable (json : JsonLibrary) (id : Int)

/-- The code of `getArticleDetail` from the SETEX on. -/
def storeAndAnswer (article : Article) (views : Int) : Service Json := do
  let result := detailResponse (shown article views)
  let _ ←
    Call.perform (.set (articleCacheKey id) (json.dump result) 3600)
  pure result

/-- The code from the ZADD on. -/
def rankAndAnswer (article : Article) (views : Int) : Service Json := do
  let _ ← Call.perform (.zadd hotKey (toDouble views) (decimal id))
  storeAndAnswer json id article views

/-- The code from the INCR on. -/
def countAndAnswer (article : Article) : Service Json := do
  let views ← Call.perform (.incr (articleViewKey (decimal id)))
  rankAndAnswer json id article views

/-- The code after a GET that found nothing. -/
def readAndAnswer : Service Json := do
  let found ← Call.perform (.getArticleById id)
  match found with
  | none => pure (failure 404 (text "Article not found"))
  | some article => countAndAnswer json id article

/-- The code that a detail in this phase has left. -/
def code : DetailPhase → Service Json
  | .looking => do
      let cached ← Call.perform (.get (articleCacheKey id))
      match cached with
      | some value => Program.ofExcept (parseOrThrow json value)
      | none => readAndAnswer json id
  | .reading => readAndAnswer json id
  | .counting article => countAndAnswer json id article
  | .ranking article views => rankAndAnswer json id article views
  | .storing article views => storeAndAnswer json id article views
  | .finished article views =>
      pure (detailResponse (shown article views))
  | .served outcome => Program.ofExcept outcome

/-- One move. -/
def move (phase : DetailPhase) (world : World) : DetailPhase × World :=
  match phase with
  | .looking =>
      (match world.redis.get (articleCacheKey id) with
        | some value => .served (parseOrThrow json value)
        | none => .reading, world)
  | .reading =>
      (match world.database.getArticleById id with
        | none => .served (.ok (failure 404 (text "Article not found")))
        | some article => .counting article, world)
  | .counting article =>
      let result := exec (.incr (articleViewKey (decimal id))) world
      (.ranking article result.1, result.2)
  | .ranking article views =>
      (.storing article views,
        (exec (.zadd hotKey (toDouble views) (decimal id)) world).2)
  | .storing article views =>
      (.finished article views,
        (exec
          (.set (articleCacheKey id)
            (json.dump (detailResponse (shown article views))) 3600)
          world).2)
  | .finished article views => (.finished article views, world)
  | .served outcome => (.served outcome, world)

/-- The call of the next move. -/
def call? : DetailPhase → Option Call
  | .looking => some (.get (articleCacheKey id))
  | .reading => some (.getArticleById id)
  | .counting _ => some (.incr (articleViewKey (decimal id)))
  | .ranking _ views =>
      some (.zadd hotKey (toDouble views) (decimal id))
  | .storing article views =>
      some
        (.set (articleCacheKey id)
          (json.dump (detailResponse (shown article views))) 3600)
  | .finished _ _ => none
  | .served _ => none

theorem code_looking :
    getArticleDetail json id = looking.code json id := by
  rw [getArticleDetail, code]
  congr 1
  funext cached
  cases cached with
  | some value => rfl
  | none => rfl

/-- Every move of the code is the move of its phase. -/
theorem move_code (phase : DetailPhase) (world : World) :
    (phase.code json id).move exec world =
      ((phase.move json id world).1.code json id,
        (phase.move json id world).2) := by
  cases phase with
  | looking =>
      simp only [code, move, Program.perform_bind, Program.move, exec]
      cases world.redis.get (articleCacheKey id) with
      | some value => rfl
      | none => rfl
  | reading =>
      simp only [code, move, readAndAnswer, Program.perform_bind,
        Program.move, exec]
      cases world.database.getArticleById id with
      | some article => rfl
      | none => rfl
  | served outcome =>
      cases outcome with
      | ok response => rfl
      | error exception => rfl
  | _ => rfl

theorem nextCall_code (phase : DetailPhase) :
    (phase.code json id).nextCall = phase.call? json id := by
  cases phase with
  | served outcome =>
      cases outcome with
      | ok response => rfl
      | error exception => rfl
  | _ => rfl

end

end DetailPhase

end LightningServer.Service
