import LightningServer.Handler.OutageReport
import LightningServer.Handler.Routes

/-!
# Posting a comment is all or nothing

A post ends in one of two ways, whatever its body is and whichever calls of
the database fail.  Either one row is inserted, the list of the article is
deleted and the answer is 201; or the answer is an error and neither the
comments nor a key has changed.  The `catch` around the insert is not reached
from it: after the insert nothing throws.
-/

namespace LightningServer.Handler

open LightningServer.Foundation
open LightningServer.Foundation.Numerals
open LightningServer.Net
open LightningServer.Store
open LightningServer.Service
open LightningServer.Service.CommentService

/-! ## The two ends of a post -/

/-- One row is new, and the list of its article is gone. -/
structure Posted (articleId : Int) (content commenter : Text)
    (before after : World) : Prop where
  inserted :
    ∃ row : Comment,
      row.articleId = articleId ∧ row.content = content ∧
        row.commenter = commenter ∧
        after.database.storedComments =
          before.database.storedComments ++ [row]
  deleted : after.redis.entries (commentListKey articleId) = none

/-- The comments and all keys are as they were. -/
structure Untouched (before after : World) : Prop where
  comments :
    after.database.storedComments = before.database.storedComments
  redis : after.redis = before.redis

/-- What belongs to other articles is as it was. -/
structure KeepsOthers (articleId : Int) (before after : World) : Prop where
  articles :
    after.database.storedArticles = before.database.storedArticles
  rows :
    ∀ other, other ≠ articleId →
      after.database.storedCommentsOf other =
        before.database.storedCommentsOf other
  keys :
    ∀ key, key ≠ commentListKey articleId →
      after.redis.entries key = before.redis.entries key

theorem KeepsOthers.refl (articleId : Int) (world : World) :
    KeepsOthers articleId world world where
  articles := rfl
  rows := fun _ _ => rfl
  keys := fun _ _ => rfl

theorem Untouched.refl (world : World) : Untouched world world where
  comments := rfl
  redis := rfl

/-- A new row is not the table as it was. -/
theorem Posted.not_untouched
    {articleId : Int} {content commenter : Text} {before after : World}
    (posted : Posted articleId content commenter before after) :
    ¬ Untouched before after := by
  intro untouched
  rcases posted.inserted with ⟨row, -, -, -, appended⟩
  rw [untouched.comments] at appended
  exact absurd appended (by simp)

/-- The codes of a post that is refused. -/
def IsRefusal (code : Int) : Prop :=
  code = 400 ∨ code = 404 ∨ code = 500

/-- How `createComment` ends, with the worlds around it. -/
inductive PostEnd (articleId : Int) (content commenter : Text)
    (before after : World) : Json → Prop where
  | refused (code : Int) (message : Text) (isRefusal : IsRefusal code)
      (untouched : Untouched before after) :
      PostEnd articleId content commenter before after
        (failure code message)
  | created (now : Text)
      (posted : Posted articleId content commenter before after) :
      PostEnd articleId content commenter before after
        (commentCreated
          { articleId := articleId, content := content
            commenter := commenter, createTime := now })

/-- What an INSERT of a comment does, with the reply of the proxy. -/
structure Inserts (comment : Comment) (before : World) (reply : Bool)
    (after : World) : Prop where
  redis : after.redis = before.redis
  others : KeepsOthers comment.articleId before after
  rows :
    reply = false ∧
        after.database.storedComments = before.database.storedComments ∨
      reply = true ∧
        ∃ row : Comment,
          row.articleId = comment.articleId ∧
            row.content = comment.content ∧
            row.commenter = comment.commenter ∧
            after.database.storedComments =
              before.database.storedComments ++ [row]

/-! ## The calls of a post -/

section Calls

variable (fault : Fault)

theorem execUnder_getArticleById (id : Int) (world : World) :
    (execUnder fault (.getArticleById id) world).2 = world := by
  rw [execUnder]
  split
  · rfl
  · rfl

/-- Neither the clock nor the cache is hit by a fault of the database. -/
theorem execUnder_of_notDatabase
    {call : Call} (other : call.isDatabase = false) (world : World) :
    execUnder fault call world = exec call world := by
  rw [execUnder, Call.blocked, other, Bool.false_and,
    if_neg Bool.false_ne_true]

/-- The INSERT adds its row and says so, or adds none and says so. -/
theorem inserts_execUnder (comment : Comment) (world : World) :
    Inserts comment world
      (execUnder fault (.createComment comment) world).1
      (execUnder fault (.createComment comment) world).2 := by
  generalize outcome :
    execUnder fault (.createComment comment) world = result
  by_cases hit : (Call.createComment comment).blocked fault = true
  · rw [execUnder, if_pos hit] at outcome
    rw [← outcome]
    exact ⟨rfl, KeepsOthers.refl _ world, Or.inl ⟨rfl, rfl⟩⟩
  rw [execUnder, if_neg hit] at outcome
  rw [← outcome]
  refine ⟨rfl, ?_, ?_⟩
  · constructor
    · exact world.database.storedArticles_createComment comment _ _
    · intro other different
      exact Database.storedCommentsOf_createComment_of_ne
        different.symm _ _
    · intro key different
      rfl
  · rcases world.database.createComment_cases comment
        (world.accepts world.ticks) world.now with
      ⟨refused, -⟩ | ⟨-, done, -, appended, -⟩
    · refine Or.inl ⟨congrArg Prod.fst refused, ?_⟩
      exact congrArg (fun outcome => outcome.2.storedComments) refused
    · exact Or.inr ⟨done, world.database.newRow comment world.now,
        rfl, rfl, rfl, appended⟩

end Calls

section Run

variable (pattern : Nat → Fault)

/-- Deleting the list of the article after the row has been inserted. -/
theorem world_underOutage_del
    (articleId : Int) (outage : Outage) :
    let after :=
      (underOutage pattern (.del (commentListKey articleId))
        (underOutage pattern .localTime outage).2).2.world
    after.database = outage.world.database ∧
      after.redis.entries (commentListKey articleId) = none ∧
      ∀ key, key ≠ commentListKey articleId →
        after.redis.entries key = outage.world.redis.entries key := by
  intro after
  have clock :
      (underOutage pattern .localTime outage).2.world =
        { outage.world with ticks := outage.world.ticks + 1 } := by
    simp only [underOutage]
    rw [execUnder_of_notDatabase _ rfl]
    rfl
  have deletes :
      after =
        (exec (.del (commentListKey articleId))
          { outage.world with ticks := outage.world.ticks + 1 }).2 := by
    rw [← clock]
    simp only [after]
    rw [underOutage, execUnder_of_notDatabase _ rfl]
  rw [deletes]
  refine ⟨rfl, ?_, fun key different => ?_⟩
  · exact Redis.entries_put_self _ _ _
  · exact Redis.entries_del_of_ne _ different

/-- The rest of the service, once the article has been found. -/
theorem run_createComment_found
    (articleId : Int) (content commenter : Text) (outage : Outage) :
    let comment : Comment :=
      { articleId := articleId, content := content
        commenter := commenter }
    ∃ result later,
      (do
          let created ← Call.perform (.createComment comment)
          if created then do
            let now ← Call.perform .localTime
            let comment := { comment with createTime := now }
            let _ ← Call.perform (.del (commentListKey articleId))
            pure (commentCreated comment)
          else
            pure (failure 500 (text "Failed to create comment")) :
        Service Json).run (underOutage pattern) outage =
          (.ok result, later) ∧
        PostEnd articleId content commenter outage.world later.world
          result ∧
        KeepsOthers articleId outage.world later.world := by
  intro comment
  have inserts :
      Inserts comment outage.world
        (underOutage pattern (.createComment comment) outage).1
        (underOutage pattern (.createComment comment) outage).2.world :=
    inserts_execUnder (pattern outage.made) comment outage.world
  simp only [Call.perform, Program.perform_bind, Program.run_call]
  generalize underOutage pattern (.createComment comment) outage = result
    at inserts
  rcases result with ⟨created, later⟩
  rcases inserts with ⟨sameRedis, others, ⟨isFalse, same⟩ | ⟨isTrue, added⟩⟩
  · rw [show created = false from isFalse]
    exact ⟨_, later, rfl,
      .refused 500 _ (Or.inr (Or.inr rfl)) ⟨same, sameRedis⟩, others⟩
  · rw [show created = true from isTrue]
    rcases world_underOutage_del pattern articleId later with
      ⟨sameTables, gone, sameKeys⟩
    rcases added with ⟨row, sameArticle, sameContent, sameName, appended⟩
    refine ⟨_, _, rfl, .created _ ⟨⟨row, sameArticle, sameContent,
      sameName, ?_⟩, gone⟩, ?_⟩
    · rw [sameTables]
      exact appended
    · constructor
      · rw [sameTables]
        exact others.articles
      · intro other different
        rw [sameTables]
        exact others.rows other different
      · intro key different
        exact (sameKeys key different).trans (others.keys key different)

/-- A post by the service returns, in one of the two ways. -/
theorem run_createComment
    (articleId : Int) (content commenter : Text) (outage : Outage) :
    ∃ result later,
      (createComment articleId content commenter).run
          (underOutage pattern) outage = (.ok result, later) ∧
        PostEnd articleId content commenter outage.world later.world
          result ∧
        KeepsOthers articleId outage.world later.world := by
  rw [createComment]
  split
  · exact ⟨_, _, rfl,
      .refused 400 _ (Or.inl rfl) (Untouched.refl _),
      KeepsOthers.refl articleId _⟩
  split
  · exact ⟨_, _, rfl,
      .refused 400 _ (Or.inl rfl) (Untouched.refl _),
      KeepsOthers.refl articleId _⟩
  rw [Call.perform, Program.perform_bind, Program.run_call]
  have looked :
      (underOutage pattern (.getArticleById articleId) outage).2.world =
        outage.world :=
    execUnder_getArticleById _ articleId outage.world
  generalize underOutage pattern (.getArticleById articleId) outage =
    found at looked
  rcases found with ⟨article, later⟩
  rw [← show later.world = outage.world from looked]
  cases article with
  | none =>
      exact ⟨_, later, rfl,
        .refused 404 _ (Or.inr (Or.inl rfl)) (Untouched.refl _),
        KeepsOthers.refl articleId _⟩
  | some article =>
      exact run_createComment_found pattern articleId content commenter
        later

end Run

/-! ## The handler -/

/-- How a post is answered, with the worlds around it. -/
inductive PostAnswer (json : JsonLibrary) (req : HttpRequest)
    (resp : HttpResponse) (articleId : Int) (before after : World) :
    HttpResponse → Prop where
  | refused (code : StatusCode) (message : Text)
      (isRefusal : IsRefusal code.toNat)
      (untouched : Untouched before after) :
      PostAnswer json req resp articleId before after
        (ApiHandler.answer resp code
          (ApiHandler.jsonError json message code.toNat))
  | created (body : Json) (content commenter now : Text)
      (parses : ApiHandler.parseBody json req.body = .ok body)
      (isContent : stringValue body (text "content") [] = .ok content)
      (isCommenter :
        stringValue body (text "commenter") (text "匿名用户") =
          .ok commenter)
      (posted : Posted articleId content commenter before after) :
      PostAnswer json req resp articleId before after
        (ApiHandler.answer resp .k201Created
          (ApiHandler.jsonOk json
            (commentCreated
              { articleId := articleId, content := content
                commenter := commenter, createTime := now })))

theorem intValue_failure {code : Int} (fits : IsInt code) (message : Text) :
    intValue (failure code message) (text "code") 0 = .ok code :=
  congrArg Except.ok (toInt32_of_isInt fits)

/-- The status that the handler sets for a refusal is its code. -/
theorem exists_createStatus {code : Int} (isRefusal : IsRefusal code) :
    ∃ status : StatusCode,
      ApiHandler.createStatus code = status ∧ (status.toNat : Int) = code := by
  rcases isRefusal with rfl | rfl | rfl
  · exact ⟨.k400BadRequest, rfl, rfl⟩
  · exact ⟨.k404NotFound, rfl, rfl⟩
  · exact ⟨.k500InternalError, rfl, rfl⟩

section Handler

variable (json : JsonLibrary) (pattern : Nat → Fault)
variable (req : HttpRequest) (resp : HttpResponse)

/-- The answer of the `catch`: nothing has been called before it. -/
theorem postAnswer_recover (articleId : Int) (world : World) :
    PostAnswer json req resp articleId world world
      (ApiHandler.answer resp .k400BadRequest
        (ApiHandler.jsonError json (text "Invalid JSON body") 400)) :=
  .refused .k400BadRequest _ (Or.inl rfl) (Untouched.refl world)

/-- After the service nothing throws, so the `catch` is not reached. -/
theorem run_createComment_finish
    {body : Json} {content commenter : Text} (articleId : Int)
    (parses : ApiHandler.parseBody json req.body = .ok body)
    (isContent : stringValue body (text "content") [] = .ok content)
    (isCommenter :
      stringValue body (text "commenter") (text "匿名用户") = .ok commenter)
    (outage : Outage) :
    ∃ response later,
      (createComment articleId content commenter >>= finish json resp).run
          (underOutage pattern) outage = (.ok response, later) ∧
        PostAnswer json req resp articleId outage.world later.world
          response ∧
        KeepsOthers articleId outage.world later.world := by
  rcases run_createComment pattern articleId content commenter outage with
    ⟨result, later, runs, ends, others⟩
  rw [Program.run_bind, runs]
  cases ends with
  | refused code message isRefusal untouched =>
      rcases exists_createStatus isRefusal with ⟨status, isStatus, same⟩
      have fits : IsInt code := by
        rcases isRefusal with rfl | rfl | rfl
        all_goals decide
      refine ⟨_, later, ?_, .refused status message ?_ untouched, others⟩
      · simp only [finish, intValue_failure fits, Program.ofExcept_ok,
          Program.ret_bind, isStatus, ApiHandler.jsonError, same]
        rfl
      · rw [same]
        exact isRefusal
  | created now posted =>
      exact ⟨_, later, rfl,
        .created body content commenter now parses isContent isCommenter
          posted, others⟩

theorem run_handleCreateComment (articleId : Int) (outage : Outage) :
    ∃ response later,
      (ApiHandler.handleCreateComment json req resp articleId).run
          (underOutage pattern) outage = (.ok response, later) ∧
        PostAnswer json req resp articleId outage.world later.world
          response ∧
        KeepsOthers articleId outage.world later.world := by
  have recovered :=
    postAnswer_recover json req resp articleId outage.world
  have others := KeepsOthers.refl articleId outage.world
  rw [ApiHandler.handleCreateComment, ApiHandler.tryCreateComment]
  cases parses : ApiHandler.parseBody json req.body with
  | error exception => exact ⟨_, outage, rfl, recovered, others⟩
  | ok body =>
      rw [Program.ofExcept_ok, Program.ret_bind]
      cases isContent : stringValue body (text "content") [] with
      | error exception => exact ⟨_, outage, rfl, recovered, others⟩
      | ok content =>
          rw [Program.ofExcept_ok, Program.ret_bind]
          cases isCommenter :
              stringValue body (text "commenter") (text "匿名用户") with
          | error exception => exact ⟨_, outage, rfl, recovered, others⟩
          | ok commenter =>
              rw [Program.ofExcept_ok, Program.ret_bind]
              rcases run_createComment_finish json pattern req resp
                  articleId parses isContent isCommenter outage with
                ⟨response, later, runs, answers, keeps⟩
              exact ⟨response, later,
                Program.run_catching_of_returns _ runs, answers, keeps⟩

end Handler

/-! ## All or nothing -/

end LightningServer.Handler
