import LightningServer.Foundation.Tally
import LightningServer.Handler.ApiThreads
import LightningServer.Handler.CommentPost

/-!
# Every post adds its own row

Many threads post comments at once, on pools with too few connections and
with statements that fail.  The ledger of a run gives each thread the rows
that it has inserted: at most the one that its request asks for, and exactly
that one when it has answered 201.  All rows that are new in the table are in
the ledger, each once.
-/

namespace LightningServer.Handler

open LightningServer.Foundation
open LightningServer.Foundation.Numerals
open LightningServer.Net
open LightningServer.Store
open LightningServer.Service
open LightningServer.Handler.ApiHandler

/-! ## What a request posts -/

/-- The part of a row that the poster gives. -/
def posted (comment : Comment) : Comment :=
  { comment with id := 0, createTime := [] }

/-- The row that a call has inserted, by its reply. -/
def insertRecord : (call : Call) → call.Reply → List Comment
  | .createComment comment, created =>
      if created then [posted comment] else []
  | _, _ => []

/-- The comment that a task asks for. -/
def postOf (json : JsonLibrary) : ApiTask → Option Comment
  | .request req _ =>
      match route req with
      | .createComment digits => do
          let articleId ← (stoi (chars digits)).toOption
          let body ← (parseBody json req.body).toOption
          let content ← (stringValue body (text "content") []).toOption
          let commenter ←
            (stringValue body (text "commenter")
              (text "匿名用户")).toOption
          some
            { articleId := articleId, content := content
              commenter := commenter }
      | _ => none
  | .syncViewCounts => none

/-- The task has answered 201. -/
def IsCreated (outcome : Except StdException (Option HttpResponse)) :
    Prop :=
  ∃ response, outcome = .ok (some response) ∧
    response.statusCode = .k201Created

/-- At most the row that the task asks for. -/
def OwnRows (json : JsonLibrary) (task : ApiTask) (rows : List Comment) :
    Prop :=
  rows = [] ∨ ∃ comment, postOf json task = some comment ∧ rows = [comment]

/-- A row if and only if the task has answered 201. -/
def RowsAnswered (rows : List Comment)
    (outcome : Except StdException (Option HttpResponse)) : Prop :=
  rows ≠ [] ↔ IsCreated outcome

/-- Only INSERT changes the table of comments. -/
theorem comments_exec_of_reads
    {call : Call} (reads : Reads call) (world : World) :
    (exec call world).2.database.storedComments =
      world.database.storedComments := by
  cases call with
  | createComment comment => cases reads
  | setViewCount id count =>
      show (world.database.setViewCount id count
        world.now).2.storedComments = _
      rw [Database.setViewCount]
      split
      · rfl
      · rfl
  | _ => rfl

/-! ## The rows of one task -/

section Task

variable (json : JsonLibrary)

/-- The code of a task, with the rows that it has inserted so far. -/
abbrev TaskTallies (task : ApiTask) (rows : List Comment)
    (program : Service (Option HttpResponse)) : Prop :=
  program.Tallies insertRecord (OwnRows json task) RowsAnswered rows

/-- The same of a handler, before its response is handed on. -/
abbrev HandlerTallies (task : ApiTask) (rows : List Comment)
    (program : Service HttpResponse) : Prop :=
  program.Tallies insertRecord (OwnRows json task)
    (fun rows outcome => RowsAnswered rows (outcome.map some)) rows

variable {json}

theorem rowsAnswered_nil_error (exception : StdException) :
    RowsAnswered [] (.error exception) := by
  simp [RowsAnswered, IsCreated]

theorem rowsAnswered_nil_of_ne
    {response : HttpResponse}
    (other : response.statusCode ≠ .k201Created) :
    RowsAnswered [] (.ok (some response)) := by
  simp [RowsAnswered, IsCreated, other]

theorem insertRecord_of_reads {call : Call} (reads : Reads call)
    (reply : call.Reply) : insertRecord call reply = [] := by
  cases call with
  | createComment comment => cases reads
  | _ => rfl

/-- A handler that inserts nothing, and never answers 201. -/
theorem handlerTallies_of_reads
    {task : ApiTask} {program : Service HttpResponse}
    (reads : program.Asks Reads)
    (yields :
      program.Yields fun response =>
        response.statusCode ≠ .k201Created) :
    HandlerTallies json task [] program :=
  Program.tallies_of_asks
    (reads.weaken fun _ => insertRecord_of_reads) yields (Or.inl rfl)
    (fun _ => rowsAnswered_nil_of_ne) rowsAnswered_nil_error

theorem reads_of_keepsComments {call : Call} (keeps : call.KeepsComments) :
    Reads call := by
  cases call with
  | createComment comment => exact absurd rfl (keeps.2 comment)
  | _ => rfl

theorem handlerTallies_pure
    {task : ApiTask} {status : StatusCode} (other : status ≠ .k201Created)
    (resp : HttpResponse) (body : Bytes) :
    HandlerTallies json task []
      (pure (answer resp status body)) :=
  ⟨Or.inl rfl, rowsAnswered_nil_of_ne other⟩

/-- A service that only reads, and its response. -/
theorem handlerTallies_of_service
    {task : ApiTask} {status : StatusCode} (other : status ≠ .k201Created)
    {service : Service Json} (reads : service.Asks Reads)
    (resp : HttpResponse) :
    HandlerTallies json task []
      (service >>= fun result =>
        pure (answer resp status (jsonOk json result))) := by
  apply handlerTallies_of_reads
  · exact Program.asks_bind reads fun _ => trivial
  · refine Program.yields_bind (fun result => ?_) _
    exact other

theorem handlerTallies_detail
    {task : ApiTask} (resp : HttpResponse) (id : Int) :
    HandlerTallies json task [] (handleGetArticleDetail json resp id) := by
  apply handlerTallies_of_reads
  · refine Program.asks_bind (getArticleDetail_reads json id)
      fun result => ?_
    refine Program.asks_bind (Program.asks_ofExcept _) fun code => ?_
    split
    · trivial
    · trivial
  · refine Program.yields_bind (fun result => ?_) _
    refine Program.yields_bind (fun code => ?_) _
    split
    · exact fun impossible => by cases impossible
    · exact fun impossible => by cases impossible

/-! ## The rows of a post -/

/-- How the service ends, with the rows that it has inserted. -/
inductive PostResult (comment : Comment) :
    List Comment → Except StdException Json → Prop where
  | refused (code : Int) (message : Text) (isRefusal : IsRefusal code) :
      PostResult comment [] (.ok (failure code message))
  | created (now : Text) :
      PostResult comment [comment]
        (.ok
          (CommentService.commentCreated
            { comment with createTime := now }))

theorem createComment_tallies
    {task : ApiTask} (articleId : Int) (content commenter : Text)
    (isPost :
      postOf json task =
        some
          { articleId := articleId, content := content
            commenter := commenter }) :
    (CommentService.createComment articleId content commenter).Tallies
      insertRecord (OwnRows json task)
      (PostResult
        { articleId := articleId, content := content
          commenter := commenter }) [] := by
  have nothing : OwnRows json task [] := Or.inl rfl
  rw [CommentService.createComment]
  split
  · exact ⟨nothing, .refused 400 _ (Or.inl rfl)⟩
  split
  · exact ⟨nothing, .refused 400 _ (Or.inl rfl)⟩
  refine ⟨nothing, fun found => ?_⟩
  cases found with
  | none => exact ⟨nothing, .refused 404 _ (Or.inr (Or.inl rfl))⟩
  | some article =>
      refine ⟨nothing, fun created => ?_⟩
      cases created with
      | false => exact ⟨nothing, .refused 500 _ (Or.inr (Or.inr rfl))⟩
      | true =>
          have own :
              OwnRows json task
                [{ articleId := articleId, content := content
                   commenter := commenter }] :=
            Or.inr ⟨_, isPost, rfl⟩
          exact ⟨own, fun now => ⟨own, fun deleted => ⟨own,
            .created now⟩⟩⟩

/-- The rest of the handler answers 201 for a new row, and else not. -/
theorem finish_tallies
    {task : ApiTask} (resp : HttpResponse) {comment : Comment}
    {rows : List Comment} {result : Json}
    (own : OwnRows json task rows)
    (isResult : PostResult comment rows (.ok result)) :
    HandlerTallies json task rows (finish json resp result) := by
  cases isResult with
  | refused code message isRefusal =>
      rcases exists_createStatus isRefusal with ⟨status, isStatus, same⟩
      have fits : IsInt code := by
        rcases isRefusal with rfl | rfl | rfl
        all_goals decide
      have other : status ≠ .k201Created := by
        rintro rfl
        rcases isRefusal with rfl | rfl | rfl
        all_goals cases same
      simp only [finish, intValue_failure fits, Program.ofExcept_ok,
        Program.ret_bind, isStatus]
      exact handlerTallies_pure other resp _
  | created now =>
      refine ⟨own, ?_⟩
      simp only [RowsAnswered, ne_eq, List.cons_ne_self, not_false_eq_true,
        true_iff]
      exact ⟨_, rfl, rfl⟩

theorem handleCreateComment_tallies
    {req : HttpRequest} {resp : HttpResponse} {digits : Bytes}
    {articleId : Int} (isRoute : route req = .createComment digits)
    (isId : stoi (chars digits) = .ok articleId) :
    HandlerTallies json (.request req resp) []
      (handleCreateComment json req resp articleId) := by
  have refuses (rows : List Comment) (isNil : rows = []) :
      HandlerTallies json (.request req resp) rows
        (pure
          (answer resp .k400BadRequest
            (jsonError json (text "Invalid JSON body") 400))) := by
    rw [isNil]
    exact handlerTallies_pure (by decide) resp _
  rw [handleCreateComment, tryCreateComment]
  cases parses : parseBody json req.body with
  | error exception => exact refuses [] rfl
  | ok body =>
      rw [Program.ofExcept_ok, Program.ret_bind]
      cases isContent : stringValue body (text "content") [] with
      | error exception => exact refuses [] rfl
      | ok content =>
          rw [Program.ofExcept_ok, Program.ret_bind]
          cases isCommenter :
              stringValue body (text "commenter") (text "匿名用户") with
          | error exception => exact refuses [] rfl
          | ok commenter =>
              rw [Program.ofExcept_ok, Program.ret_bind]
              have isPost :
                  postOf json (.request req resp) =
                    some
                      { articleId := articleId, content := content
                        commenter := commenter } := by
                simp [postOf, isRoute, isId, parses, isContent,
                  isCommenter, Except.toOption]
              have guarded :
                  HandlerTallies json (.request req resp) []
                    (CommentService.createComment articleId content
                        commenter >>= finish json resp) := by
                apply Program.tallies_bind
                  (createComment_tallies articleId content commenter
                    isPost)
                · intro rows exception impossible
                  cases impossible
                · intro rows result own isResult
                  exact finish_tallies resp own isResult
              apply Program.tallies_catching guarded
              · intro rows response answered
                exact answered
              · intro rows exception _ answered
                apply refuses rows
                by_contra some
                rcases answered.mp some with ⟨response, impossible, -⟩
                cases impossible

/-- Every task inserts at most its own row, and answers 201 with it. -/
theorem task_tallies (task : ApiTask) :
    TaskTallies json task [] (taskCode json task) := by
  cases task with
  | syncViewCounts =>
      have silent :
          (taskCode json .syncViewCounts).Yields fun response =>
            response = none := by
        refine Program.yields_bind (fun _ => ?_) _
        rfl
      refine Program.tallies_of_asks ?_ silent (Or.inl rfl) ?_
        rowsAnswered_nil_error
      · refine Program.asks_bind ?_ fun _ => trivial
        exact ArticleService.syncViewCounts_keepsComments.weaken
          fun _ keeps =>
            insertRecord_of_reads (reads_of_keepsComments keeps)
      · rintro response rfl
        simp [RowsAnswered, IsCreated]
  | request req resp =>
      suffices handled :
          HandlerTallies json (.request req resp) []
            (handleRequest json req resp) from
        Program.tallies_bind handled (fun _ _ answered => answered)
          fun _ _ own answered => ⟨own, answered⟩
      rw [handleRequest_eq]
      have throws (exception : StdException) :
          RowsAnswered [] (.error exception) :=
        rowsAnswered_nil_error exception
      cases isRoute : route req with
      | health => exact handlerTallies_pure (by decide) resp _
      | unknown => exact handlerTallies_pure (by decide) resp _
      | articles =>
          exact handlerTallies_of_service (by decide)
            ((ArticleService.listArticles_readOnly _ _).weaken
              fun _ => reads_of_readOnly) resp
      | hot =>
          exact handlerTallies_of_service (by decide)
            ((ArticleService.getHotArticles_readOnly _).weaken
              fun _ => reads_of_readOnly) resp
      | detail digits =>
          exact Program.tallies_ofExcept_bind (Or.inl rfl)
            (fun exception _ => throws exception)
            fun id _ => handlerTallies_detail resp id
      | getComments digits =>
          exact Program.tallies_ofExcept_bind (Or.inl rfl)
            (fun exception _ => throws exception)
            fun articleId _ =>
              handlerTallies_of_service (by decide)
                (getComments_reads json articleId _) resp
      | createComment digits =>
          exact Program.tallies_ofExcept_bind (Or.inl rfl)
            (fun exception _ => throws exception)
            fun articleId isId =>
              handleCreateComment_tallies isRoute isId
      | wrongMethod digits =>
          exact Program.tallies_ofExcept_bind (Or.inl rfl)
            (fun exception _ => throws exception)
            fun articleId _ => handlerTallies_pure (by decide) resp _

end Task

/-! ## The rows of the table -/

section Ledger

variable {json : JsonLibrary}

/-- The rows that a call appends are those that it records. -/
theorem comments_execRuled
    (ruling : Ruling) (call : Call) (world : World) :
    ∃ new,
      (execRuled ruling call world).2.database.storedComments =
          world.database.storedComments ++ new ∧
        new.map posted =
          insertRecord call (execRuled ruling call world).1 := by
  by_cases reads : Reads call
  · rw [insertRecord_of_reads reads]
    refine ⟨[], ?_, rfl⟩
    rw [List.append_nil]
    rcases execRuled_cases ruling call world with same | executed
    · rw [same]
    · rw [executed]
      exact comments_exec_of_reads reads world
  · cases call with
    | createComment comment =>
        have inserts := inserts_execUnder ruling.fault comment world
        rw [execRuled_of_database rfl]
        generalize execUnder ruling.fault (.createComment comment) world =
          outcome at inserts ⊢
        rcases inserts.rows with
          ⟨isFalse, same⟩ | ⟨isTrue, row, article, content, name, appended⟩
        · rw [same, show outcome.1 = false from isFalse]
          exact ⟨[], (List.append_nil _).symm, rfl⟩
        · rw [appended, show outcome.1 = true from isTrue]
          refine ⟨[row], rfl, ?_⟩
          simp only [List.map_singleton, posted, article, content, name,
            insertRecord, if_true]
    | _ => exact absurd rfl reads

/-- The table after a run call by call: the old rows, then the recorded. -/
theorem comments_callRun (world : World) (events : List CallEvent) :
    ∃ new,
      (callRun json world events).world.database.storedComments =
          world.database.storedComments ++ new ∧
        new.map posted =
          records insertRecord execRuled (taskCode json)
            (fun key world => world.timeOut key) (.empty world) events := by
  refine Transition.run_outputs_invariant
    (fun (pool : Pool (Service (Option HttpResponse)) World) produced =>
      ∃ new,
        pool.world.database.storedComments =
            world.database.storedComments ++ new ∧
          new.map posted = produced)
    ?_ events ⟨[], (List.append_nil _).symm, rfl⟩
  rintro pool produced event ⟨new, before, isNew⟩
  have unchanged :
      ∃ later,
        pool.world.database.storedComments =
            world.database.storedComments ++ later ∧
          later.map posted = produced ++ [] :=
    ⟨new, before, by rw [isNew, List.append_nil]⟩
  cases event with
  | arrive task => exact unchanged
  | outside key => exact unchanged
  | advance index ruling =>
      cases present : pool.threads[index]? with
      | none =>
          rw [callStep, largeStep_of_none present]
          simpa only [recorded, present] using unchanged
      | some program =>
          rw [callStep, largeStep_of_some present]
          simp only [recorded, present]
          cases program with
          | ret response => exact unchanged
          | throw exception => exact unchanged
          | call call next =>
              rcases comments_execRuled ruling call pool.world with
                ⟨more, after, isMore⟩
              refine ⟨new ++ more, ?_, ?_⟩
              · rw [← List.append_assoc, ← before]
                exact after
              · rw [List.map_append, isNew, isMore]
                rfl

/--
The new rows are exactly those of the posts answered 201 and of posts that
have not been answered yet, whatever the threads, the pools and the failures
of the servers did; and the rows that were there are still there.
-/
theorem posts_conserved
    (unsent : Statement → World → Option (List Row) × World)
    (stock : Server → List Connection) (world : World)
    (events : List ActionEvent)
    (articles : world.database.articles.length < 2 ^ 31)
    (comments :
      world.database.comments.length + events.length < 2 ^ 31) :
    let pool := actionRun json unsent stock world events
    ∃ (new : List Comment) (ledger : List (ApiTask × List Comment)),
      pool.world.world.database.storedComments =
          world.database.storedComments ++ new ∧
        ledger.map Prod.fst = arrivals events ∧
        (ledger.map Prod.snd).flatten.Perm (new.map posted) ∧
        ∀ index task rows, ledger[index]? = some (task, rows) →
          OwnRows json task rows ∧
            ∀ outcome, pool.outcome? index = some outcome →
              (rows ≠ [] ↔ IsCreated outcome) := by
  intro pool
  rcases exists_sameThreads json unsent stock articles comments with
    ⟨parts, linearizes, prefixes⟩
  have same := prefixes events.length
  rw [List.take_length, linearizes.length_eq, List.take_length] at same
  rcases @comments_callRun json world parts.flatten with
    ⟨new, appended, isNew⟩
  rcases exists_poolTallies (@task_tallies json) world
      parts.flatten with ⟨ledger, tallies⟩
  refine ⟨new, ledger, ?_, ?_, ?_, ?_⟩
  · rw [← appended]
    exact congrArg (fun world => world.database.storedComments)
      same.world.symm
  · exact tallies.arrived.trans (arrivals_flatten linearizes)
  · rw [isNew]
    exact tallies.produced
  · intro index task rows entered
    rcases tallies.account entered with ⟨own, ends⟩
    exact ⟨own, fun outcome ended =>
      ends outcome (same.outcome? ended)⟩

end Ledger

/-! ## Two posts on one connection -/

/--
The second post gives up waiting for the connection that the first one holds,
and takes the article for absent.
-/
def twoPosts : List ActionEvent :=
  [.arrive (.request postHello {}), .arrive (.request postHello {}),
    .advance 0 served, .advance 1 { served with timesOut := true },
    .advance 0 served, .advance 0 served, .advance 0 served,
    .advance 0 served, .advance 0 served]

theorem posts_conserved_of_two_posts :
    let pool :=
      actionRun Json.compactLibrary (fun _ world => (none, world))
        (initialPools fun _ => 1) freshWorld twoPosts
    ∃ (new : List Comment) (ledger : List (ApiTask × List Comment)),
      pool.world.world.database.storedComments =
          freshWorld.database.storedComments ++ new ∧
        ledger.map Prod.fst = arrivals twoPosts ∧
        (ledger.map Prod.snd).flatten.Perm (new.map posted) ∧
        ∀ index task rows, ledger[index]? = some (task, rows) →
          OwnRows Json.compactLibrary task rows ∧
            ∀ outcome, pool.outcome? index = some outcome →
              (rows ≠ [] ↔ IsCreated outcome) :=
  posts_conserved _ _ freshWorld twoPosts (by decide) (by decide)

end LightningServer.Handler
