import LightningServer.Foundation.Guarantee
import LightningServer.Handler.ApiHandler
import LightningServer.Service.HotRanking
import LightningServer.Store.Outage

/-!
# How an outage of the database is reported

One request is handled while calls of `DatabaseProxy` fail as a pattern says.
The calls that failed are recorded.  A read that fails becomes an empty list,
an absent article or a zero, which every handler answers with 200 or 404; only
a failed INSERT is answered with 500.
-/

namespace LightningServer.Handler

open LightningServer.Foundation
open LightningServer.Foundation.Numerals
open LightningServer.Net
open LightningServer.Store
open LightningServer.Service

/-! ## Requests during an outage -/

structure Outage where
  world : World
  /-- the number of calls of `DatabaseProxy` so far -/
  made : Nat
  /-- those that failed -/
  failed : List Call

def Outage.initial (world : World) : Outage where
  world := world
  made := 0
  failed := []

/-- A call, with the fault that the pattern has for it. -/
def underOutage (pattern : Nat → Fault) (call : Call) (outage : Outage) :
    call.Reply × Outage :=
  let fault := pattern outage.made
  ((execUnder fault call outage.world).1,
    { world := (execUnder fault call outage.world).2
      made := if call.isDatabase then outage.made + 1 else outage.made
      failed :=
        if call.broken fault outage.world then outage.failed ++ [call]
        else outage.failed })

/-- The response, or an exception, and what the outage has done. -/
def handleUnder (json : JsonLibrary) (pattern : Nat → Fault)
    (req : HttpRequest) (resp : HttpResponse) (start : World) :
    Except StdException HttpResponse × Outage :=
  (ApiHandler.handleRequest json req resp).run (underOutage pattern)
    (.initial start)

/-- The status is 2xx or 404. -/
def SuccessOrAbsence (code : StatusCode) : Prop :=
  200 ≤ code.toNat ∧ code.toNat < 300 ∨ code.toNat = 404

instance (code : StatusCode) : Decidable (SuccessOrAbsence code) :=
  inferInstanceAs (Decidable (_ ∨ _))

/-- The call is the INSERT of a comment. -/
def isInsert : Call → Bool
  | .createComment _ => true
  | _ => false

/-! ## What can fail -/

section Failures

variable {pattern : Nat → Fault} {Value : Type}

/-- A call adds at most itself to the calls that failed. -/
theorem failed_underOutage_cases
    {kind : Call → Prop} {call : Call} {outage : Outage}
    (isKind : kind call) (before : ∀ other ∈ outage.failed, kind other) :
    ∀ other ∈ (underOutage pattern call outage).2.failed, kind other := by
  intro other member
  simp only [underOutage] at member
  split at member
  · rcases List.mem_append.mp member with old | new
    · exact before other old
    · rw [List.mem_singleton.mp new]
      exact isKind
  · exact before other member

/-- A call that cannot fail leaves the record as it is. -/
theorem failed_underOutage
    {call : Call} {outage : Outage}
    (works : call.broken (pattern outage.made) outage.world = false) :
    (underOutage pattern call outage).2.failed = outage.failed := by
  simp only [underOutage, works, Bool.false_eq_true, if_false]

/-- A lookup that finds an article has not failed. -/
theorem getArticleById_works
    {id : Int} {outage : Outage} {article : Article}
    (found :
      (underOutage pattern (.getArticleById id) outage).1 =
        some article) :
    (underOutage pattern (.getArticleById id) outage).2.failed =
      outage.failed := by
  apply failed_underOutage
  have answers : (Call.getArticleById id).refused outage.world = false :=
    rfl
  rw [Call.broken, answers, Bool.or_false]
  by_contra blocked
  rw [Bool.not_eq_false] at blocked
  simp only [underOutage, execUnder, blocked, if_true] at found
  cases found

/-- An INSERT that succeeds has not failed. -/
theorem createComment_works
    {comment : Comment} {outage : Outage}
    (created :
      (underOutage pattern (.createComment comment) outage).1 = true) :
    (underOutage pattern (.createComment comment) outage).2.failed =
      outage.failed := by
  apply failed_underOutage
  have through :
      (Call.createComment comment).blocked (pattern outage.made) =
        false := by
    by_contra blocked
    rw [Bool.not_eq_false] at blocked
    simp only [underOutage, execUnder, blocked, if_true] at created
    cases created
  simp only [underOutage, execUnder, through, Bool.false_eq_true,
    if_false] at created
  rw [Call.broken, through, Call.refused, Bool.false_or]
  exact congrArg not created

end Failures

/-! ## The calls of the readers -/

/-- The call is not the INSERT of a comment. -/
def Reads (call : Call) : Prop :=
  isInsert call = false

theorem reads_of_readOnly {call : Call} (readOnly : call.ReadOnly) :
    Reads call := by
  cases call with
  | createComment comment => exact readOnly.elim
  | _ => rfl

theorem getArticleDetail_reads (json : JsonLibrary) (id : Int) :
    (ArticleService.getArticleDetail json id).Asks Reads := by
  refine Program.asks_perform_bind rfl fun cached => ?_
  cases cached with
  | some value => exact Program.asks_ofExcept _
  | none =>
      refine Program.asks_perform_bind rfl fun found => ?_
      cases found with
      | none => trivial
      | some article =>
          refine Program.asks_perform_bind rfl fun redisViews => ?_
          refine Program.asks_perform_bind rfl fun ranked => ?_
          exact Program.asks_perform_bind rfl fun stored => trivial

theorem fillLoop_reads
    (json : JsonLibrary) (articleId : Int) (comments : List Comment)
    (list : List Json) :
    (CommentService.fillLoop json articleId comments list).Asks Reads := by
  induction comments generalizing list with
  | nil => trivial
  | cons comment rest induction =>
      exact Program.asks_perform_bind rfl fun pushed => induction _

theorem getComments_reads
    (json : JsonLibrary) (articleId limit : Int) :
    (CommentService.getComments json articleId limit).Asks Reads := by
  refine Program.asks_perform_bind rfl fun cached => ?_
  refine Program.asks_bind ?_ fun list => ?_
  · split
    · refine Program.asks_perform_bind rfl fun comments => ?_
      refine Program.asks_bind (fillLoop_reads json articleId comments [])
        fun list => ?_
      exact Program.asks_perform_bind rfl fun expired => trivial
    · trivial
  · exact Program.asks_perform_bind rfl fun total => trivial

/-! ## Reports -/

/-- All that failed was read, or all that failed was an INSERT. -/
def Reported (response : HttpResponse) (failed : List Call) : Prop :=
  SuccessOrAbsence response.statusCode ∧ (∀ call ∈ failed, Reads call) ∨
    ¬ SuccessOrAbsence response.statusCode ∧
      ∀ call ∈ failed, isInsert call = true

theorem Reported.iff
    {response : HttpResponse} {failed : List Call}
    (reported : Reported response failed) :
    (SuccessOrAbsence response.statusCode → failed = []) ↔
      ∀ call ∈ failed, isInsert call = true := by
  rcases reported with ⟨success, reads⟩ | ⟨error, inserts⟩
  · constructor
    · intro honest call member
      rw [honest success] at member
      cases member
    · intro inserts _
      apply List.eq_nil_iff_forall_not_mem.mpr
      intro call member
      have read := reads call member
      rw [Reads, inserts call member] at read
      cases read
  · constructor
    · intro _
      exact inserts
    · intro _ success
      exact absurd success error

/-- While nothing has failed, what has failed is of any kind. -/
theorem forall_failed
    {outage : Outage} (empty : outage.failed = []) (kind : Call → Prop) :
    ∀ call ∈ outage.failed, kind call := by
  rw [empty]
  exact List.forall_mem_nil kind

/-- A response that is reported without a failure. -/
theorem reported_nil (response : HttpResponse) :
    Reported response [] := by
  by_cases success : SuccessOrAbsence response.statusCode
  · exact Or.inl ⟨success, List.forall_mem_nil _⟩
  · exact Or.inr ⟨success, List.forall_mem_nil _⟩

/-- No INSERT is among the calls that failed. -/
def FailedReads (outage : Outage) : Prop :=
  ∀ call ∈ outage.failed, Reads call

/-- The outcome, if it is a response, says success or absence. -/
def Succeeds (outcome : Except StdException HttpResponse) : Prop :=
  ∀ response, outcome = .ok response →
    SuccessOrAbsence response.statusCode

/-- Whatever the program answers from here is reported so. -/
def ReportsFrom (pattern : Nat → Fault) (outage : Outage)
    (program : Service HttpResponse) : Prop :=
  ∀ response,
    (program.run (underOutage pattern) outage).1 = .ok response →
      Reported response
        (program.run (underOutage pattern) outage).2.failed

/-- Whatever the program answers is reported so. -/
def Reports (pattern : Nat → Fault) (program : Service HttpResponse) :
    Prop :=
  ∀ outage : Outage, outage.failed = [] →
    ReportsFrom pattern outage program

section Rules

variable {pattern : Nat → Fault} {Value : Type}

theorem reports_ret (response : HttpResponse) :
    Reports pattern (.ret response) := by
  intro outage empty answered returns
  show Reported answered outage.failed
  rw [empty]
  exact reported_nil answered

theorem reportsFrom_call_iff
    {outage : Outage} {call : Call}
    {next : call.Reply → Service HttpResponse} :
    ReportsFrom pattern outage (.call call next) ↔
      ReportsFrom pattern (underOutage pattern call outage).2
        (next (underOutage pattern call outage).1) :=
  Iff.rfl

theorem reports_throw (exception : StdException) :
    Reports pattern (.throw exception) := by
  intro outage empty answered returns
  cases returns

theorem reports_ofExcept_bind
    {result : Except StdException Value}
    {next : Value → Service HttpResponse}
    (later : ∀ value, Reports pattern (next value)) :
    Reports pattern (Program.ofExcept result >>= next) := by
  cases result with
  | ok value => exact later value
  | error exception => exact reports_throw exception

/-- Reads whose answers all have a status of success or absence. -/
theorem reports_of_reads
    {service : Service Value} {next : Value → Service HttpResponse}
    (asks : service.Asks Reads)
    (answers :
      ∀ value,
        (next value).Ensures (underOutage pattern) FailedReads Succeeds) :
    Reports pattern (service >>= next) := by
  intro outage empty response returns
  have before : FailedReads outage := forall_failed empty Reads
  have reading :
      service.Ensures (underOutage pattern) FailedReads fun _ => True :=
    Program.ensures_of_asks asks fun call outage reads known =>
      failed_underOutage_cases reads known
  have ensures :
      (service >>= next).Ensures (underOutage pattern) FailedReads
        Succeeds := by
    refine Program.ensures_bind reading ?_ fun value _ => answers value
    intro exception _ response impossible
    cases impossible
  rcases ensures.run before with ⟨reads, success⟩
  exact Or.inl ⟨success response returns, reads⟩

end Rules

/-! ## The handlers -/

section Handlers

variable (pattern : Nat → Fault) (json : JsonLibrary)
variable (req : HttpRequest) (resp : HttpResponse)

@[simp]
theorem statusCode_answer (code : StatusCode) (body : Bytes) :
    (ApiHandler.answer resp code body).statusCode = code :=
  rfl

theorem succeeds_answer
    {code : StatusCode} (success : SuccessOrAbsence code) (body : Bytes) :
    Succeeds (.ok (ApiHandler.answer resp code body)) := by
  rintro response ⟨rfl⟩
  exact success

theorem reports_handleGetArticles :
    Reports pattern (ApiHandler.handleGetArticles json req resp) :=
  reports_of_reads
    ((ArticleService.listArticles_readOnly _ _).weaken
      fun _ => reads_of_readOnly)
    fun _ => succeeds_answer resp (by decide) _

theorem reports_handleGetHotArticles :
    Reports pattern (ApiHandler.handleGetHotArticles json req resp) :=
  reports_of_reads
    ((ArticleService.getHotArticles_readOnly _).weaken
      fun _ => reads_of_readOnly)
    fun _ => succeeds_answer resp (by decide) _

theorem reports_handleGetComments (articleId : Int) :
    Reports pattern
      (ApiHandler.handleGetComments json req resp articleId) :=
  reports_of_reads (getComments_reads json articleId _)
    fun _ => succeeds_answer resp (by decide) _

theorem reports_handleGetArticleDetail (id : Int) :
    Reports pattern (ApiHandler.handleGetArticleDetail json resp id) := by
  refine reports_of_reads (getArticleDetail_reads json id) fun result => ?_
  cases intValue result (text "code") 0 with
  | error exception =>
      intro response impossible
      cases impossible
  | ok code =>
      rw [Program.ofExcept_ok, Program.ret_bind]
      split
      · exact succeeds_answer resp (by decide) _
      · exact succeeds_answer resp (by decide) _

/-- What follows the service in the `try` block. -/
def finish (result : Json) : Service HttpResponse := do
  let code ← Program.ofExcept (intValue result (text "code") 0)
  pure (ApiHandler.answer resp (ApiHandler.createStatus code)
    (ApiHandler.jsonOk json result))

/-- A comment post: only a failed INSERT is reported as an error. -/
theorem reports_createComment
    (articleId : Int) (content commenter : Text)
    (recover : StdException → Service HttpResponse) :
    Reports pattern
      ((CommentService.createComment articleId content commenter >>=
        finish json resp).catching recover) := by
  rw [CommentService.createComment]
  split
  · exact reports_ret _
  split
  · exact reports_ret _
  intro outage empty
  rw [Call.perform, Program.perform_bind, Program.call_bind,
    Program.catching, reportsFrom_call_iff]
  cases found :
      (underOutage pattern (.getArticleById articleId) outage).1 with
  | none =>
      -- an article that could not be read is taken for an absent one
      have absent : SuccessOrAbsence .k404NotFound := by decide
      rintro response ⟨rfl⟩
      exact Or.inl ⟨absent,
        failed_underOutage_cases rfl (forall_failed empty Reads)⟩
  | some article =>
      have clean := (getArticleById_works found).trans empty
      generalize (underOutage pattern (.getArticleById articleId) outage).2
        = looked at clean
      rw [Call.perform, Program.perform_bind, Program.call_bind,
        Program.catching, reportsFrom_call_iff]
      generalize isComment :
        ({ articleId := articleId, content := content
           commenter := commenter } : Comment) = comment
      cases created :
          (underOutage pattern (.createComment comment) looked).1 with
      | false =>
          have error : ¬ SuccessOrAbsence .k500InternalError := by decide
          rintro response ⟨rfl⟩
          exact Or.inr ⟨error,
            failed_underOutage_cases rfl (forall_failed clean _)⟩
      | true =>
          have inserted := (createComment_works created).trans clean
          generalize
            (underOutage pattern (.createComment comment) looked).2 =
              posted at inserted
          -- neither the clock nor the cache can fail
          have quiet :
              (underOutage pattern
                (.del (CommentService.commentListKey articleId))
                (underOutage pattern .localTime posted).2).2.failed =
                [] :=
            (failed_underOutage rfl).trans
              ((failed_underOutage rfl).trans inserted)
          rintro response ⟨rfl⟩
          show Reported _
            (underOutage pattern
              (.del (CommentService.commentListKey articleId))
              (underOutage pattern .localTime posted).2).2.failed
          rw [quiet]
          exact reported_nil _

theorem reports_handleCreateComment (articleId : Int) :
    Reports pattern
      (ApiHandler.handleCreateComment json req resp articleId) := by
  rw [ApiHandler.handleCreateComment, ApiHandler.tryCreateComment]
  cases ApiHandler.parseBody json req.body with
  | error exception => exact reports_ret _
  | ok body =>
      rw [Program.ofExcept_ok, Program.ret_bind]
      cases stringValue body (text "content") [] with
      | error exception => exact reports_ret _
      | ok content =>
          rw [Program.ofExcept_ok, Program.ret_bind]
          cases stringValue body (text "commenter")
              (text "匿名用户") with
          | error exception => exact reports_ret _
          | ok commenter =>
              exact reports_createComment pattern json resp articleId
                content commenter _

theorem reports_handleComments :
    Reports pattern (ApiHandler.handleComments json req resp) := by
  rw [ApiHandler.handleComments]
  cases ApiHandler.commentsRe req.path with
  | none => exact reports_ret _
  | some digits =>
      apply reports_ofExcept_bind
      intro articleId
      split
      · exact reports_handleGetComments pattern json req resp articleId
      split
      · exact reports_handleCreateComment pattern json req resp articleId
      · exact reports_ret _

theorem reports_handleRequest :
    Reports pattern (ApiHandler.handleRequest json req resp) := by
  rw [ApiHandler.handleRequest]
  split
  · exact reports_ret _
  split
  · exact reports_handleGetArticles pattern json req resp
  split
  · exact reports_handleGetHotArticles pattern json req resp
  split
  · apply reports_ofExcept_bind
    intro id
    exact reports_handleGetArticleDetail pattern json resp id
  · exact reports_handleComments pattern json req resp

end Handlers

/--
A status of success or absence means that no call has failed, if and only if
nothing but the INSERT of a comment has failed.
-/
theorem outage_reported_iff
    (json : JsonLibrary) (pattern : Nat → Fault) (req : HttpRequest)
    (resp : HttpResponse) (start : World) {response : HttpResponse}
    (returns :
      (handleUnder json pattern req resp start).1 = .ok response) :
    (SuccessOrAbsence response.statusCode →
        (handleUnder json pattern req resp start).2.failed = []) ↔
      ∀ call ∈ (handleUnder json pattern req resp start).2.failed,
        isInsert call = true :=
  (reports_handleRequest pattern json req resp (.initial start) rfl
    response returns).iff

/-! ## A failed INSERT, and a read without a connection -/

/-- No connection comes for any call. -/
def noConnection (_ : Nat) : Fault where
  connects := false
  fails := fun _ => false

/-- Two articles, an empty Redis. -/
def freshWorld : World :=
  .initial twoArticles (fun _ => text "2026-06-01 10:00:00") fun _ => true

def getArticle2 : HttpRequest :=
  { method := ascii "GET", path := ascii "/api/articles/2" }

/-- A comment on article 2, without a name. -/
def postHello : HttpRequest :=
  { method := ascii "POST", path := ascii "/api/articles/2/comments"
    body := ascii "\x7b\"content\":\"Hello\"\x7d" }

/-- Every INSERT of a comment gets an error. -/
def noInsert (_ : Nat) : Fault where
  connects := true
  fails
    | .insertComment _ => true
    | _ => false

/-- The INSERT has failed, and the answer says that something has. -/
theorem outage_reported_of_failed_insert :
    ∃ response,
      (handleUnder Json.compactLibrary noInsert postHello {}
          freshWorld).1 = .ok response ∧
        (handleUnder Json.compactLibrary noInsert postHello {}
          freshWorld).2.failed ≠ [] ∧
        (SuccessOrAbsence response.statusCode →
          (handleUnder Json.compactLibrary noInsert postHello {}
            freshWorld).2.failed = []) := by
  cases returns :
      (handleUnder Json.compactLibrary noInsert postHello {}
        freshWorld).1 with
  | error exception =>
      have answered :
          (handleUnder Json.compactLibrary noInsert postHello {}
            freshWorld).1.isOk = true := by
        decide +kernel
      rw [returns] at answered
      cases answered
  | ok response =>
      refine ⟨response, rfl,
        List.ne_nil_of_length_pos (by decide +kernel), ?_⟩
      exact (outage_reported_iff Json.compactLibrary noInsert postHello
        {} freshWorld returns).mpr (by decide +kernel)

/-- An article that cannot be read is reported as absent. -/
theorem outage_reported_as_absence :
    ((handleUnder Json.compactLibrary noConnection getArticle2 {}
          freshWorld).1.toOption.map HttpResponse.statusCode =
        some .k404NotFound) ∧
      (handleUnder Json.compactLibrary noConnection getArticle2 {}
        freshWorld).2.failed = [.getArticleById 2] := by
  decide +kernel

end LightningServer.Handler
