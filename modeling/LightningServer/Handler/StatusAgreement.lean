import LightningServer.Handler.ApiRuns
import LightningServer.Handler.CommentPost

/-!
# The status of a response and the code in its body

The status is set by the handlers and the code by the services.  They agree
on every route and in every state that the API reaches: a detail that is
replayed from the cache is one that was answered with code 0, and a post is
answered 201 only when its comment has been inserted.
-/

namespace LightningServer.Handler

open LightningServer.Foundation
open LightningServer.Foundation.Numerals
open LightningServer.Net
open LightningServer.Store
open LightningServer.Service
open LightningServer.Handler.ApiHandler

/-! ## Agreement -/

/-- The status of a success, for a response with or without a new row. -/
def IsSuccess (status : StatusCode) : Prop :=
  status.toNat = 200 ∨ status.toNat = 201

instance (status : StatusCode) : Decidable (IsSuccess status) :=
  inferInstanceAs (Decidable (_ ∨ _))

/-- A status and a code that say the same. -/
def SaysSame (status : StatusCode) (code : Int) : Prop :=
  (IsSuccess status ↔ code = 0) ∧ (code ≠ 0 → (status.toNat : Int) = code)

/-- The body is a JSON object whose integer code agrees with the status. -/
def Agrees (json : JsonLibrary) (response : HttpResponse) : Prop :=
  ∃ fields code,
    parseBody json response.body = .ok (.object fields) ∧
      (Json.object fields).field? (text "code") = some (.number code) ∧
      SaysSame response.statusCode code

theorem saysSame_zero {status : StatusCode} (success : IsSuccess status) :
    SaysSame status 0 := by
  constructor
  · exact iff_of_true success rfl
  · intro nonzero
    exact absurd rfl nonzero

theorem saysSame_status {status : StatusCode} (other : ¬ IsSuccess status) :
    SaysSame status status.toNat := by
  have positive : (status.toNat : Int) ≠ 0 := by
    cases status
    all_goals decide
  constructor
  · exact iff_of_false other positive
  · intro _
    rfl

/-- An object is what has a field. -/
theorem eq_object_of_field
    {document value : Json} {name : Text}
    (found : document.field? name = some value) :
    ∃ fields, document = .object fields := by
  cases document with
  | object fields => exact ⟨fields, rfl⟩
  | _ => cases found

theorem intValue_of_hasCode
    {document : Json} {code : Int} (hasCode : HasCode code document)
    (fits : IsInt code) :
    intValue document (text "code") 0 = .ok code := by
  rcases eq_object_of_field hasCode.field with ⟨fields, rfl⟩
  rw [intValue, hasCode.field]
  exact congrArg Except.ok (toInt32_of_isInt fits)

/-- The code of a detail is read as it is. -/
theorem intValue_of_detail
    {document : Json} {code : Int} (hasCode : HasCode code document)
    (isCode : code = 0 ∨ code = 404) :
    intValue document (text "code") 0 = .ok code := by
  apply intValue_of_hasCode hasCode
  rcases isCode with rfl | rfl
  · decide
  · decide

theorem parseBody_jsonOk
    (json : JsonLibrary) {document : Json}
    (canonical : document.Canonical) :
    parseBody json (jsonOk json document) = .ok document := by
  rw [parseBody, jsonOk, decodeUtf8_utf8, Option.bind_some,
    json.parse_dump document canonical]

theorem agrees_answer
    (json : JsonLibrary) (resp : HttpResponse) {status : StatusCode}
    {document : Json} {code : Int} (hasCode : HasCode code document)
    (same : SaysSame status code) :
    Agrees json (answer resp status (jsonOk json document)) := by
  rcases eq_object_of_field hasCode.field with ⟨fields, rfl⟩
  exact ⟨fields, code, parseBody_jsonOk json hasCode.canonical,
    hasCode.field, same⟩

theorem agrees_jsonError
    (json : JsonLibrary) (resp : HttpResponse) {status : StatusCode}
    (other : ¬ IsSuccess status) (message : Text) :
    Agrees json
      (answer resp status (jsonError json message status.toNat)) := by
  have fits : IsInt status.toNat := by
    cases status
    all_goals decide
  exact agrees_answer json resp (hasCode_failure fits message)
    (saysSame_status other)

/-- The literal of the health check, as the library reads it. -/
def healthDocument : Json :=
  Json.ofFields
    [(text "code", .number 0), (text "message", .string (text "ok"))]

/-- The library reads the literal of the health check as the object it is. -/
def ReadsHealth (json : JsonLibrary) : Prop :=
  json.parse (text "\x7b\"code\":0,\"message\":\"ok\"\x7d") =
    some healthDocument

theorem agrees_health
    {json : JsonLibrary} (reads : ReadsHealth json) (resp : HttpResponse) :
    Agrees json (answer resp .k200Ok healthBody) := by
  have isUtf8 :
      healthBody =
        utf8 (text "\x7b\"code\":0,\"message\":\"ok\"\x7d") := by
    decide +kernel
  refine ⟨[(text "code", .number 0), (text "message", .string (text "ok"))],
    0, ?_, rfl, saysSame_zero (Or.inl rfl)⟩
  show parseBody json healthBody = _
  rw [parseBody, isUtf8, decodeUtf8_utf8, Option.bind_some, reads]
  rfl

/-! ## The routes -/

/-- Whatever the program answers in this world agrees, and is not 201. -/
def AnswersAgree (json : JsonLibrary) (world : World)
    (program : Service HttpResponse) : Prop :=
  ∀ response, (program.run exec world).1 = .ok response →
    Agrees json response ∧ response.statusCode ≠ .k201Created

section Routes

variable {json : JsonLibrary} {initial : Database} {world : World}
variable (req : HttpRequest) (resp : HttpResponse)

theorem answersAgree_pure
    {status : StatusCode} {body : Bytes}
    (agrees : Agrees json (answer resp status body))
    (notCreated : status ≠ .k201Created) :
    AnswersAgree json world (.ret (answer resp status body)) := by
  rintro answered ⟨rfl⟩
  exact ⟨agrees, notCreated⟩

theorem answersAgree_ofExcept_bind
    {Value : Type} {result : Except StdException Value}
    {next : Value → Service HttpResponse}
    (later : ∀ value, AnswersAgree json world (next value)) :
    AnswersAgree json world (Program.ofExcept result >>= next) := by
  cases result with
  | ok value => exact later value
  | error exception =>
      intro response impossible
      cases impossible

/-- A service that answers a document, and the handler after it. -/
theorem answersAgree_bind
    {service : Service Json} {next : Json → Service HttpResponse}
    {document : Json} {later : World}
    (runs : service.run exec world = (.ok document, later))
    (agrees : AnswersAgree json later (next document)) :
    AnswersAgree json world (service >>= next) := by
  intro response returns
  rw [Program.run_bind, runs] at returns
  exact agrees response returns

theorem isInt_intParam
    (name : Bytes) {defaultVal : Int} (fits : IsInt defaultVal) :
    IsInt (intParam req name defaultVal) := by
  rw [intParam]
  cases req.queryParams[name]? with
  | none => exact fits
  | some value =>
      show IsInt (parseIntParam value defaultVal)
      rw [parseIntParam]
      cases read : stoi (chars value) with
      | error exception => exact fits
      | ok number => exact isInt_of_stoi read

theorem answersAgree_articles :
    AnswersAgree json world (handleGetArticles json req resp) := by
  have pageFits := isInt_intParam req (ascii "page") (show IsInt 1 by decide)
  have sizeFits :=
    isInt_intParam req (ascii "pageSize") (show IsInt 10 by decide)
  rcases run_listArticles pageFits sizeFits with ⟨document, runs, hasCode⟩
  exact answersAgree_bind runs
    (answersAgree_pure resp (agrees_answer json resp hasCode
      (saysSame_zero (by decide))) (by decide))

theorem answersAgree_detail
    (state : ForumState json initial world) (id : Int) :
    AnswersAgree json world (handleGetArticleDetail json resp id) := by
  rcases run_getArticleDetail json state.caches id with
    ⟨code, document, later, runs, hasCode, isCode⟩
  refine answersAgree_bind runs ?_
  rw [intValue_of_detail hasCode isCode, Program.ofExcept_ok,
    Program.ret_bind]
  rcases isCode with rfl | rfl
  · exact answersAgree_pure resp (agrees_answer json resp hasCode
      (saysSame_zero (by decide))) (by decide)
  · exact answersAgree_pure resp (agrees_answer json resp hasCode
      (saysSame_status (by decide))) (by decide)

theorem answersAgree_hot (state : ForumState json initial world) :
    AnswersAgree json world (handleGetHotArticles json req resp) := by
  by_cases fits :
      HotCountersFit world.redis (intParam req (ascii "limit") 10)
  · rcases run_getHotArticles_document state.tallied fits with
      ⟨document, runs, hasCode⟩
    exact answersAgree_bind runs
      (answersAgree_pure resp (agrees_answer json resp hasCode
        (saysSame_zero (by decide))) (by decide))
  · intro response returns
    rw [handleGetHotArticles, Program.run_bind,
      run_getHotArticles state.tallied, if_neg fits] at returns
    cases returns

theorem answersAgree_comments
    (state : ForumState json initial world) (articleId : Int) :
    AnswersAgree json world
      (handleGetComments json req resp articleId) := by
  rcases run_getComments json (state.comments articleId)
      (intParam req (ascii "limit") 20) with
    ⟨document, later, runs, hasCode⟩
  exact answersAgree_bind runs
    (answersAgree_pure resp (agrees_answer json resp hasCode
      (saysSame_zero (by decide))) (by decide))

end Routes

/-! ## Comment posts -/

/-- Without a fault, an outage is only the world. -/
theorem run_underOutage_none
    {Value : Type} (program : Service Value) (outage : Outage) :
    (program.run (underOutage fun _ => .none) outage).1 =
        (program.run exec outage.world).1 ∧
      (program.run (underOutage fun _ => .none) outage).2.world =
        (program.run exec outage.world).2 := by
  refine Program.run_projection exec ?_ program outage
  intro call state
  show (execUnder .none call state.world).1 = _ ∧
    (execUnder .none call state.world).2 = _
  rw [execUnder_none]
  exact ⟨rfl, rfl⟩

/-- A comment post when the servers answer. -/
theorem run_handleCreateComment_exec
    (json : JsonLibrary) (req : HttpRequest) (resp : HttpResponse)
    (articleId : Int) (world : World) :
    ∃ response later,
      (handleCreateComment json req resp articleId).run exec world =
          (.ok response, later) ∧
        PostAnswer json req resp articleId world later response := by
  rcases run_handleCreateComment json (fun _ => .none) req resp articleId
      (.initial world) with ⟨response, outage, runs, answers, -⟩
  rcases run_underOutage_none
      (handleCreateComment json req resp articleId) (.initial world) with
    ⟨sameAnswer, sameWorld⟩
  rw [runs] at sameAnswer sameWorld
  exact ⟨response, outage.world,
    Prod.ext sameAnswer.symm sameWorld.symm, answers⟩

theorem PostAnswer.agrees
    {json : JsonLibrary} {req : HttpRequest} {resp response : HttpResponse}
    {articleId : Int} {before after : World}
    (answers : PostAnswer json req resp articleId before after response)
    (fits : IsInt articleId) :
    Agrees json response := by
  cases answers with
  | refused code message isRefusal untouched =>
      have other : ¬ IsSuccess code := by
        rcases isRefusal with isCode | isCode | isCode
        all_goals
          rintro (impossible | impossible)
          · omega
          · omega
      exact agrees_jsonError json resp other message
  | created body content commenter now parses isContent isCommenter posted =>
      exact agrees_answer json resp
        (hasCode_commentCreated ⟨show IsInt 0 by decide, fits⟩)
        (saysSame_zero (by decide))

/-! ## Every request -/

/-- The request is a post that has inserted its comment. -/
def AcceptedPost (json : JsonLibrary) (req : HttpRequest)
    (before after : World) : Prop :=
  ∃ digits articleId body content commenter,
    route req = .createComment digits ∧
      stoi (chars digits) = .ok articleId ∧
      parseBody json req.body = .ok body ∧
      stringValue body (text "content") [] = .ok content ∧
      stringValue body (text "commenter") (text "匿名用户") =
        .ok commenter ∧
      Posted articleId content commenter before after

section Requests

variable {json : JsonLibrary} {initial : Database} {world : World}

/-- What a response says, and what has happened when it says 201. -/
def Honest (json : JsonLibrary) (req : HttpRequest)
    (before after : World) (response : HttpResponse) : Prop :=
  Agrees json response ∧
    (response.statusCode = .k201Created →
      AcceptedPost json req before after)

theorem AnswersAgree.honest
    {program : Service HttpResponse} {req : HttpRequest}
    {response : HttpResponse} (agree : AnswersAgree json world program)
    (returns : (program.run exec world).1 = .ok response)
    (later : World) :
    Honest json req world later response := by
  rcases agree response returns with ⟨agrees, notCreated⟩
  exact ⟨agrees, fun created => absurd created notCreated⟩

theorem PostAnswer.honest
    {req : HttpRequest} {resp response : HttpResponse} {digits : Bytes}
    {articleId : Int} {later : World}
    (isRoute : route req = .createComment digits)
    (number : stoi (chars digits) = .ok articleId)
    (answers : PostAnswer json req resp articleId world later response) :
    Honest json req world later response := by
  refine ⟨answers.agrees (isInt_of_stoi number), fun created => ?_⟩
  cases answers with
  | refused code message isRefusal untouched =>
      have isCreated : code = .k201Created := created
      rw [isCreated] at isRefusal
      rcases isRefusal with impossible | impossible | impossible
      all_goals exact absurd impossible (by decide)
  | created body content commenter now parses isContent isCommenter posted =>
      exact ⟨digits, articleId, body, content, commenter, isRoute, number,
        parses, isContent, isCommenter, posted⟩

theorem honest_handled
    (reads : ReadsHealth json) (state : ForumState json initial world)
    (req : HttpRequest) (resp : HttpResponse) {response : HttpResponse}
    (returns : (handled json req resp world).1 = .ok response) :
    Honest json req world (handled json req resp world).2 response := by
  generalize after : (handled json req resp world).2 = later
  rw [handled, handleRequest_eq] at returns after
  cases isRoute : route req with
  | health =>
      rw [isRoute] at returns
      exact (answersAgree_pure resp (agrees_health reads resp)
        (by decide)).honest returns later
  | articles =>
      rw [isRoute] at returns
      exact (answersAgree_articles req resp).honest returns later
  | hot =>
      rw [isRoute] at returns
      exact (answersAgree_hot req resp state).honest returns later
  | detail digits =>
      rw [isRoute] at returns
      exact (answersAgree_ofExcept_bind fun id =>
        answersAgree_detail resp state id).honest returns later
  | getComments digits =>
      rw [isRoute] at returns
      exact (answersAgree_ofExcept_bind fun id =>
        answersAgree_comments req resp state id).honest returns later
  | wrongMethod digits =>
      rw [isRoute] at returns
      exact (answersAgree_ofExcept_bind fun _ => answersAgree_pure resp
        (agrees_jsonError json resp (by decide) _)
        (by decide)).honest returns later
  | unknown =>
      rw [isRoute] at returns
      exact (answersAgree_pure resp
        (agrees_jsonError json resp (by decide) _)
        (by decide)).honest returns later
  | createComment digits =>
      rw [isRoute, handle] at returns after
      cases number : stoi (chars digits) with
      | error exception =>
          rw [number] at returns
          cases returns
      | ok articleId =>
          rw [number, Program.ofExcept_ok, Program.ret_bind] at returns after
          rcases run_handleCreateComment_exec json req resp articleId
              world with ⟨answered, posted, runs, answers⟩
          rw [runs] at returns after
          cases returns
          rw [← show posted = later from after]
          exact answers.honest isRoute number

end Requests

/-! ## Every run -/

/--
After every run of the API, a request that returns is answered with a JSON
object whose code agrees with the status, and with 201 only when it is a
comment post that has inserted its comment.
-/
theorem status_agrees
    (json : JsonLibrary) (reads : ReadsHealth json) (database : Database)
    (clock : Nat → Text) (accepts : Nat → Bool) (events : List ApiEvent)
    (req : HttpRequest) (resp : HttpResponse) {response : HttpResponse}
    (returns :
      (handled json req resp
        (apiRun json database clock accepts events)).1 = .ok response) :
    Agrees json response ∧
      (response.statusCode = .k201Created →
        AcceptedPost json req (apiRun json database clock accepts events)
          (handled json req resp
            (apiRun json database clock accepts events)).2) :=
  honest_handled reads
    (forumState_apiRun json database clock accepts events) req resp returns

theorem readsHealth_compactLibrary : ReadsHealth Json.compactLibrary := by
  have dumps :
      healthDocument.dump =
        text "\x7b\"code\":0,\"message\":\"ok\"\x7d" := by
    decide +kernel
  have canonical : healthDocument.Canonical :=
    (hasCode_failure (show IsInt 0 by decide) (text "ok")).canonical
  rw [ReadsHealth, ← dumps]
  exact Json.compactLibrary.parse_dump healthDocument canonical

/-- The world after a first request for the detail of article 2. -/
def cachedWorld : World :=
  apiRun Json.compactLibrary twoArticles freshWorld.clock
    freshWorld.accepts [.request getArticle2 {}]

theorem status_agrees_of_cached :
    ∃ response,
      (handled Json.compactLibrary getArticle2 {} cachedWorld).1 =
          .ok response ∧
        Agrees Json.compactLibrary response := by
  have answered :
      (handled Json.compactLibrary getArticle2 {} cachedWorld).1.toOption.map
        HttpResponse.statusCode = some .k200Ok := by
    decide +kernel
  cases returns :
      (handled Json.compactLibrary getArticle2 {} cachedWorld).1 with
  | error exception =>
      rw [returns] at answered
      cases answered
  | ok response =>
      exact ⟨response, rfl,
        (status_agrees Json.compactLibrary readsHealth_compactLibrary
          twoArticles freshWorld.clock freshWorld.accepts
          [.request getArticle2 {}] getArticle2 {} returns).1⟩

end LightningServer.Handler
