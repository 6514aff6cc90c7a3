import LightningServer.Handler.ApiThreads
import LightningServer.Handler.StatusAgreement
import LightningServer.Service.Reliance

/-!
# How every task ends

An exception in a handler ends the thread that runs it, so it matters which
tasks can throw.  Requests and syncs run on any number of threads, action by
action, with pools that run empty and servers that fail: a sync never throws,
and a request throws exactly when the digits in its path exceed an `int`.
Every other request ends with a response whose code agrees with its status.
-/

namespace LightningServer.Handler

open LightningServer.Foundation
open LightningServer.Foundation.Numerals
open LightningServer.Net
open LightningServer.Store
open LightningServer.Service
open LightningServer.Service.ArticleService
open LightningServer.Service.CommentService
open LightningServer.Handler.ApiHandler

/-! ## How a task may end -/

/-- The digits of the route, if it has some, are an `int`. -/
def Route.Fits (route : Route) : Prop :=
  ∀ digits ∈ route.digits, numberOf digits < 2 ^ 31

instance (route : Route) : Decidable route.Fits :=
  inferInstanceAs (Decidable (∀ digits ∈ route.digits, _))

/-- A response whose code agrees with its status. -/
def IsResponse (json : JsonLibrary)
    (outcome : Except StdException HttpResponse) : Prop :=
  ∃ response, outcome = .ok response ∧ Agrees json response

/-- How a task ends, whatever happens while it runs. -/
def TaskOutcome (json : JsonLibrary) :
    ApiTask → Except StdException (Option HttpResponse) → Prop
  | .request req _, outcome =>
      if (route req).Fits then
        ∃ response, outcome = .ok (some response) ∧ Agrees json response
      else outcome = .error .outOfRange
  | .syncViewCounts, outcome => outcome = .ok none

/-! ## The handlers -/

section Handlers

variable {json : JsonLibrary} {initial : Database} {limit : Nat}
variable (req : HttpRequest) (resp : HttpResponse)

/-- A service that answers with code 0, and the 200 for it. -/
theorem delivers_success
    {service : Service Json}
    (delivers :
      Delivers json initial limit service (IsAnswer (· = 0))) :
    Delivers json initial limit
      (service >>= fun result =>
        pure (answer resp .k200Ok (jsonOk json result)))
      (IsResponse json) := by
  apply Program.promises_bind delivers
  · rintro failure ⟨code, document, impossible, -⟩
    cases impossible
  · rintro document ⟨code, answered, isDocument, hasCode, rfl⟩
    cases isDocument
    exact ⟨_, rfl, agrees_answer json resp hasCode
      (saysSame_zero (by decide))⟩

theorem delivers_detail (id : Int) :
    Delivers json initial limit (handleGetArticleDetail json resp id)
      (IsResponse json) := by
  apply Program.promises_bind (delivers_getArticleDetail id)
  · rintro failure ⟨code, document, impossible, -⟩
    cases impossible
  · rintro document ⟨code, answered, isDocument, hasCode, isCode⟩
    cases isDocument
    rw [intValue_of_detail hasCode isCode, Program.ofExcept_ok,
      Program.ret_bind]
    rcases isCode with rfl | rfl
    · exact ⟨_, rfl, agrees_answer json resp hasCode
        (saysSame_zero (by decide))⟩
    · exact ⟨_, rfl, agrees_answer json resp hasCode
        (saysSame_status (by decide))⟩

/-- What is guarded by `try`: a response that it returns agrees. -/
def AgreesIfAny (json : JsonLibrary)
    (outcome : Except StdException HttpResponse) : Prop :=
  ∀ response, outcome = .ok response → Agrees json response

theorem agreesIfAny_error (exception : StdException) :
    AgreesIfAny json (.error exception) := by
  intro response impossible
  cases impossible

theorem delivers_ofExcept_bind
    {Value Result : Type} {result : Except StdException Value}
    {next : Value → Service Result}
    {post : Except StdException Result → Prop}
    (throws : ∀ exception, post (.error exception))
    (later : ∀ value, Delivers json initial limit (next value) post) :
    Delivers json initial limit (Program.ofExcept result >>= next) post := by
  cases result with
  | ok value => exact later value
  | error exception => exact throws exception

/-- The status for the code of a post says the same as the code. -/
theorem saysSame_createStatus {code : Int} (isCode : IsPostCode code) :
    IsInt code ∧ SaysSame (createStatus code) code := by
  rcases isCode with rfl | rfl | rfl | rfl
  · exact ⟨by decide, saysSame_zero (by decide)⟩
  · exact ⟨by decide, saysSame_status (by decide)⟩
  · exact ⟨by decide, saysSame_status (by decide)⟩
  · exact ⟨by decide, saysSame_status (by decide)⟩

theorem delivers_handleCreateComment
    {articleId : Int} (fits : IsInt articleId) :
    Delivers json initial limit
      (handleCreateComment json req resp articleId) (IsResponse json) := by
  have guarded :
      Delivers json initial limit
        (tryCreateComment json req resp articleId) (AgreesIfAny json) := by
    refine delivers_ofExcept_bind agreesIfAny_error fun body => ?_
    refine delivers_ofExcept_bind agreesIfAny_error fun content => ?_
    refine delivers_ofExcept_bind agreesIfAny_error fun commenter => ?_
    apply Program.promises_bind
      (delivers_createComment fits content commenter)
    · exact fun failure _ => agreesIfAny_error failure
    · rintro document ⟨code, answered, isDocument, hasCode, isCode⟩
      cases isDocument
      rcases saysSame_createStatus isCode with ⟨narrow, same⟩
      rw [intValue_of_hasCode hasCode narrow, Program.ofExcept_ok,
        Program.ret_bind]
      rintro response ⟨rfl⟩
      exact agrees_answer json resp hasCode same
  apply Program.promises_catching guarded
  · intro response agrees
    exact ⟨response, rfl, agrees response rfl⟩
  · intro failure _
    exact ⟨_, rfl, agrees_jsonError json resp
      (show ¬ IsSuccess .k400BadRequest by decide) _⟩

/-- A route with digits that fit, and the handler for their number. -/
theorem delivers_digits
    {digits : Bytes} (isDigits : IsDigits digits)
    {next : Int → Service HttpResponse}
    (later :
      ∀ number : Int, IsInt number →
        Delivers json initial limit (next number) (IsResponse json)) :
    Delivers json initial limit
      (Program.ofExcept (stoi (chars digits)) >>= next)
      (fun outcome =>
        if numberOf digits < 2 ^ 31 then IsResponse json outcome
        else outcome = .error .outOfRange) := by
  rw [stoi_digits isDigits]
  by_cases fits : numberOf digits < 2 ^ 31
  · simp only [if_pos fits]
    exact later _ ⟨by omega, by omega⟩
  · simp only [if_neg fits]
    rfl

end Handlers

/-! ## The routes -/

section Tasks

variable {json : JsonLibrary} {initial : Database} {limit : Nat}

/-- How a request ends, by its route. -/
def RouteOutcome (json : JsonLibrary) (route : Route)
    (outcome : Except StdException HttpResponse) : Prop :=
  if route.Fits then IsResponse json outcome
  else outcome = .error .outOfRange

theorem fits_of_none {route : Route} (noDigits : route.digits = none) :
    route.Fits := by
  intro digits found
  rw [noDigits] at found
  cases found

theorem fits_iff {route : Route} {digits : Bytes}
    (hasDigits : route.digits = some digits) :
    route.Fits ↔ numberOf digits < 2 ^ 31 := by
  simp [Route.Fits, hasDigits]

theorem delivers_of_none
    {route : Route} (noDigits : route.digits = none)
    {program : Service HttpResponse}
    (delivers :
      Delivers json initial limit program (IsResponse json)) :
    Delivers json initial limit program (RouteOutcome json route) := by
  have same : RouteOutcome json route = IsResponse json := by
    funext outcome
    rw [RouteOutcome, if_pos (fits_of_none noDigits)]
  rw [same]
  exact delivers

theorem delivers_of_digits
    {route : Route} {digits : Bytes}
    (hasDigits : route.digits = some digits) (isDigits : IsDigits digits)
    {next : Int → Service HttpResponse}
    (later :
      ∀ number : Int, IsInt number →
        Delivers json initial limit (next number) (IsResponse json)) :
    Delivers json initial limit
      (Program.ofExcept (stoi (chars digits)) >>= next)
      (RouteOutcome json route) := by
  have same :
      RouteOutcome json route = fun outcome =>
        if numberOf digits < 2 ^ 31 then IsResponse json outcome
        else outcome = .error .outOfRange := by
    funext outcome
    simp only [RouteOutcome, fits_iff hasDigits]
  rw [same]
  exact delivers_digits isDigits later

variable (reads : ReadsHealth json) (small : limit ≤ 2 ^ 31)

include reads small

theorem delivers_handle
    (req : HttpRequest) (resp : HttpResponse) {route : Route}
    (areDigits : ∀ digits ∈ route.digits, IsDigits digits) :
    Delivers json initial limit (handle json req resp route)
      (RouteOutcome json route) := by
  cases route with
  | health =>
      exact delivers_of_none rfl
        ⟨_, rfl, agrees_health reads resp⟩
  | articles =>
      apply delivers_of_none rfl
      exact delivers_success resp (delivers_listArticles
        (isInt_intParam req _ (by decide))
        (isInt_intParam req _ (by decide)))
  | hot =>
      apply delivers_of_none rfl
      exact delivers_success resp (delivers_getHotArticles small _)
  | detail digits =>
      exact delivers_of_digits rfl (areDigits digits rfl)
        fun id _ => delivers_detail resp id
  | getComments digits =>
      exact delivers_of_digits rfl (areDigits digits rfl)
        fun articleId _ =>
          delivers_success resp (delivers_getComments articleId _)
  | createComment digits =>
      exact delivers_of_digits rfl (areDigits digits rfl)
        fun articleId fits => delivers_handleCreateComment req resp fits
  | wrongMethod digits =>
      exact delivers_of_digits rfl (areDigits digits rfl)
        fun articleId _ => ⟨_, rfl, agrees_jsonError json resp
          (show ¬ IsSuccess .k405MethodNotAllowed by decide) _⟩
  | unknown =>
      exact delivers_of_none rfl
        ⟨_, rfl, agrees_jsonError json resp
          (show ¬ IsSuccess .k404NotFound by decide) _⟩

theorem delivers_taskCode (task : ApiTask) :
    Delivers json initial limit (taskCode json task)
      (TaskOutcome json task) := by
  cases task with
  | syncViewCounts =>
      apply Program.promises_bind (delivers_syncViewCounts small)
      · intro failure impossible
        cases impossible
      · intro done _
        rfl
  | request req resp =>
      have handled :
          Delivers json initial limit (handleRequest json req resp)
            (RouteOutcome json (route req)) := by
        rw [handleRequest_eq]
        exact delivers_handle reads small req resp
          fun digits found => isDigits_of_route found
      apply Program.promises_bind handled
      · intro failure outcome
        by_cases fits : (route req).Fits
        · rw [RouteOutcome, if_pos fits] at outcome
          rcases outcome with ⟨response, impossible, -⟩
          cases impossible
        · rw [RouteOutcome, if_neg fits] at outcome
          cases outcome
          rw [TaskOutcome, if_neg fits]
      · intro response outcome
        by_cases fits : (route req).Fits
        · rw [RouteOutcome, if_pos fits] at outcome
          rcases outcome with ⟨answered, isAnswer, agrees⟩
          cases isAnswer
          show TaskOutcome json _ (.ok (some response))
          rw [TaskOutcome, if_pos fits]
          exact ⟨response, rfl, agrees⟩
        · rw [RouteOutcome, if_neg fits] at outcome
          cases outcome

end Tasks

/-! ## Every run -/

section Runs

variable {json : JsonLibrary} (reads : ReadsHealth json)
variable (database : Database) (clock : Nat → Text) (accepts : Nat → Bool)

include reads

/-- On the level of whole calls. -/
theorem promised_callRun
    {calls : List CallEvent} (few : calls.length ≤ 2 ^ 31) :
    Promised execRuled (Sound json database) (2 ^ 31) (TaskOutcome json)
      (arrivals calls) calls.length
      (callRun json (.initial database clock accepts) calls) :=
  promised_run (fun _ _ sound => sound.older)
    (fun key _ _ sound => sound.timeOut key)
    (delivers_taskCode reads (Nat.le_refl _))
    (sound_initial json database clock accepts) few

/-- The calls behind a run of actions, and what their threads promise. -/
theorem exists_promised
    (unsent : Statement → World → Option (List Row) × World)
    (stock : Server → List Connection) {events : List ActionEvent}
    (articles : database.articles.length < 2 ^ 31)
    (comments : database.comments.length + events.length < 2 ^ 31) :
    ∃ calls : List CallEvent,
      let small :=
        actionRun json unsent stock (.initial database clock accepts) events
      let large := callRun json (.initial database clock accepts) calls
      Promised execRuled (Sound json database) (2 ^ 31) (TaskOutcome json)
          (arrivals events) calls.length large ∧
        large.world = small.world.world ∧
        ∀ index outcome, small.outcome? index = some outcome →
          large.outcome? index = some outcome := by
  rcases @exists_sameThreads json unsent stock
      (.initial database clock accepts) events articles comments with
    ⟨parts, linearizes, prefixes⟩
  have same := prefixes events.length
  rw [List.take_length, ← linearizes.length_eq.symm, List.take_length]
    at same
  have few := length_flatten_le linearizes
  refine ⟨parts.flatten, ?_, same.world,
    fun index outcome ended => same.outcome? ended⟩
  rw [← arrivals_flatten linearizes]
  exact promised_callRun reads database clock accepts (by omega)

/--
Whatever the threads, the servers and the expiring keys do, a task that has
ended did so as its request says: a sync returns, a request whose digits
exceed an `int` throws, and any other has a response that agrees with itself.
-/
theorem tasks_end_well
    (unsent : Statement → World → Option (List Row) × World)
    (stock : Server → List Connection) (events : List ActionEvent)
    (articles : database.articles.length < 2 ^ 31)
    (comments : database.comments.length + events.length < 2 ^ 31)
    {index : Nat} {outcome : Except StdException (Option HttpResponse)}
    (ended :
      (actionRun json unsent stock (.initial database clock accepts)
        events).outcome? index = some outcome) :
    ∃ task, (arrivals events)[index]? = some task ∧
      TaskOutcome json task outcome := by
  rcases exists_promised reads database clock accepts unsent stock articles
      comments with ⟨calls, promised, -, same⟩
  exact promised.outcome (same index outcome ended)

end Runs

/-- A reader of an article, and a sync that Redis does not answer. -/
def readerAndSync : List ActionEvent :=
  [.arrive (.request getArticle2 {}), .arrive .syncViewCounts] ++
    List.replicate 15 (.advance 0 served) ++
    List.replicate 3 (.advance 1 { served with reaches := false })

theorem tasks_end_well_of_readerAndSync :
    ∃ outcome,
      (actionRun Json.compactLibrary (fun _ world => (none, world))
          (initialPools fun _ => 1) freshWorld readerAndSync).outcome? 0 =
        some outcome ∧
        ∃ task, (arrivals readerAndSync)[0]? = some task ∧
          TaskOutcome Json.compactLibrary task outcome := by
  have answered :
      ((actionRun Json.compactLibrary (fun _ world => (none, world))
          (initialPools fun _ => 1) freshWorld readerAndSync).outcome?
        0).isSome = true := by
    decide +kernel
  cases ended :
      (actionRun Json.compactLibrary (fun _ world => (none, world))
        (initialPools fun _ => 1) freshWorld readerAndSync).outcome? 0 with
  | none =>
      rw [ended] at answered
      cases answered
  | some outcome =>
      exact ⟨outcome, rfl, tasks_end_well readsHealth_compactLibrary
        twoArticles freshWorld.clock freshWorld.accepts _ _ readerAndSync
        (by decide) (by decide) ended⟩

end LightningServer.Handler
