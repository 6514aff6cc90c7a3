import LightningServer.Handler.StatusAgreement

/-!
# Which requests the router answers

The two routes with digits convert them with `stoi` outside any `try`, while
`parseIntParam` guards the same conversion for the query parameters.  In the
states that the API reaches, with counters below 2^31, a request is answered
exactly when `regex_match` returns on its path and the digits in it, if there
are any, are an `int`; otherwise the process ends, or the exception escapes
from the router.
-/

namespace LightningServer.Handler

open LightningServer.Foundation
open LightningServer.Foundation.Numerals
open LightningServer.Net
open LightningServer.Store
open LightningServer.Service
open LightningServer.Handler.ApiHandler

/-! ## Answers -/

/-- The handler has returned, and has set a status and a body. -/
def Answered (resp : HttpResponse)
    (outcome : Except StdException HttpResponse) : Prop :=
  ∃ code body, outcome = .ok (answer resp code body)

/--
The outcome of a request when the servers answer, or nothing when the process
ends in `regex_match`.
-/
def handledOn (returns : Bytes → Bytes → Bool) (json : JsonLibrary)
    (req : HttpRequest) (resp : HttpResponse) (world : World) :
    Option (Except StdException HttpResponse × World) :=
  (handleRequestOn json returns req resp).map fun service =>
    service.run exec world

/-- `regex_match` returns wherever the request comes to it. -/
def RegexReturns (returns : Bytes → Bytes → Bool) (req : HttpRequest) :
    Prop :=
  ∀ ending ∈ regexCalls req, returns ending req.path = true

instance (returns : Bytes → Bytes → Bool) (req : HttpRequest) :
    Decidable (RegexReturns returns req) :=
  inferInstanceAs (Decidable (∀ ending ∈ regexCalls req, _))

/-- The digits of the route, if there are any, are an `int`. -/
def DigitsFit (way : Route) : Prop :=
  ∀ digits ∈ way.digits, numberOf digits < 2 ^ 31

section Answers

variable {json : JsonLibrary} {initial : Database} {world : World}
variable (req : HttpRequest) (resp : HttpResponse)

theorem answered_pure (code : StatusCode) (body : Bytes) :
    Answered resp
      ((.ret (answer resp code body) : Service HttpResponse).run
        exec world).1 :=
  ⟨code, body, rfl⟩

theorem not_answered_error (exception : StdException) :
    ¬ Answered resp (.error exception) := by
  rintro ⟨code, body, impossible⟩
  cases impossible

theorem answered_bind
    {service : Service Json} {next : Json → Service HttpResponse}
    {document : Json} {later : World}
    (runs : service.run exec world = (.ok document, later))
    (answers : Answered resp ((next document).run exec later).1) :
    Answered resp ((service >>= next).run exec world).1 := by
  rw [Program.run_bind, runs]
  exact answers

/-- A route with digits answers exactly when they are an `int`. -/
theorem answered_digits_iff
    {digits : Bytes} (isDigits : IsDigits digits)
    {next : Int → Service HttpResponse}
    (answers : ∀ id, Answered resp ((next id).run exec world).1) :
    Answered resp
        ((Program.ofExcept (stoi (chars digits)) >>= next).run
          exec world).1 ↔
      numberOf digits < 2 ^ 31 := by
  rw [stoi_digits isDigits]
  by_cases fits : numberOf digits < 2 ^ 31
  · rw [if_pos fits]
    exact iff_of_true (answers _) fits
  · rw [if_neg fits]
    exact iff_of_false (not_answered_error resp .outOfRange) fits

theorem answered_articles :
    Answered resp ((handleGetArticles json req resp).run exec world).1 := by
  have pageFits := isInt_intParam req (ascii "page") (show IsInt 1 by decide)
  have sizeFits :=
    isInt_intParam req (ascii "pageSize") (show IsInt 10 by decide)
  rcases run_listArticles pageFits sizeFits with ⟨document, runs, -⟩
  exact answered_bind resp runs (answered_pure resp _ _)

/-- Counters below 2^31 are taken by `stoi`. -/
theorem answered_hot
    (state : ForumState json initial world) (narrow : CountersNarrow world) :
    Answered resp
      ((handleGetHotArticles json req resp).run exec world).1 := by
  rcases run_getHotArticles_document state.tallied
      (narrow.fit state.tallied (intParam req (ascii "limit") 10)) with
    ⟨document, runs, -⟩
  exact answered_bind resp runs (answered_pure resp _ _)

/-- A cached detail is read back, and has an integer code. -/
theorem answered_detail
    (state : ForumState json initial world) (id : Int) :
    Answered resp
      ((handleGetArticleDetail json resp id).run exec world).1 := by
  rcases run_getArticleDetail json state.caches id with
    ⟨code, document, later, runs, hasCode, isCode⟩
  refine answered_bind resp runs ?_
  rw [intValue_of_detail hasCode isCode, Program.ofExcept_ok,
    Program.ret_bind]
  split
  · exact answered_pure resp _ _
  · exact answered_pure resp _ _

theorem answered_comments
    (state : ForumState json initial world) (articleId : Int) :
    Answered resp
      ((handleGetComments json req resp articleId).run exec world).1 := by
  rcases run_getComments json (state.comments articleId)
      (intParam req (ascii "limit") 20) with ⟨document, later, runs, -⟩
  exact answered_bind resp runs (answered_pure resp _ _)

theorem answered_post (articleId : Int) :
    Answered resp
      ((handleCreateComment json req resp articleId).run exec world).1 := by
  rcases run_handleCreateComment_exec json req resp articleId world with
    ⟨response, later, runs, answers⟩
  rw [runs]
  cases answers with
  | refused code message isRefusal untouched => exact ⟨code, _, rfl⟩
  | created body content commenter now parses isContent isCommenter posted =>
      exact ⟨.k201Created, _, rfl⟩

/-! ## The routes -/

theorem answered_handled_iff
    (state : ForumState json initial world)
    (narrow : CountersNarrow world) :
    Answered resp (handled json req resp world).1 ↔
      DigitsFit (route req) := by
  have isDigits (digits : Bytes) (found : (route req).digits = some digits) :=
    isDigits_of_route found
  rw [handled, handleRequest_eq]
  generalize route req = way at isDigits
  have noDigits
      (none : way.digits = none)
      (answers :
        Answered resp ((handle json req resp way).run exec world).1) :
      Answered resp ((handle json req resp way).run exec world).1 ↔
        DigitsFit way := by
    refine iff_of_true answers ?_
    intro digits found
    rw [none] at found
    cases found
  have withDigits (digits : Bytes) (some : way.digits = some digits) :
      DigitsFit way ↔ numberOf digits < 2 ^ 31 := by
    rw [DigitsFit, some]
    simp
  cases way with
  | health => exact noDigits rfl (answered_pure resp _ _)
  | articles => exact noDigits rfl (answered_articles req resp)
  | hot => exact noDigits rfl (answered_hot req resp state narrow)
  | unknown => exact noDigits rfl (answered_pure resp _ _)
  | detail digits =>
      exact (answered_digits_iff resp (isDigits digits rfl)
        (answered_detail resp state)).trans (withDigits digits rfl).symm
  | getComments digits =>
      exact (answered_digits_iff resp (isDigits digits rfl)
        (answered_comments req resp state)).trans
          (withDigits digits rfl).symm
  | createComment digits =>
      exact (answered_digits_iff resp (isDigits digits rfl)
        (answered_post req resp)).trans (withDigits digits rfl).symm
  | wrongMethod digits =>
      exact (answered_digits_iff resp (isDigits digits rfl)
        fun _ => answered_pure resp _ _).trans (withDigits digits rfl).symm

end Answers

theorem handledOn_eq
    (returns : Bytes → Bytes → Bool) (json : JsonLibrary)
    (req : HttpRequest) (resp : HttpResponse) (world : World) :
    handledOn returns json req resp world =
      if (regexCalls req).all fun ending => returns ending req.path then
        some (handled json req resp world)
      else none := by
  rw [handledOn, handleRequestOn]
  split
  · rfl
  · rfl

/-- A stack that is used up by a path of more than 20000 bytes. -/
def shortPath (_ending path : Bytes) : Bool :=
  path.length ≤ 20000

/-- An article whose number does not fit into an `int`. -/
def getFarArticle : HttpRequest :=
  { method := ascii "GET", path := ascii "/api/articles/99999999999" }

end LightningServer.Handler
