import LightningServer.Handler.OutageReport
import LightningServer.Net.HttpSession
import LightningServer.Net.ResponseStream

/-!
# Header sections are fixed

A response of the API takes from the request, the database and the cache its
status code and its body, and nothing else: the header map is the one that the
session sets before the callback runs, and the message of the status line is
that of the code.  So a client can take the responses of a connection apart.
-/

namespace LightningServer.Handler

open LightningServer.Foundation
open LightningServer.Foundation.Numerals
open LightningServer.Net
open LightningServer.Net.HttpParser
open LightningServer.Net.HttpResponse
open LightningServer.Store
open LightningServer.Service

/-! ## What the handlers leave as it is -/

/-- The message that `setStatusCode` sets. -/
def messageOf (code : StatusCode) : Bytes :=
  (({} : HttpResponse).setStatusCode code).statusMessage

/-- The headers of another response, and the message of the own code. -/
structure SameHead (base resp : HttpResponse) : Prop where
  headers : resp.headers = base.headers
  message : resp.statusMessage = messageOf resp.statusCode

namespace ApiHandler

theorem sameHead_answer
    (resp : HttpResponse) (code : StatusCode) (body : Bytes) :
    SameHead resp (answer resp code body) where
  headers := rfl
  message := rfl

theorem yields_answer
    (resp : HttpResponse) (code : StatusCode) (body : Bytes) :
    (pure (answer resp code body) : Service HttpResponse).Yields
      (SameHead resp) :=
  sameHead_answer resp code body

variable (json : JsonLibrary)

theorem yields_handleGetArticleDetail (resp : HttpResponse) (id : Int) :
    (handleGetArticleDetail json resp id).Yields (SameHead resp) := by
  refine Program.yields_bind (fun result => ?_) _
  refine Program.yields_bind (fun code => ?_) _
  split
  · exact yields_answer resp _ _
  · exact yields_answer resp _ _

theorem yields_handleCreateComment
    (req : HttpRequest) (resp : HttpResponse) (articleId : Int) :
    (handleCreateComment json req resp articleId).Yields
      (SameHead resp) := by
  refine Program.yields_catching
    (fun _ => yields_answer resp _ _) ?_
  refine Program.yields_bind (fun body => ?_) _
  refine Program.yields_bind (fun content => ?_) _
  refine Program.yields_bind (fun commenter => ?_) _
  refine Program.yields_bind (fun result => ?_) _
  refine Program.yields_bind (fun code => ?_) _
  exact yields_answer resp _ _

theorem yields_handleComments (req : HttpRequest) (resp : HttpResponse) :
    (handleComments json req resp).Yields (SameHead resp) := by
  unfold handleComments
  split
  · refine Program.yields_bind (fun articleId => ?_) _
    split
    · exact Program.yields_bind (fun _ => yields_answer resp _ _) _
    · split
      · exact yields_handleCreateComment json req resp articleId
      · exact yields_answer resp _ _
  · exact yields_answer resp _ _

theorem yields_handleRequest (req : HttpRequest) (resp : HttpResponse) :
    (handleRequest json req resp).Yields (SameHead resp) := by
  unfold handleRequest
  simp only
  split
  · exact yields_answer resp _ _
  · split
    · exact Program.yields_bind (fun _ => yields_answer resp _ _) _
    · split
      · exact Program.yields_bind (fun _ => yields_answer resp _ _) _
      · split
        · exact Program.yields_bind
            (yields_handleGetArticleDetail json resp) _
        · exact yields_handleComments json req resp

end ApiHandler

/-! ## The headers that the session sets -/

theorem oneLine_messageOf (code : StatusCode) :
    OneLine (messageOf code) := by
  cases code <;> exact oneLine_ascii (by decide)

theorem cleanHeaders_addHeader
    {resp : HttpResponse} (clean : resp.CleanHeaders)
    {key value : Bytes} (field : CleanField key value) :
    (resp.addHeader key value).CleanHeaders := by
  intro name other found
  rw [addHeader, Std.ExtTreeMap.getElem?_insert] at found
  split at found
  · next same =>
      rw [Std.LawfulEqCmp.eq_of_compare same] at field
      cases found
      exact field
  · exact clean name other found

theorem cleanHeaders_empty : ({} : HttpResponse).CleanHeaders := by
  intro name value found
  have none : (∅ : StringMap)[name]? = none :=
    Std.ExtTreeMap.getElem?_empty
  rw [show ({} : HttpResponse).headers = ∅ from rfl, none] at found
  cases found

theorem cleanHeaders_defaultResponse :
    HttpSession.defaultResponse.CleanHeaders := by
  refine cleanHeaders_addHeader (cleanHeaders_addHeader
    (cleanHeaders_addHeader
      (cleanHeaders_addHeader cleanHeaders_empty ?_) ?_) ?_) ?_
  all_goals
    exact
      { nonempty := by decide
        noColon := by decide
        oneLine := oneLine_ascii (by decide)
        notLength := by decide
        value := oneLine_ascii (by decide) }

theorem SameHead.clean
    {base resp : HttpResponse} (same : SameHead base resp)
    (clean : base.CleanHeaders) : resp.Clean where
  headers := by
    rw [CleanHeaders, same.headers]
    exact clean
  message := by
    rw [same.message]
    exact oneLine_messageOf resp.statusCode

/-! ## Every response of a connection -/

/-- The callback of the server, when it is called in this world. -/
def apiCallback (json : JsonLibrary) {World : Type}
    (handler : (request : Call) → World → request.Reply × World)
    (world : World) : HttpCallback :=
  fun req resp =>
    ((ApiHandler.handleRequest json req resp).run handler world).1

/-- The header section with this code and this length of the body. -/
def fixedHead (code : StatusCode) (length : Nat) : Bytes :=
  HttpResponse.head
    { statusCode := code
      statusMessage := messageOf code
      headers := HttpSession.defaultResponse.headers
      body := List.replicate length 0 }

theorem SameHead.head_eq
    {resp : HttpResponse}
    (same : SameHead HttpSession.defaultResponse resp) :
    resp.head = fixedHead resp.statusCode resp.body.length := by
  simp only [fixedHead, head, statusLine, entries, same.headers,
    same.message, List.length_replicate]

/-- The response to `OPTIONS`, or what the callback makes of the default. -/
theorem sameHead_of_answer
    {json : JsonLibrary} {World : Type}
    {handler : (request : Call) → World → request.Reply × World}
    {world : World} {req : HttpRequest} {resp : HttpResponse}
    (answered :
      HttpSession.answer (some (apiCallback json handler world)) req =
        .ok resp) :
    SameHead HttpSession.defaultResponse resp := by
  unfold HttpSession.answer at answered
  split at answered
  · cases answered
    exact ApiHandler.sameHead_answer _ _ _
  · exact (ApiHandler.yields_handleRequest json req
      HttpSession.defaultResponse).of_run answered

theorem exists_of_respond
    {callback : Option HttpCallback} {session : HttpSession}
    {req : HttpRequest} {response : Bytes}
    (responds :
      .respond response ∈
        (HttpSession.handleRequest callback session req).2) :
    ∃ resp, HttpSession.answer callback req = .ok resp ∧
      response = resp.toString := by
  unfold HttpSession.handleRequest at responds
  cases answered : HttpSession.answer callback req with
  | error exception => simp [answered] at responds
  | ok resp =>
      simp only [answered, HttpSession.sendResponse, List.mem_cons,
        reduceCtorEq, false_or, SessionEvent.respond.injEq,
        List.not_mem_nil, or_false] at responds
      exact ⟨resp, rfl, responds⟩

/-! ## Streams of responses -/

/--
Clean responses are read back from their bytes, one after the other.  All that
a session with the API sends are clean, and their header sections depend on
nothing but the status code and the length of the body.
-/
theorem responses_decodable (json : JsonLibrary) :
    (∀ responses : List HttpResponse,
      (∀ resp ∈ responses, resp.Clean) →
        ResponseStream.decode (responses.flatMap HttpResponse.toString) =
          some responses) ∧
      ∀ (World : Type)
        (handler : (request : Call) → World → request.Reply × World)
        (world : World) (session : HttpSession) (req : HttpRequest)
        (response : Bytes),
        .respond response ∈
            (HttpSession.handleRequest
              (some (apiCallback json handler world)) session req).2 →
          ∃ resp : HttpResponse, response = resp.toString ∧ resp.Clean ∧
            response =
              fixedHead resp.statusCode resp.body.length ++ dblcrlf ++
                resp.body := by
  constructor
  · intro responses clean
    exact ResponseStream.decode_flatMap_toString clean
  · intro World handler world session req response responds
    rcases exists_of_respond responds with ⟨resp, answered, rfl⟩
    have same := sameHead_of_answer answered
    refine ⟨resp, rfl, same.clean cleanHeaders_defaultResponse, ?_⟩
    rw [← same.head_eq]
    exact resp.toString_eq

/-- A body that looks like the end of a header section and a response. -/
def lookalike : HttpResponse :=
  ApiHandler.answer HttpSession.defaultResponse .k200Ok
    (ascii "\r\n\r\nHTTP/1.1 404 Not Found\r\n\r\n")

def getHealth : HttpRequest :=
  { method := ascii "GET", path := ascii "/api/health" }

theorem clean_lookalike : lookalike.Clean :=
  (ApiHandler.sameHead_answer _ _ _).clean cleanHeaders_defaultResponse

theorem responses_decodable_of_lookalikes :
    ResponseStream.decode
        ([lookalike, lookalike].flatMap HttpResponse.toString) =
        some [lookalike, lookalike] ∧
      ∃ resp : HttpResponse,
        (ApiHandler.answer HttpSession.defaultResponse .k200Ok
            ApiHandler.healthBody).toString = resp.toString ∧ resp.Clean :=
  ⟨(responses_decodable Json.compactLibrary).1 _ (by
      intro resp member
      have isThis : resp = lookalike := by simpa using member
      rw [isThis]
      exact clean_lookalike), by
    rcases (responses_decodable Json.compactLibrary).2 World exec
        freshWorld .start getHealth _
        (by
          show _ ∈ [SessionEvent.dispatch getHealth, .respond _]
          exact List.mem_cons_of_mem _ List.mem_cons_self) with
      ⟨resp, same, clean, -⟩
    exact ⟨resp, same, clean⟩⟩

/-- A header in the map, and the same bytes in the status message. -/
def withField : HttpResponse :=
  ({} : HttpResponse).addHeader (ascii "K") (ascii "v")

def withinMessage : HttpResponse :=
  { statusMessage := ascii "OK\r\nK: v" }

/--
With conditions on the header map alone no reader works: a line end in the
message of the status line makes a header.
-/
theorem responses_not_decodable :
    ¬ ∃ reader : Bytes → Option (List HttpResponse),
      ∀ responses : List HttpResponse,
        (∀ resp ∈ responses, resp.CleanHeaders) →
          reader (responses.flatMap HttpResponse.toString) =
            some responses := by
  rintro ⟨reader, reads⟩
  have first :
      reader ([withField].flatMap HttpResponse.toString) =
        some [withField] := by
    apply reads
    intro resp member
    rw [List.mem_singleton.mp member]
    refine cleanHeaders_addHeader cleanHeaders_empty ?_
    exact
      { nonempty := by decide
        noColon := by decide
        oneLine := oneLine_ascii (by decide)
        notLength := by decide
        value := oneLine_ascii (by decide) }
  have second :
      reader ([withinMessage].flatMap HttpResponse.toString) =
        some [withinMessage] := by
    apply reads
    intro resp member
    rw [List.mem_singleton.mp member]
    exact cleanHeaders_empty
  have sameBytes :
      [withField].flatMap HttpResponse.toString =
        [withinMessage].flatMap HttpResponse.toString := by
    decide +kernel
  have different : withField ≠ withinMessage := by
    intro equal
    have message := congrArg HttpResponse.statusMessage equal
    exact absurd message (by decide)
  rw [sameBytes, second] at first
  exact different (List.cons.inj (Option.some.inj first)).1.symm

end LightningServer.Handler
