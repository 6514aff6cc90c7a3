import LightningServer.Net.HttpMessage
import LightningServer.Service.CommentService

/-!
# The router

`handleRequest` and the handlers of the routes, as programs over the calls of
the services.  A path is matched as the two regular expressions do, with as
many digits as there are; the conversion of the digits to `int` can throw, and
the matching itself runs out of stack on very many of them.

Texts are sequences of characters and bodies are bytes: a response is the
UTF-8 form of the JSON text, and a request body that is not UTF-8 is no JSON.
-/

namespace LightningServer.Handler

open LightningServer.Foundation
open LightningServer.Foundation.Numerals
open LightningServer.Net
open LightningServer.Store
open LightningServer.Service

/-! ## UTF-8 -/

def utf8 (value : Text) : Bytes :=
  value.flatMap String.utf8EncodeChar

def decodeUtf8 (data : Bytes) : Option Text :=
  data.toByteArray.utf8Decode?.map Array.toList

@[simp]
theorem decodeUtf8_utf8 (value : Text) :
    decodeUtf8 (utf8 value) = some value := by
  have decoded :
      (utf8 value).toByteArray.utf8Decode? = some value.toArray :=
    List.utf8Decode?_utf8Encode
  rw [decodeUtf8, decoded]
  rfl

/-! ## Access to JSON values -/

def typeError : StdException :=
  .other (text "type_error")

/-- `data.value(name, defaultVal)` for an `int`. -/
def intValue (data : Json) (name : Text) (defaultVal : Int) :
    Except StdException Int :=
  match data with
  | .object _ =>
      match data.field? name with
      | none => .ok defaultVal
      | some (.number value) => .ok (toInt32 value)
      | some (.bool value) => .ok (if value then 1 else 0)
      | some _ => .error typeError
  | _ => .error typeError

/-- `data.value(name, defaultVal)` for a string. -/
def stringValue (data : Json) (name defaultVal : Text) :
    Except StdException Text :=
  match data with
  | .object _ =>
      match data.field? name with
      | none => .ok defaultVal
      | some (.string value) => .ok value
      | some _ => .error typeError
  | _ => .error typeError

namespace ApiHandler

/-! ## Parameters and paths -/

def parseIntParam (s : Bytes) (defaultVal : Int) : Int :=
  match stoi (chars s) with
  | .ok value => value
  | .error _ => defaultVal

/-- A query parameter, or its default when it is not there. -/
def intParam (req : HttpRequest) (name : Bytes) (defaultVal : Int) : Int :=
  match req.queryParams[name]? with
  | some value => parseIntParam value defaultVal
  | none => defaultVal

def isDigit (byte : UInt8) : Bool :=
  48 ≤ byte && byte ≤ 57

/-- What `regex_match` finds for `/api/articles/(\d+)` and a fixed end. -/
def matchId (ending path : Bytes) : Option Bytes :=
  let start := ascii "/api/articles/"
  let rest := path.drop start.length
  let digits := rest.takeWhile isDigit
  if path.take start.length = start ∧ digits ≠ [] ∧
      rest.drop digits.length = ending then
    some digits
  else none

def articleDetailRe (path : Bytes) : Option Bytes :=
  matchId [] path

def commentsRe (path : Bytes) : Option Bytes :=
  matchId (ascii "/comments") path

/-! ## Responses -/

section

variable (json : JsonLibrary)

def jsonOk (data : Json) : Bytes :=
  utf8 (json.dump data)

def jsonError (msg : Text) (code : Int) : Bytes :=
  jsonOk json (failure code msg)

/-- `setStatusCode`, then `setBody`. -/
def answer (resp : HttpResponse) (code : StatusCode) (body : Bytes) :
    HttpResponse :=
  (resp.setStatusCode code).setBody body

/-! ## The handlers -/

def handleGetArticles (req : HttpRequest) (resp : HttpResponse) :
    Service HttpResponse := do
  let page := intParam req (ascii "page") 1
  let pageSize := intParam req (ascii "pageSize") 10
  let result ← ArticleService.listArticles page pageSize
  pure (answer resp .k200Ok (jsonOk json result))

def handleGetArticleDetail (resp : HttpResponse) (id : Int) :
    Service HttpResponse := do
  let result ← ArticleService.getArticleDetail json id
  let code ← Program.ofExcept (intValue result (text "code") 0)
  if code = 404 then
    pure (answer resp .k404NotFound (jsonOk json result))
  else pure (answer resp .k200Ok (jsonOk json result))

def handleGetHotArticles (req : HttpRequest) (resp : HttpResponse) :
    Service HttpResponse := do
  let limit := intParam req (ascii "limit") 10
  let result ← ArticleService.getHotArticles limit
  pure (answer resp .k200Ok (jsonOk json result))

def handleGetComments (req : HttpRequest) (resp : HttpResponse)
    (articleId : Int) : Service HttpResponse := do
  let limit := intParam req (ascii "limit") 20
  let result ← CommentService.getComments json articleId limit
  pure (answer resp .k200Ok (jsonOk json result))

/-- `nlohmann::json::parse` of a request body. -/
def parseBody (body : Bytes) : Except StdException Json :=
  match (decodeUtf8 body).bind json.parse with
  | some parsed => .ok parsed
  | none => .error (.other (text "parse_error"))

/-- The status for the code of a comment post. -/
def createStatus (code : Int) : StatusCode :=
  if code = 400 then .k400BadRequest
  else if code = 404 then .k404NotFound
  else if code = 500 then .k500InternalError
  else .k201Created

/-- The block that is guarded by `try`. -/
def tryCreateComment (req : HttpRequest) (resp : HttpResponse)
    (articleId : Int) : Service HttpResponse := do
  let body ← Program.ofExcept (parseBody json req.body)
  let content ← Program.ofExcept (stringValue body (text "content") [])
  let commenter ←
    Program.ofExcept
      (stringValue body (text "commenter") (text "匿名用户"))
  let result ←
    CommentService.createComment articleId content commenter
  let code ← Program.ofExcept (intValue result (text "code") 0)
  pure (answer resp (createStatus code) (jsonOk json result))

def handleCreateComment (req : HttpRequest) (resp : HttpResponse)
    (articleId : Int) : Service HttpResponse :=
  (tryCreateComment json req resp articleId).catching fun _ =>
    pure (answer resp .k400BadRequest
      (jsonError json (text "Invalid JSON body") 400))

/-! ## The routes -/

/-- The part of `handleRequest` after the detail of an article. -/
def handleComments (req : HttpRequest) (resp : HttpResponse) :
    Service HttpResponse :=
  match commentsRe req.path with
  | some digits => do
      let articleId ← Program.ofExcept (stoi (chars digits))
      if req.method = ascii "GET" then
        handleGetComments json req resp articleId
      else if req.method = ascii "POST" then
        handleCreateComment json req resp articleId
      else
        pure (answer resp .k405MethodNotAllowed
          (jsonError json (text "Method not allowed") 405))
  | none =>
      pure (answer resp .k404NotFound
        (jsonError json (text "Not Found") 404))

def healthBody : Bytes :=
  ascii "\x7b\"code\":0,\"message\":\"ok\"\x7d"

def handleRequest (req : HttpRequest) (resp : HttpResponse) :
    Service HttpResponse :=
  let isGet : Bool := req.method = ascii "GET"
  if req.path = ascii "/api/health" ∧ isGet then
    pure (answer resp .k200Ok healthBody)
  else if req.path = ascii "/api/articles" ∧ isGet then
    handleGetArticles json req resp
  else if req.path = ascii "/api/articles/hot" ∧ isGet then
    handleGetHotArticles json req resp
  else
    match articleDetailRe req.path, isGet with
    | some digits, true => do
        let id ← Program.ofExcept (stoi (chars digits))
        handleGetArticleDetail json resp id
    | _, _ => handleComments json req resp

/-! ## The stack of `regex_match` -/

/-- The ends of the patterns that `handleRequest` matches a request with. -/
def regexCalls (req : HttpRequest) : List Bytes :=
  let isGet : Bool := req.method = ascii "GET"
  if req.path = ascii "/api/health" ∧ isGet then []
  else if req.path = ascii "/api/articles" ∧ isGet then []
  else if req.path = ascii "/api/articles/hot" ∧ isGet then []
  else
    match articleDetailRe req.path, isGet with
    | some _, true => [[]]
    | _, _ => [[], ascii "/comments"]

/--
`regex_match` recurses on every digit, and ends the process when the stack is
used up.  `returns` says for which pattern ends and paths it comes back.
-/
def handleRequestOn (returns : Bytes → Bytes → Bool) (req : HttpRequest)
    (resp : HttpResponse) : Option (Service HttpResponse) :=
  if (regexCalls req).all fun ending => returns ending req.path then
    some (handleRequest json req resp)
  else none

end

end ApiHandler

end LightningServer.Handler
