import LightningServer.Net.Bytes
import Std.Data.ExtTreeMap

/-!
# HTTP requests and responses

`std::map` and `std::unordered_map` are extensional tree maps: two maps are
equal when every key has the same value, and iteration is in key order.
-/

namespace LightningServer.Net

/-- `std::map<std::string, std::string>`. -/
abbrev StringMap := Std.ExtTreeMap Bytes Bytes

structure HttpRequest where
  method : Bytes := []
  path : Bytes := []
  version : Bytes := []
  headers : StringMap := ∅
  body : Bytes := []
  queryParams : StringMap := ∅
deriving DecidableEq

/-- The header map is asked for the name as written here. -/
def HttpRequest.keepAlive (req : HttpRequest) : Bool :=
  match req.headers[ascii "Connection"]? with
  | some value => value = ascii "keep-alive"
  | none => req.version = ascii "HTTP/1.1"

inductive StatusCode where
  | k200Ok
  | k201Created
  | k400BadRequest
  | k404NotFound
  | k405MethodNotAllowed
  | k500InternalError
  | k503ServiceUnavailable
deriving DecidableEq

def StatusCode.toNat : StatusCode → Nat
  | .k200Ok => 200
  | .k201Created => 201
  | .k400BadRequest => 400
  | .k404NotFound => 404
  | .k405MethodNotAllowed => 405
  | .k500InternalError => 500
  | .k503ServiceUnavailable => 503

structure HttpResponse where
  statusCode : StatusCode := .k200Ok
  statusMessage : Bytes := ascii "OK"
  headers : StringMap := ∅
  body : Bytes := []
deriving DecidableEq

namespace HttpResponse

def setStatusCode (resp : HttpResponse) (code : StatusCode) :
    HttpResponse :=
  { resp with
    statusCode := code
    statusMessage :=
      match code with
      | .k200Ok => ascii "OK"
      | .k201Created => ascii "Created"
      | .k400BadRequest => ascii "Bad Request"
      | .k404NotFound => ascii "Not Found"
      | .k405MethodNotAllowed => ascii "Method Not Allowed"
      | .k500InternalError => ascii "Internal Server Error"
      | .k503ServiceUnavailable => ascii "Service Unavailable" }

def addHeader (resp : HttpResponse) (key value : Bytes) : HttpResponse :=
  { resp with headers := resp.headers.insert key value }

def setContentType (resp : HttpResponse) (type : Bytes) : HttpResponse :=
  resp.addHeader (ascii "Content-Type") type

def setBody (resp : HttpResponse) (body : Bytes) : HttpResponse :=
  { resp with body := body }

def crlf : Bytes := [carriageReturn, lineFeed]

/-- One header line of `toString`. -/
def headerLine (entry : Bytes × Bytes) : Bytes :=
  entry.1 ++ ascii ": " ++ entry.2 ++ crlf

def toString (resp : HttpResponse) : Bytes :=
  ascii "HTTP/1.1 " ++ decimalBytes resp.statusCode.toNat ++ [space] ++
      resp.statusMessage ++ crlf ++
    resp.headers.toList.flatMap headerLine ++
    ascii "Content-Length: " ++ decimalBytes resp.body.length ++ crlf ++
    crlf ++ resp.body

end HttpResponse

end LightningServer.Net
