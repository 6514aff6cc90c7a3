import LightningServer.Net.WireRequest

/-!
# Parsing undoes rendering

A plain request has no query string and declares its body, when it has one,
by a final `Content-Length` line.  Whatever stands behind its rendering in the
buffer, the parser returns its parts and leaves exactly what stands behind.
-/

namespace LightningServer.Net

open LightningServer.Foundation
open LightningServer.Foundation.Framing
open LightningServer.Foundation.Numerals
open LightningServer.Net.HttpParser

/-- The line `Content-Length: size`. -/
def contentLengthField (size : Nat) : HeaderField where
  name := ascii "Content-Length"
  value := decimalBytes size
  name_nonempty := by decide
  name_ascii := forall_of_all (by decide)
  name_clean := forall_of_all (by decide)
  name_trimmed := by decide
  value_clean := by
    intro byte member
    have range := decimalBytes_range size byte member
    constructor <;> rintro rfl <;> exact absurd range (by decide)
  value_trimmed := by
    have digit : ∀ byte ∈ decimalBytes size, isOuter byte = false := by
      intro byte member
      have range := decimalBytes_range size byte member
      simp only [isOuter, Bool.or_eq_false_iff, decide_eq_false_iff_not]
      refine ⟨⟨⟨?_, ?_⟩, ?_⟩, ?_⟩ <;>
        rintro rfl <;> exact absurd range (by decide)
    constructor
    · intro byte first
      exact digit byte (List.mem_of_mem_head? first)
    · intro byte last
      exact digit byte (List.mem_of_getLast? last)

/-- A request without query string, framed by its last line. -/
structure PlainRequest where
  method : Token
  target : Token
  version : Token
  /-- no '?' -/
  target_plain : (63 : UInt8) ∉ target.bytes
  headers : List HeaderField
  headers_plain :
    ∀ field ∈ headers, field.key ≠ ascii "content-length"
  body : Bytes
  /-- the body is a string in memory, so its size is a `size_t` -/
  body_fits : body.length < 2 ^ 64

namespace PlainRequest

/-- The header lines as sent. -/
def lines (request : PlainRequest) : List HeaderField :=
  request.headers ++
    if request.body = [] then []
    else [contentLengthField request.body.length]

theorem lastValue_headers (request : PlainRequest) :
    lastValue request.headers (ascii "content-length") = none := by
  have other :
      request.headers.filter
          (fun field => field.key = ascii "content-length") = [] := by
    rw [List.filter_eq_nil_iff]
    intro field member
    simpa using request.headers_plain field member
  simp [lastValue, other]

def toWire (request : PlainRequest) : WireRequest where
  method := request.method
  target := request.target
  version := request.version
  fields := request.lines
  body := request.body
  body_fits := request.body_fits
  framed := by
    have plain := request.lastValue_headers
    by_cases bodyless : request.body = []
    · simp [lines, bodyless, plain]
    · have key :
          (contentLengthField request.body.length).key =
            ascii "content-length" := by
        show (ascii "Content-Length").map tolower = _
        decide
      have value :
          (contentLengthField request.body.length).value =
            decimalBytes request.body.length := rfl
      simp [lines, bodyless, lastValue, key, value]

def render (request : PlainRequest) : Bytes :=
  request.toWire.render

theorem parsed_toWire (request : PlainRequest) :
    request.toWire.parsed =
      { method := request.method.bytes
        path := request.target.bytes
        version := request.version.bytes
        headers := WireRequest.fieldMap request.lines ∅
        body := request.body } := by
  have noQuery : request.target.bytes.dropInfix? (ascii "?") = none :=
    dropInfix?_symbol_none request.target_plain
  simp [WireRequest.parsed, toWire, parseQueryString, noQuery]

/--
On a buffer whose readable bytes are a rendered request and then anything,
`parse` succeeds, returns the parts of the request (each lower-cased name
with the value of its last line), and leaves exactly what follows.
-/
theorem parse_render
    (request : PlainRequest) (rest : Bytes) (buf : Buffer)
    (holds : buf.readable = request.render ++ rest) :
    (parse buf {}).1 = .ok true ∧
      (parse buf {}).2.2.method = request.method.bytes ∧
      (parse buf {}).2.2.path = request.target.bytes ∧
      (parse buf {}).2.2.version = request.version.bytes ∧
      (∀ key : Bytes,
        (parse buf {}).2.2.headers[key]? =
          lastValue request.lines key) ∧
      (parse buf {}).2.2.body = request.body ∧
      (parse buf {}).2.1.readable = rest := by
  have view := parse_eq_parseBytes buf {}
  rw [holds, render, WireRequest.parseBytes_render, parsed_toWire] at view
  simp only [Prod.mk.injEq] at view
  obtain ⟨accepted, left, filled⟩ := view
  refine ⟨accepted, ?_, ?_, ?_, ?_, ?_, left⟩
  · rw [filled]
  · rw [filled]
  · rw [filled]
  · intro key
    rw [filled]
    simp [WireRequest.getElem?_fieldMap]
  · rw [filled]

end PlainRequest

/-! ## A sample request -/

namespace Sample

def token (literal : String) (nonempty : ascii literal ≠ [])
    (clean :
      (ascii literal).all (fun byte => decide (isspace byte = false)) =
        true) : Token where
  bytes := ascii literal
  nonempty := nonempty
  clean := forall_of_all clean

def host : HeaderField where
  name := ascii "Host"
  value := ascii "a"
  name_nonempty := by decide
  name_ascii := forall_of_all (by decide)
  name_clean := forall_of_all (by decide)
  name_trimmed := by decide
  value_clean := forall_of_all (by decide)
  value_trimmed := by decide

/-- A posted comment, three bytes of body. -/
def post : PlainRequest where
  method := token "POST" (by decide) (by decide)
  target := token "/c" (by decide) (by decide)
  version := token "HTTP/1.1" (by decide) (by decide)
  target_plain := by decide
  headers := [host]
  headers_plain := by decide
  body := ascii "abc"
  body_fits := by decide

/-- A request without header lines and without body. -/
def get : PlainRequest where
  method := token "GET" (by decide) (by decide)
  target := token "/" (by decide) (by decide)
  version := token "HTTP/1.1" (by decide) (by decide)
  target_plain := by decide
  headers := []
  headers_plain := by decide
  body := []
  body_fits := by decide

end Sample

theorem parse_render_post :
    (parse (bufferOf (Sample.post.render ++ ascii "GET"))
        {}).2.1.readable = ascii "GET" :=
  (PlainRequest.parse_render Sample.post (ascii "GET")
    (bufferOf (Sample.post.render ++ ascii "GET"))
    (by decide)).2.2.2.2.2.2

end LightningServer.Net
