import LightningServer.Net.Acceptance
import LightningServer.Net.WireRequest

/-!
# Requests as header blocks

A `BlockRequest` is a request as the parser cuts it: a header block up to the
first blank line, and a body.  Nothing is said about the lines but what the
parser needs, three words on the first one and the size of the body in the
last `Content-Length` line, if there is one.  Spaces, line ends, repeated
lines and leading zeros are the client's choice.
-/

namespace LightningServer.Net

open LightningServer.Foundation
open LightningServer.Foundation.Framing
open LightningServer.Foundation.Numerals
open LightningServer.Net.HttpParser

/-- A request line, any header lines, a blank line and a body. -/
structure BlockRequest where
  block : Bytes
  body : Bytes
  /-- the first line, as `getline` reads it -/
  line : Bytes
  rest : List Bytes
  method : Bytes
  target : Bytes
  version : Bytes
  ends : (block ++ dblcrlf).dropInfix? dblcrlf = some (block, [])
  lines : getlines lineFeed block = line :: rest
  tokens : words isspace line = [method, target, version]
  /-- the body is a string in memory, so its size is a `size_t` -/
  body_fits : body.length < 2 ^ 64
  framed :
    match ((strippedLines rest).filterMap
        (valueNamed (ascii "content-length"))).getLast? with
    | none => body = []
    | some value =>
        value ≠ [] ∧ (∀ byte ∈ value, isdigit byte = true) ∧
          lengthOf value = body.length

namespace BlockRequest

variable (request : BlockRequest)

/-- The bytes of the request. -/
def data : Bytes :=
  request.block ++ dblcrlf ++ request.body

theorem length_data :
    request.data.length =
      request.block.length + 4 + request.body.length := by
  simp only [data, List.length_append, dblcrlf, List.length_cons,
    List.length_nil]

theorem dropInfix?_block (after : Bytes) :
    (request.block ++ dblcrlf ++ after).dropInfix? dblcrlf =
      some (request.block, after) :=
  dropInfix?_append request.ends after

theorem dropInfix?_data :
    request.data.dropInfix? dblcrlf = some (request.block, request.body) :=
  request.dropInfix?_block request.body

/-! ## The line loop -/

theorem parseRequestLine_line :
    parseRequestLine (popCarriageReturn request.line) {} =
      (true, parseQueryString request.target
        { method := request.method, path := request.target
          version := request.version }) := by
  have tokens :
      words isspace (popCarriageReturn request.line) =
        [request.method, request.target, request.version] :=
    (words_popCarriageReturn request.line).trans request.tokens
  exact parseRequestLine_of_words tokens {}

theorem strippedLines_block :
    strippedLines (getlines lineFeed request.block) =
      popCarriageReturn request.line :: strippedLines request.rest := by
  have someWord : popCarriageReturn request.line ≠ [] := by
    intro empty
    have tokens :=
      (words_popCarriageReturn request.line).trans request.tokens
    rw [empty] at tokens
    cases tokens
  rw [request.lines, strippedLines_cons, if_neg someWord]

/-- The request that the line loop leaves. -/
def headed : HttpRequest :=
  storeHeaders (strippedLines request.rest)
    (parseRequestLine (popCarriageReturn request.line) {}).2

/-- The request line is stored, and then the other lines. -/
theorem parseLines_block :
    parseLines true (getlines lineFeed request.block) {} =
      (true, request.headed) := by
  rw [parseLines_true_eq, strippedLines_block]
  simp only [parseRequestLine_line, if_true, headed]

theorem declaredLength_block :
    declaredLength request.block =
      ((strippedLines request.rest).filterMap
        (valueNamed (ascii "content-length"))).getLast? := by
  rw [declaredLength, strippedLines_block]
  simp only [parseRequestLine_line, if_true]

theorem declared_headed :
    request.headed.headers[ascii "content-length"]? =
      ((strippedLines request.rest).filterMap
        (valueNamed (ascii "content-length"))).getLast? := by
  have declared := getElem?_contentLength request.block
  rw [parseLines_block] at declared
  exact declared.trans request.declaredLength_block

theorem body_headed : request.headed.body = [] := by
  have kept := body_parseLines true (getlines lineFeed request.block) {}
  rw [parseLines_block] at kept
  exact kept

/-- The declared size is the size of the body. -/
theorem stoul_declared
    {value : Bytes}
    (declared :
      request.headed.headers[ascii "content-length"]? = some value) :
    stoul (chars value) = .ok request.body.length := by
  have framed := request.framed
  rw [← declared_headed, declared] at framed
  rcases framed with ⟨nonempty, digits, size⟩
  have some : chars value ≠ [] := by
    simpa [chars] using nonempty
  have fits : Nat.ofDigitChars 10 (chars value) 0 < 2 ^ 64 := by
    rw [← lengthOf, size]
    exact request.body_fits
  rw [stoul_digits some (isDigit_chars digits) fits, ← lengthOf, size]

/-! ## What the parser makes of it -/

/-- What the parser reads from the request alone. -/
def parsed : HttpRequest :=
  (parse (bufferOf request.data) {}).2.2

theorem takeBody_body (rest : Bytes) :
    takeBody request.headed (request.body ++ rest) =
      (.ok true, rest, { request.headed with body := request.body }) := by
  cases declared :
      request.headed.headers[ascii "content-length"]? with
  | none =>
      have framed := request.framed
      rw [← declared_headed, declared] at framed
      have empty : request.body = [] := framed
      rw [takeBody_of_none _ declared, empty, List.nil_append,
        ← request.body_headed]
  | some value =>
      rw [takeBody_of_enough declared (request.stoul_declared declared)
        (by simp), List.drop_left, List.take_left]

/-- The parser takes exactly the request, and accepts it. -/
theorem parseBytes_headed (rest : Bytes) :
    parseBytes (request.data ++ rest) {} =
      (.ok true, rest, { request.headed with body := request.body }) := by
  rw [parseBytes, data, List.append_assoc, dropInfix?_block]
  simp only [parseLines_block, takeBody_body]

theorem parsed_eq :
    request.parsed = { request.headed with body := request.body } := by
  have view := parse_eq_parseBytes (bufferOf request.data) {}
  have whole := request.parseBytes_headed []
  rw [List.append_nil] at whole
  rw [readable_bufferOf, whole] at view
  exact congrArg (fun outcome => outcome.2.2) view

theorem parseBytes_data (rest : Bytes) :
    parseBytes (request.data ++ rest) {} =
      (.ok true, rest, request.parsed) := by
  rw [parseBytes_headed, parsed_eq]

theorem accepted : (parse (bufferOf request.data) {}).1 = .ok true := by
  have view := parse_eq_parseBytes (bufferOf request.data) {}
  have whole := request.parseBytes_data []
  rw [List.append_nil] at whole
  rw [readable_bufferOf, whole] at view
  exact congrArg Prod.fst view

theorem body_parsed : request.parsed.body = request.body := by
  rw [parsed_eq]

/-- A header block whose body has not arrived completely is consumed. -/
theorem parseBytes_short
    (after : Bytes) (short : after.length < request.body.length) :
    parseBytes (request.block ++ dblcrlf ++ after) {} =
      (.ok false, after, request.headed) := by
  rw [parseBytes, dropInfix?_block]
  simp only [parseLines_block, takeBody]
  cases declared :
      request.headed.headers[ascii "content-length"]? with
  | none =>
      have framed := request.framed
      rw [← declared_headed, declared] at framed
      simp [framed] at short
  | some value =>
      simp [request.stoul_declared declared, short]

/-- A connection of HTTP/1.1 is kept. -/
theorem keepAlive_parsed
    (version : request.version = ascii "HTTP/1.1") :
    request.parsed.keepAlive = true := by
  have decides := keepAlive_parseBytes (request.data ++ [])
  rw [parseBytes_data] at decides
  apply decides.mpr
  rw [parsed_eq]
  show request.headed.version = ascii "HTTP/1.1"
  rw [headed, storeHeaders_eq, parseRequestLine_line,
    version_parseQueryString]
  exact version

end BlockRequest

/-! ## Rendered requests are such blocks -/

namespace WireRequest

theorem words_token (token : Token) :
    words isspace token.bytes = [token.bytes] := by
  have extracted :
      extractWord isspace token.bytes = some (token.bytes, []) := by
    have found := extractWord_word token.nonempty token.clean
      (show ∀ byte ∈ ([] : Bytes).head?, isspace byte = true by simp)
    rwa [List.append_nil] at found
  rw [words_eq_extractWord, extracted]
  rfl

theorem words_requestLine (request : WireRequest) :
    words isspace request.requestLine =
      [request.method.bytes, request.target.bytes,
        request.version.bytes] := by
  have blank : isspace space = true := by decide
  simp only [requestLine, words_append blank, words_token,
    List.cons_append, List.nil_append]

/-- The lines of the head, the carriage returns taken off. -/
theorem lines_head (request : WireRequest) :
    (getlines lineFeed request.head).map popCarriageReturn =
      request.requestLine :: request.fields.map HeaderField.line := by
  refine map_popCarriageReturn_getlines (isLine_requestLine request) ?_
  intro line member
  rcases List.mem_map.mp member with ⟨field, -, rfl⟩
  exact isLine_line field

theorem strippedLines_fields
    {fields : List HeaderField} {rest : List Bytes}
    (lines :
      rest.map popCarriageReturn = fields.map HeaderField.line) :
    strippedLines rest = fields.map HeaderField.line := by
  rw [strippedLines, lines, List.filter_eq_self]
  intro line member
  rcases List.mem_map.mp member with ⟨field, -, rfl⟩
  simpa using (isLine_line field).1

theorem valueNamed_line (name : Bytes) (field : HeaderField) :
    valueNamed name field.line =
      if field.key = name then some field.value else none := by
  have clean : colon ∉ field.name := fun member =>
    (field.name_clean colon member).1 rfl
  have line :
      field.line = field.name ++ colon :: space :: field.value := by
    simp [HeaderField.line, ascii, ofChars, colon, space]
  have blank : isOuter space = true := by decide
  rw [valueNamed, line, dropInfix?_symbol clean]
  simp only [trim, trimBy_of_trimmed field.name_trimmed,
    trimBy_cons blank, trimBy_of_trimmed field.value_trimmed]
  rfl

theorem getLast?_valueNamed (fields : List HeaderField) (name : Bytes) :
    ((fields.map HeaderField.line).filterMap
        (valueNamed name)).getLast? =
      lastValue fields name := by
  induction fields using List.reverseRecOn with
  | nil => rfl
  | append_singleton earlier field induction =>
      rw [lastValue] at induction ⊢
      rw [List.map_append, List.filterMap_append, List.filter_append]
      by_cases same : field.key = name
      · simp [valueNamed_line, same]
      · simpa [valueNamed_line, same] using induction

/-- The request as its header block and its body. -/
def toBlock (request : WireRequest) : BlockRequest where
  block := request.head
  body := request.body
  line := (getlines lineFeed request.head).headD []
  rest := (getlines lineFeed request.head).tail
  method := request.method.bytes
  target := request.target.bytes
  version := request.version.bytes
  ends := by
    have found := dropInfix?_head request []
    rwa [List.append_nil] at found
  lines := by
    have lines := lines_head request
    cases shape : getlines lineFeed request.head with
    | nil => simp [shape] at lines
    | cons line rest => rfl
  tokens := by
    have lines := lines_head request
    cases shape : getlines lineFeed request.head with
    | nil => simp [shape] at lines
    | cons line rest =>
        rw [shape, List.map_cons, List.cons.injEq] at lines
        rw [List.headD_cons, ← words_popCarriageReturn, lines.1,
          words_requestLine]
  body_fits := request.body_fits
  framed := by
    have lines := congrArg List.tail (lines_head request)
    rw [← List.map_tail, List.tail_cons] at lines
    rw [strippedLines_fields lines, getLast?_valueNamed]
    have framed := request.framed
    cases declared : lastValue request.fields (ascii "content-length") with
    | none =>
        rw [declared] at framed
        exact framed
    | some value =>
        rw [declared] at framed
        have written : value = decimalBytes request.body.length := framed
        subst written
        refine ⟨decimalBytes_ne_nil _, isdigit_decimalBytes _, ?_⟩
        rw [lengthOf, chars_decimalBytes]
        exact ofDigitChars_decimalNat _

theorem data_toBlock (request : WireRequest) :
    request.toBlock.data = request.render :=
  (render_eq request).symm

theorem parsed_toBlock (request : WireRequest) :
    request.toBlock.parsed = request.parsed := by
  have parsed := request.toBlock.parseBytes_data []
  rw [data_toBlock, parseBytes_render] at parsed
  simp only [Prod.mk.injEq] at parsed
  exact parsed.2.2.symm

end WireRequest

end LightningServer.Net
