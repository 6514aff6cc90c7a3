import LightningServer.Net.HttpParserFraming

/-!
# Requests as a client writes them

`WireRequest` is the request format: a request line, any number of header
lines, a blank line and a body whose size the last `Content-Length` line
gives.  A value carries the reasons why its text is well formed, so `render`
always yields a message.

Parsing undoes rendering, and it consumes exactly the rendered bytes.
-/

namespace LightningServer.Net

open LightningServer.Foundation
open LightningServer.Foundation.Framing
open LightningServer.Foundation.Numerals
open LightningServer.Net.HttpParser

/-! ## The format -/

/-- A word of the request line. -/
structure Token where
  bytes : Bytes
  nonempty : bytes ≠ []
  clean : ∀ byte ∈ bytes, isspace byte = false

/-- A header line `name: value`. -/
structure HeaderField where
  name : Bytes
  value : Bytes
  name_nonempty : name ≠ []
  name_ascii : ∀ byte ∈ name, byte < 128
  name_clean :
    ∀ byte ∈ name,
      byte ≠ colon ∧ byte ≠ carriageReturn ∧ byte ≠ lineFeed
  name_trimmed : Trimmed isOuter name
  value_clean :
    ∀ byte ∈ value, byte ≠ carriageReturn ∧ byte ≠ lineFeed
  value_trimmed : Trimmed isOuter value

namespace HeaderField

/-- Header names are compared in lower case. -/
def key (field : HeaderField) : Bytes :=
  field.name.map tolower

def line (field : HeaderField) : Bytes :=
  field.name ++ ascii ": " ++ field.value

end HeaderField

/-- The value of the last line for a lower-cased name. -/
def lastValue (fields : List HeaderField) (key : Bytes) : Option Bytes :=
  (fields.filter fun field => field.key = key).getLast?.map
    HeaderField.value

structure WireRequest where
  method : Token
  target : Token
  version : Token
  fields : List HeaderField
  body : Bytes
  /-- the body is a string in memory, so its size is a `size_t` -/
  body_fits : body.length < 2 ^ 64
  framed :
    match lastValue fields (ascii "content-length") with
    | none => body = []
    | some value => value = decimalBytes body.length

namespace WireRequest

def crlf : Bytes := [carriageReturn, lineFeed]

def requestLine (request : WireRequest) : Bytes :=
  request.method.bytes ++ space :: (request.target.bytes ++
    space :: request.version.bytes)

def render (request : WireRequest) : Bytes :=
  request.requestLine ++ crlf ++
    request.fields.flatMap (fun field => field.line ++ crlf) ++
    crlf ++ request.body

/-- Lines with a line end between any two of them. -/
def joinLines (first : Bytes) (rest : List Bytes) : Bytes :=
  first ++ rest.flatMap (fun line => crlf ++ line)

/-- The header block: everything before the blank line. -/
def head (request : WireRequest) : Bytes :=
  joinLines request.requestLine (request.fields.map HeaderField.line)

theorem flatMap_line_crlf (lines : List Bytes) :
    crlf ++ lines.flatMap (fun line => line ++ crlf) =
      lines.flatMap (fun line => crlf ++ line) ++ crlf := by
  induction lines with
  | nil => simp
  | cons line rest induction =>
      simp only [List.flatMap_cons, List.append_assoc, induction]

theorem render_eq (request : WireRequest) :
    request.render = request.head ++ dblcrlf ++ request.body := by
  have lines :=
    flatMap_line_crlf (request.fields.map HeaderField.line)
  simp only [List.flatMap_map] at lines
  have ends : dblcrlf = crlf ++ crlf := rfl
  simp only [render, head, joinLines, List.flatMap_map, ends,
    List.append_assoc]
  simp only [← List.append_assoc crlf, lines]
  simp only [List.append_assoc]

/-! ## The blank line is the first one -/

/-- A line of the header block. -/
def IsLine (line : Bytes) : Prop :=
  line ≠ [] ∧
    ∀ byte ∈ line, byte ≠ carriageReturn ∧ byte ≠ lineFeed

theorem dropInfix?_joinLines
    {first : Bytes} {rest : List Bytes}
    (firstLine : IsLine first) (restLines : ∀ line ∈ rest, IsLine line)
    (after : Bytes) :
    (joinLines first rest ++ dblcrlf ++ after).dropInfix? dblcrlf =
      some (joinLines first rest, after) := by
  induction rest generalizing first with
  | nil =>
      have here : (dblcrlf ++ after).dropInfix? dblcrlf =
          some ([], after) := by
        refine dropInfix?_iff.mpr ⟨rfl, ?_⟩
        intro before' after' other
        exact Nat.zero_le _
      have whole :
          (first ++ (dblcrlf ++ after)).dropInfix? dblcrlf =
            some (first ++ [], after) :=
        dropInfix?_skip (fun member => (firstLine.2 _ member).1 rfl) here
      simpa [joinLines] using whole
  | cons line rest induction =>
      have lineHere : IsLine line := restLines line (by simp)
      have later :=
        induction lineHere fun other member =>
          restLines other (List.mem_cons_of_mem line member)
      obtain ⟨byte, tail, rfl⟩ := List.exists_cons_of_ne_nil lineHere.1
      have byteClean := lineHere.2 byte (by simp)
      -- the separator is not the terminator: a line follows it
      have newline :
          (crlf ++ (joinLines (byte :: tail) rest ++ dblcrlf ++
              after)).dropInfix? dblcrlf =
            some (crlf ++ joinLines (byte :: tail) rest, after) := by
        refine dropInfix?_cons ?_ (dropInfix?_cons ?_ later)
        · rintro ⟨more, equal⟩
          have third := congrArg (fun bytes => bytes[2]?) equal
          simp [dblcrlf, joinLines] at third
          exact byteClean.1 third.symm
        · rintro ⟨more, equal⟩
          exact absurd (List.cons.inj equal).1 (by decide)
      have whole :
          (first ++ (crlf ++ (joinLines (byte :: tail) rest ++ dblcrlf ++
              after))).dropInfix? dblcrlf =
            some (first ++ (crlf ++ joinLines (byte :: tail) rest),
              after) :=
        dropInfix?_skip (fun member => (firstLine.2 _ member).1 rfl) newline
      simpa [joinLines, List.append_assoc] using whole

/-! ## The line loop sees the lines -/

@[simp]
theorem popCarriageReturn_append (line : Bytes) :
    popCarriageReturn (line ++ [carriageReturn]) = line := by
  simp [popCarriageReturn]

theorem popCarriageReturn_clean {line : Bytes}
    (clean : ∀ byte ∈ line, byte ≠ carriageReturn) :
    popCarriageReturn line = line := by
  rw [popCarriageReturn, if_neg]
  intro last
  exact clean carriageReturn (List.mem_of_getLast? last) rfl

theorem map_popCarriageReturn_getlines
    {first : Bytes} {rest : List Bytes}
    (firstLine : IsLine first) (restLines : ∀ line ∈ rest, IsLine line) :
    (getlines lineFeed (joinLines first rest)).map popCarriageReturn =
      first :: rest := by
  induction rest generalizing first with
  | nil =>
      have clean : lineFeed ∉ first := fun member =>
        (firstLine.2 lineFeed member).2 rfl
      simp [joinLines, getlines_last clean firstLine.1,
        popCarriageReturn_clean fun byte member =>
          (firstLine.2 byte member).1]
  | cons line rest induction =>
      have lineHere : IsLine line := restLines line (by simp)
      have clean : lineFeed ∉ first ++ [carriageReturn] := by
        intro member
        rcases List.mem_append.mp member with inside | atEnd
        · exact (firstLine.2 lineFeed inside).2 rfl
        · exact absurd (List.mem_singleton.mp atEnd) (by decide)
      have split :
          joinLines first (line :: rest) =
            first ++ [carriageReturn] ++
              lineFeed :: joinLines line rest := by
        simp [joinLines, crlf]
      rw [split, getlines_cons clean, List.map_cons,
        popCarriageReturn_append,
        induction lineHere fun other member =>
          restLines other (List.mem_cons_of_mem line member)]

/-- The loop reads each line only after dropping its carriage return. -/
theorem parseLines_congr
    {lines stripped : List Bytes}
    (equal : lines.map popCarriageReturn = stripped)
    (clean : stripped.map popCarriageReturn = stripped)
    (firstLine : Bool) (req : HttpRequest) :
    parseLines firstLine lines req =
      parseLines firstLine stripped req := by
  subst equal
  induction lines generalizing firstLine req with
  | nil => rfl
  | cons line rest induction =>
      simp only [List.map_cons, List.cons.injEq] at clean
      have later := fun firstLine req =>
        induction firstLine req clean.2
      simp only [List.map_cons, parseLines, clean.1, later]

/-! ## Single lines -/

theorem extractInto_token
    (token : Token) (target : Bytes) {rest : Bytes}
    (stops : ∀ byte ∈ rest.head?, isspace byte = true) :
    extractInto (some (token.bytes ++ rest)) target =
      (token.bytes, some rest) := by
  have extracted :=
    extractWord_word token.nonempty token.clean stops
  simp [extractInto, extracted]

theorem extractInto_space
    (token : Token) (target : Bytes) {rest : Bytes}
    (stops : ∀ byte ∈ rest.head?, isspace byte = true) :
    extractInto (some (space :: (token.bytes ++ rest))) target =
      (token.bytes, some rest) := by
  have blank : isspace space = true := by decide
  rw [← extractInto_token token target stops]
  simp [extractInto, extractWord_skip blank]

theorem parseRequestLine_requestLine
    (request : WireRequest) (req : HttpRequest) :
    parseRequestLine request.requestLine req =
      (true,
        parseQueryString request.target.bytes
          { req with
            method := request.method.bytes
            path := request.target.bytes
            version := request.version.bytes }) := by
  have blank : isspace space = true := by decide
  have method :=
    extractInto_token request.method req.method
      (show ∀ byte ∈ (space :: (request.target.bytes ++
          space :: request.version.bytes)).head?,
        isspace byte = true by simp [blank])
  have target :=
    extractInto_space request.target req.path
      (show ∀ byte ∈ (space :: request.version.bytes).head?,
        isspace byte = true by simp [blank])
  have version :=
    extractInto_space request.version req.version
      (show ∀ byte ∈ ([] : Bytes).head?, isspace byte = true by simp)
  rw [List.append_nil] at version
  simp [parseRequestLine, requestLine, method, target, version,
    request.method.nonempty, request.target.nonempty,
    request.version.nonempty]

theorem parseHeaders_line (field : HeaderField) (req : HttpRequest) :
    parseHeaders field.line req =
      (true,
        { req with
          headers := req.headers.insert field.key field.value }) := by
  have clean : colon ∉ field.name := fun member =>
    (field.name_clean colon member).1 rfl
  have line :
      field.line = field.name ++ colon :: space :: field.value := by
    simp [HeaderField.line, ascii, ofChars, colon, space]
  have blank : isOuter space = true := by decide
  rw [parseHeaders, line, dropInfix?_symbol clean]
  simp only [trim, trimBy_of_trimmed field.name_trimmed,
    trimBy_cons blank, trimBy_of_trimmed field.value_trimmed,
    HeaderField.key]

theorem isLine_line (field : HeaderField) : IsLine field.line := by
  refine ⟨?_, ?_⟩
  · simp [HeaderField.line, field.name_nonempty]
  · intro byte member
    simp only [HeaderField.line, List.mem_append] at member
    rcases member with (name | separator) | value
    · exact (field.name_clean byte name).2
    · have clean :
          ∀ byte ∈ ascii ": ", byte ≠ carriageReturn ∧ byte ≠ lineFeed :=
        forall_of_all (by decide)
      exact clean byte separator
    · exact field.value_clean byte value

theorem isLine_requestLine (request : WireRequest) :
    IsLine request.requestLine := by
  have ends :
      isspace carriageReturn = true ∧ isspace lineFeed = true := by
    decide
  have inToken : ∀ (token : Token) (byte : UInt8),
      byte ∈ token.bytes →
        byte ≠ carriageReturn ∧ byte ≠ lineFeed := by
    intro token byte member
    have visible := token.clean byte member
    constructor
    · rintro rfl
      simp [ends.1] at visible
    · rintro rfl
      simp [ends.2] at visible
  have inSpace : space ≠ carriageReturn ∧ space ≠ lineFeed := by decide
  refine ⟨?_, ?_⟩
  · simp [requestLine, request.method.nonempty]
  · intro byte member
    simp only [requestLine, List.mem_append, List.mem_cons] at member
    rcases member with method | rfl | target | rfl | version
    · exact inToken _ byte method
    · exact inSpace
    · exact inToken _ byte target
    · exact inSpace
    · exact inToken _ byte version

/-! ## Parsing undoes rendering -/

/-- The header map that a list of header lines describes. -/
def fieldMap (fields : List HeaderField) (start : StringMap) : StringMap :=
  fields.foldl
    (fun headers field => headers.insert field.key field.value) start

theorem parseLines_fields
    (fields : List HeaderField) (req : HttpRequest) :
    parseLines false (fields.map HeaderField.line) req =
      (true, { req with headers := fieldMap fields req.headers }) := by
  induction fields generalizing req with
  | nil => rfl
  | cons field rest induction =>
      have line := isLine_line field
      have stripped : popCarriageReturn field.line = field.line :=
        popCarriageReturn_clean fun byte member => (line.2 byte member).1
      simp [parseLines, stripped, line.1, parseHeaders_line, induction,
        fieldMap]

theorem getElem?_fieldMap
    (fields : List HeaderField) (start : StringMap) (key : Bytes) :
    (fieldMap fields start)[key]? =
      (lastValue fields key).or start[key]? := by
  induction fields using List.reverseRecOn with
  | nil => simp [fieldMap, lastValue]
  | append_singleton rest field induction =>
      simp only [fieldMap, List.foldl_append, List.foldl_cons,
        List.foldl_nil] at induction ⊢
      rw [Std.ExtTreeMap.getElem?_insert]
      by_cases same : field.key = key
      · simp [lastValue, same]
      · simp [lastValue, same, induction]

/-- The request a client that writes `request` wants to be understood. -/
def parsed (request : WireRequest) : HttpRequest :=
  { parseQueryString request.target.bytes
      { method := request.method.bytes
        path := request.target.bytes
        version := request.version.bytes } with
    headers := fieldMap request.fields ∅
    body := request.body }

theorem parseLines_head (request : WireRequest) :
    parseLines true (getlines lineFeed request.head) {} =
      (true, { request.parsed with body := [] }) := by
  have firstLine := isLine_requestLine request
  have restLines :
      ∀ line ∈ request.fields.map HeaderField.line, IsLine line := by
    intro line member
    rcases List.mem_map.mp member with ⟨field, -, rfl⟩
    exact isLine_line field
  have clean : ∀ line, IsLine line → popCarriageReturn line = line :=
    fun line isLine => popCarriageReturn_clean fun byte member =>
      (isLine.2 byte member).1
  have stripped :
      (request.requestLine ::
          request.fields.map HeaderField.line).map popCarriageReturn =
        request.requestLine :: request.fields.map HeaderField.line := by
    rw [List.map_cons, clean _ firstLine]
    congr 1
    conv_rhs => rw [← List.map_id (request.fields.map HeaderField.line)]
    exact List.map_congr_left fun line member =>
      clean line (restLines line member)
  rw [head, parseLines_congr
    (map_popCarriageReturn_getlines firstLine restLines) stripped]
  have query :
      ∀ req : HttpRequest,
        (parseQueryString request.target.bytes req).headers =
            req.headers ∧
          (parseQueryString request.target.bytes req).body =
            req.body := by
    intro req
    unfold parseQueryString
    split <;> exact ⟨rfl, rfl⟩
  simp only [parseLines, clean _ firstLine, firstLine.1, if_false,
    parseRequestLine_requestLine, if_true, parseLines_fields]
  simp [parsed, query]

/-- The header block of a request ends where it was meant to. -/
theorem dropInfix?_head (request : WireRequest) (after : Bytes) :
    (request.head ++ dblcrlf ++ after).dropInfix? dblcrlf =
      some (request.head, after) := by
  refine dropInfix?_joinLines (isLine_requestLine request) ?_ after
  intro line member
  rcases List.mem_map.mp member with ⟨field, -, rfl⟩
  exact isLine_line field

theorem dropInfix?_render (request : WireRequest) (rest : Bytes) :
    (request.render ++ rest).dropInfix? dblcrlf =
      some (request.head, request.body ++ rest) := by
  have found := dropInfix?_head request (request.body ++ rest)
  simpa [render_eq, List.append_assoc] using found

/-- With the header block read, the body is what the declared length cuts. -/
theorem takeBody_parsed (request : WireRequest) (rest : Bytes) :
    takeBody { request.parsed with body := [] } (request.body ++ rest) =
      (.ok true, rest, request.parsed) := by
  have framed := request.framed
  have stored := getElem?_fieldMap request.fields ∅ (ascii "content-length")
  rw [Std.ExtTreeMap.getElem?_empty, Option.or_none] at stored
  unfold takeBody
  cases declared : lastValue request.fields (ascii "content-length") with
  | none =>
      rw [declared] at framed stored
      simp only at framed
      simp [parsed, stored, framed]
  | some value =>
      rw [declared] at framed stored
      simp only at framed
      have converted : stoul (chars value) = .ok request.body.length := by
        rw [framed, chars_decimalBytes, stoul_decimalNat request.body_fits]
      have enough :
          ¬ (request.body ++ rest).length < request.body.length := by
        simp
      simp [parsed, stored, converted]

theorem parseBytes_render (request : WireRequest) (rest : Bytes) :
    parseBytes (request.render ++ rest) {} =
      (.ok true, rest, request.parsed) := by
  rw [parseBytes, dropInfix?_render]
  simp only [parseLines_head, takeBody_parsed]

end WireRequest

end LightningServer.Net
