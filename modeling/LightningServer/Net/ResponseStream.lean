import LightningServer.Net.WireRequest

/-!
# Reading a stream of responses

A client reads a response up to the first blank line, takes the lines apart
and then takes as many bytes as `Content-Length` says.  The reader below is
written for the client's side: it knows the grammar and nothing of `toString`.
When the texts in the header sections are free of line ends, it recovers every
list of responses from their concatenation, whatever the bodies are.
-/

namespace LightningServer.Net

open LightningServer.Foundation
open LightningServer.Foundation.Framing
open LightningServer.Net.HttpParser

namespace ResponseStream

/-! ## The client -/

def readNumber (digits : Bytes) : Option Nat :=
  if digits ≠ [] ∧ (chars digits).all Char.isDigit then
    some (Nat.ofDigitChars 10 (chars digits) 0)
  else none

def readStatusCode (digits : Bytes) : Option StatusCode := do
  let number ← readNumber digits
  [.k200Ok, .k201Created, .k400BadRequest, .k404NotFound,
    .k405MethodNotAllowed, .k500InternalError,
    .k503ServiceUnavailable].find? fun code => code.toNat = number

/-- The code and the message of a status line. -/
def readStatusLine (line : Bytes) : Option (StatusCode × Bytes) := do
  let (version, rest) ← line.dropInfix? [space]
  let (digits, message) ← rest.dropInfix? [space]
  let code ← readStatusCode digits
  if version = ascii "HTTP/1.1" then some (code, message) else none

/-- The name and the value of a header line. -/
def readHeaderLine (line : Bytes) : Option (Bytes × Bytes) :=
  line.dropInfix? (ascii ": ")

def readHeaderLines : List Bytes → Option (List (Bytes × Bytes))
  | [] => some []
  | line :: rest => do
      let entry ← readHeaderLine line
      let entries ← readHeaderLines rest
      some (entry :: entries)

def isLength (entry : Bytes × Bytes) : Bool :=
  entry.1 = ascii "Content-Length"

/-- The first response, and the bytes behind it. -/
def readResponse (data : Bytes) : Option (HttpResponse × Bytes) := do
  let (block, rest) ← data.dropInfix? dblcrlf
  let lines := (getlines lineFeed block).map popCarriageReturn
  let (code, message) ← readStatusLine (lines.headD [])
  let entries ← readHeaderLines lines.tail
  let (_, value) ← entries.find? isLength
  let length ← readNumber value
  if length ≤ rest.length then
    some
      ({ statusCode := code
         statusMessage := message
         headers := .ofList (entries.filter fun entry => !isLength entry)
         body := rest.take length }, rest.drop length)
  else none

/-- All responses of a connection. -/
def decode (data : Bytes) : Option (List HttpResponse) :=
  readFrames readResponse data.length data

end ResponseStream

/-! ## Clean responses -/

namespace HttpResponse

/-- No line ends. -/
def OneLine (value : Bytes) : Prop :=
  ∀ byte ∈ value, byte ≠ carriageReturn ∧ byte ≠ lineFeed

/-- A header that `toString` writes on a line of its own. -/
structure CleanField (name value : Bytes) : Prop where
  nonempty : name ≠ []
  noColon : colon ∉ name
  oneLine : OneLine name
  notLength : name ≠ ascii "Content-Length"
  value : OneLine value

def CleanHeaders (resp : HttpResponse) : Prop :=
  ∀ (name value : Bytes), resp.headers[name]? = some value →
    CleanField name value

/-- The message of the status line is on one line as well. -/
structure Clean (resp : HttpResponse) : Prop where
  headers : resp.CleanHeaders
  message : OneLine resp.statusMessage

theorem OneLine.append
    {first second : Bytes} (left : OneLine first) (right : OneLine second) :
    OneLine (first ++ second) := by
  intro byte member
  rcases List.mem_append.mp member with inFirst | inSecond
  · exact left byte inFirst
  · exact right byte inSecond

theorem oneLine_decimalBytes (number : Nat) :
    OneLine (decimalBytes number) := by
  intro byte member
  have range := decimalBytes_range number byte member
  constructor
  · rintro rfl
    exact absurd range.1 (by decide)
  · rintro rfl
    exact absurd range.1 (by decide)

theorem oneLine_ascii
    {literal : String}
    (holds :
      (ascii literal).all (fun byte =>
        decide (byte ≠ carriageReturn ∧ byte ≠ lineFeed)) = true) :
    OneLine (ascii literal) :=
  forall_of_all holds

/-! ## The header section as lines -/

variable (resp : HttpResponse)

def statusLine : Bytes :=
  ascii "HTTP/1.1 " ++ decimalBytes resp.statusCode.toNat ++ [space] ++
    resp.statusMessage

def fieldLine (entry : Bytes × Bytes) : Bytes :=
  entry.1 ++ ascii ": " ++ entry.2

/-- The header map in its order, and the length behind it. -/
def entries : List (Bytes × Bytes) :=
  resp.headers.toList ++
    [(ascii "Content-Length", decimalBytes resp.body.length)]

def head : Bytes :=
  WireRequest.joinLines resp.statusLine (resp.entries.map fieldLine)

theorem flatMap_entries :
    (resp.entries.map fieldLine).flatMap
        (fun line => line ++ WireRequest.crlf) =
      resp.headers.toList.flatMap headerLine ++
        (ascii "Content-Length: " ++ decimalBytes resp.body.length ++
          crlf) := by
  have lastName :
      ascii "Content-Length" ++ ascii ": " = ascii "Content-Length: " := by
    decide
  have last :
      fieldLine (ascii "Content-Length", decimalBytes resp.body.length) =
        ascii "Content-Length: " ++ decimalBytes resp.body.length := by
    rw [fieldLine, lastName]
  rw [List.flatMap_map, entries, List.flatMap_append,
    List.flatMap_singleton, last]
  rfl

theorem toString_eq :
    resp.toString = resp.head ++ dblcrlf ++ resp.body := by
  have lines :=
    WireRequest.flatMap_line_crlf (resp.entries.map fieldLine)
  have ends : dblcrlf = WireRequest.crlf ++ crlf := rfl
  calc
    resp.toString =
        resp.statusLine ++
          (WireRequest.crlf ++ (resp.entries.map fieldLine).flatMap
            fun line => line ++ WireRequest.crlf) ++ crlf ++ resp.body := by
      rw [flatMap_entries]
      simp only [toString, statusLine, List.append_assoc]
      rfl
    _ = resp.head ++ dblcrlf ++ resp.body := by
      rw [lines, head, WireRequest.joinLines, ends]
      simp only [List.append_assoc]

section Reading

variable {resp}

theorem isLine_statusLine (clean : OneLine resp.statusMessage) :
    WireRequest.IsLine resp.statusLine := by
  constructor
  · intro empty
    have first := congrArg List.head? empty
    cases first
  · have version : OneLine (ascii "HTTP/1.1 ") := oneLine_ascii (by decide)
    have blank : OneLine [space] := by
      intro byte member
      rw [List.mem_singleton.mp member]
      decide
    exact ((version.append (oneLine_decimalBytes _)).append blank).append
      clean

theorem isLine_fieldLine
    {entry : Bytes × Bytes} (name : OneLine entry.1)
    (value : OneLine entry.2) :
    WireRequest.IsLine (fieldLine entry) := by
  constructor
  · intro empty
    have size := congrArg List.length empty
    simp [fieldLine, ascii, ofChars] at size
  · exact (name.append (oneLine_ascii (by decide))).append value

theorem cleanField_of_mem
    (clean : resp.CleanHeaders) {entry : Bytes × Bytes}
    (member : entry ∈ resp.headers.toList) :
    CleanField entry.1 entry.2 :=
  clean entry.1 entry.2
    (Std.ExtTreeMap.mem_toList_iff_getElem?_eq_some.mp member)

theorem isLine_of_mem_entries
    (clean : resp.CleanHeaders) {entry : Bytes × Bytes}
    (member : entry ∈ resp.entries) :
    WireRequest.IsLine (fieldLine entry) := by
  rw [entries, List.mem_append, List.mem_singleton] at member
  rcases member with inMap | rfl
  · have field := cleanField_of_mem clean inMap
    exact isLine_fieldLine field.oneLine field.value
  · exact isLine_fieldLine (oneLine_ascii (by decide))
      (oneLine_decimalBytes _)

theorem dropInfix?_head (clean : resp.Clean) (after : Bytes) :
    (resp.head ++ dblcrlf ++ after).dropInfix? dblcrlf =
      some (resp.head, after) := by
  refine WireRequest.dropInfix?_joinLines
    (isLine_statusLine clean.message) ?_ after
  intro line member
  rcases List.mem_map.mp member with ⟨entry, inEntries, rfl⟩
  exact isLine_of_mem_entries clean.headers inEntries

theorem lines_head (clean : resp.Clean) :
    (getlines lineFeed resp.head).map popCarriageReturn =
      resp.statusLine :: resp.entries.map fieldLine := by
  refine WireRequest.map_popCarriageReturn_getlines
    (isLine_statusLine clean.message) ?_
  intro line member
  rcases List.mem_map.mp member with ⟨entry, inEntries, rfl⟩
  exact isLine_of_mem_entries clean.headers inEntries

end Reading

end HttpResponse

/-! ## The client reads what was sent -/

namespace ResponseStream

open HttpResponse

@[simp]
theorem readNumber_decimalBytes (number : Nat) :
    readNumber (decimalBytes number) = some number := by
  have digits :
      (chars (decimalBytes number)).all Char.isDigit = true := by
    rw [chars_decimalBytes, List.all_eq_true]
    exact Numerals.decimalNat_isDigit number
  rw [readNumber, if_pos ⟨decimalBytes_ne_nil number, digits⟩,
    chars_decimalBytes, Numerals.ofDigitChars_decimalNat]

@[simp]
theorem readStatusCode_decimalBytes (code : StatusCode) :
    readStatusCode (decimalBytes code.toNat) = some code := by
  rw [readStatusCode, readNumber_decimalBytes]
  cases code <;> rfl

theorem space_notMem_decimalBytes (number : Nat) :
    space ∉ decimalBytes number := by
  intro member
  exact absurd (decimalBytes_range number space member).1 (by decide)

theorem readStatusLine_statusLine (resp : HttpResponse) :
    readStatusLine resp.statusLine =
      some (resp.statusCode, resp.statusMessage) := by
  have version :
      resp.statusLine.dropInfix? [space] =
        some (ascii "HTTP/1.1",
          decimalBytes resp.statusCode.toNat ++
            space :: resp.statusMessage) := by
    have shape :
        resp.statusLine =
          ascii "HTTP/1.1" ++ space ::
            (decimalBytes resp.statusCode.toNat ++
              space :: resp.statusMessage) := by
      simp [statusLine, ascii, ofChars, space]
    rw [shape]
    exact dropInfix?_symbol (by decide) _
  have digits :
      (decimalBytes resp.statusCode.toNat ++
          space :: resp.statusMessage).dropInfix? [space] =
        some (decimalBytes resp.statusCode.toNat, resp.statusMessage) :=
    dropInfix?_symbol (space_notMem_decimalBytes _) _
  simp [readStatusLine, version, digits]

theorem readHeaderLine_fieldLine
    {entry : Bytes × Bytes} (noColon : colon ∉ entry.1) :
    readHeaderLine (fieldLine entry) = some entry := by
  have here :
      (ascii ": " ++ entry.2).dropInfix? (ascii ": ") =
        some ([], entry.2) :=
    dropInfix?_iff.mpr ⟨rfl, fun _ _ _ => Nat.zero_le _⟩
  have whole :
      (entry.1 ++ (ascii ": " ++ entry.2)).dropInfix? (ascii ": ") =
        some (entry.1 ++ [], entry.2) :=
    dropInfix?_skip noColon here
  rw [readHeaderLine, fieldLine, List.append_assoc, whole,
    List.append_nil]

theorem readHeaderLines_map
    {entries : List (Bytes × Bytes)}
    (noColon : ∀ entry ∈ entries, colon ∉ entry.1) :
    readHeaderLines (entries.map fieldLine) = some entries := by
  induction entries with
  | nil => rfl
  | cons entry rest induction =>
      rw [List.forall_mem_cons] at noColon
      simp [readHeaderLines, readHeaderLine_fieldLine noColon.1,
        induction noColon.2]

/-- A map is rebuilt from its entries. -/
theorem ofList_toList (headers : StringMap) :
    Std.ExtTreeMap.ofList headers.toList = headers := by
  apply Std.ExtTreeMap.ext_getElem?
  intro name
  cases found : headers[name]? with
  | some value =>
      exact Std.ExtTreeMap.getElem?_ofList_of_mem Std.ReflCmp.compare_self
        Std.ExtTreeMap.distinct_keys_toList
        (Std.ExtTreeMap.mem_toList_iff_getElem?_eq_some.mpr found)
  | none =>
      apply Std.ExtTreeMap.getElem?_ofList_of_contains_eq_false
      rw [Bool.eq_false_iff]
      intro contained
      rw [List.contains_iff_mem, List.mem_map] at contained
      rcases contained with ⟨entry, member, rfl⟩
      rw [Std.ExtTreeMap.mem_toList_iff_getElem?_eq_some.mp member]
        at found
      cases found

section Entries

variable {resp : HttpResponse}

theorem isLength_of_mem
    (clean : resp.CleanHeaders) {entry : Bytes × Bytes}
    (member : entry ∈ resp.headers.toList) : isLength entry = false := by
  rw [isLength, decide_eq_false_iff_not]
  exact (cleanField_of_mem clean member).notLength

theorem readHeaderLines_entries (clean : resp.CleanHeaders) :
    readHeaderLines (resp.entries.map fieldLine) = some resp.entries := by
  apply readHeaderLines_map
  intro entry member
  rw [entries, List.mem_append, List.mem_singleton] at member
  rcases member with inMap | rfl
  · exact (cleanField_of_mem clean inMap).noColon
  · show colon ∉ ascii "Content-Length"
    decide

/-- The length is that of the body, whatever the other headers are. -/
theorem find?_entries (clean : resp.CleanHeaders) :
    resp.entries.find? isLength =
      some (ascii "Content-Length", decimalBytes resp.body.length) := by
  have others : resp.headers.toList.find? isLength = none := by
    rw [List.find?_eq_none]
    intro entry member
    simp [isLength_of_mem clean member]
  rw [entries, List.find?_append, others]
  rfl

theorem filter_entries (clean : resp.CleanHeaders) :
    (resp.entries.filter fun entry => !isLength entry) =
      resp.headers.toList := by
  have others :
      (resp.headers.toList.filter fun entry => !isLength entry) =
        resp.headers.toList := by
    rw [List.filter_eq_self]
    intro entry member
    simp [isLength_of_mem clean member]
  rw [entries, List.filter_append, others]
  exact List.append_nil _

/-- One response is read back in front of anything. -/
theorem readResponse_toString (clean : resp.Clean) (rest : Bytes) :
    readResponse (resp.toString ++ rest) = some (resp, rest) := by
  have block :
      (resp.toString ++ rest).dropInfix? dblcrlf =
        some (resp.head, resp.body ++ rest) := by
    rw [toString_eq, List.append_assoc]
    exact dropInfix?_head clean (resp.body ++ rest)
  have headers := ofList_toList resp.headers
  rw [← filter_entries clean.headers] at headers
  simp only [readResponse, block, Option.bind_eq_bind, Option.bind_some,
    lines_head clean, List.headD_cons, List.tail_cons,
    readStatusLine_statusLine, readHeaderLines_entries clean.headers,
    find?_entries clean.headers, readNumber_decimalBytes,
    List.length_append, Nat.le_add_right, if_true, headers]
  simp

end Entries

theorem toString_ne_nil (resp : HttpResponse) : resp.toString ≠ [] := by
  intro empty
  have first := congrArg List.head? empty
  cases first

/-- The responses of a connection are read back from their bytes. -/
theorem decode_flatMap_toString
    {responses : List HttpResponse}
    (clean : ∀ resp ∈ responses, resp.Clean) :
    decode (responses.flatMap HttpResponse.toString) = some responses := by
  have nonempty : ∀ resp ∈ responses, resp.toString ≠ [] :=
    fun resp _ => toString_ne_nil resp
  exact readFrames_flatMap nonempty
    (fun resp member rest => readResponse_toString (clean resp member) rest)
    (length_le_length_flatMap nonempty)

end ResponseStream

end LightningServer.Net
