import LightningServer.Net.HeaderNames
import LightningServer.Net.HttpParserFraming
import LightningServer.Net.RequestLine

/-!
# Accepted messages

`parse` checks the request line when it meets one, and a header block without
any line is accepted as well.  The length of the body is what `stoul` makes of
the declared value: it skips blanks, takes a sign, and ignores what stands
behind the digits.  Everything else about an accepted message is as it should
be.
-/

namespace LightningServer.Net.HttpParser

open LightningServer.Foundation
open LightningServer.Foundation.Framing
open LightningServer.Foundation.Numerals

/-! ## What the steps of `parse` leave -/

/-- The declared length is looked up under its name. -/
theorem getElem?_contentLength (block : Bytes) :
    (parseLines true (getlines lineFeed block)
        {}).2.headers[ascii "content-length"]? =
      declaredLength block := by
  have empty (line : Bytes) :
      (parseRequestLine line {}).2.headers[ascii "content-length"]? =
        none := by
    rw [headers_parseRequestLine]
    exact Std.ExtTreeMap.getElem?_empty
  rw [parseLines_true_eq, declaredLength]
  cases strippedLines (getlines lineFeed block) with
  | nil => exact Std.ExtTreeMap.getElem?_empty
  | cons first fields =>
      simp only
      split
      · rw [getElem?_storeHeaders, empty, Option.or_none]
      · exact empty first

theorem takeBody_of_none
    {req : HttpRequest} (rest : Bytes)
    (undeclared : req.headers[ascii "content-length"]? = none) :
    takeBody req rest = (.ok true, rest, req) := by
  rw [takeBody, undeclared]

theorem takeBody_of_enough
    {req : HttpRequest} {rest value : Bytes} {number : Nat}
    (declared : req.headers[ascii "content-length"]? = some value)
    (converted : stoul (chars value) = .ok number)
    (enough : number ≤ rest.length) :
    takeBody req rest =
      (.ok true, rest.drop number, { req with body := rest.take number }) := by
  rw [takeBody, declared]
  simp only [converted, if_neg (Nat.not_lt.mpr enough)]

/-- The body is accepted if it is there, as long as it was declared. -/
theorem takeBody_accepted_iff (req : HttpRequest) (rest : Bytes) :
    (takeBody req rest).1 = .ok true ↔
      ∀ value ∈ req.headers[ascii "content-length"]?,
        ∃ number, stoul (chars value) = .ok number ∧
          number ≤ rest.length := by
  rw [takeBody]
  cases req.headers[ascii "content-length"]? with
  | none => simp
  | some value =>
      simp only [Option.mem_some_iff, forall_eq']
      cases stoul (chars value) with
      | error exception => simp
      | ok number =>
          simp only [Except.ok.injEq, exists_eq_left']
          split
          · next short => simp [short]
          · next enough => simpa using enough

/-- The parts of an accepted message. -/
theorem parseBytes_accepted_iff (data : Bytes) :
    (parseBytes data {}).1 = .ok true ↔
      ∃ block rest, data.dropInfix? dblcrlf = some (block, rest) ∧
        (parseLines true (getlines lineFeed block) {}).1 = true ∧
        (takeBody (parseLines true (getlines lineFeed block) {}).2
          rest).1 = .ok true := by
  rw [parseBytes]
  cases data.dropInfix? dblcrlf with
  | none => simp
  | some split =>
      rcases split with ⟨block, rest⟩
      simp only [Option.some.injEq, Prod.mk.injEq, and_assoc,
        exists_and_left, exists_eq_left']
      cases parseLines true (getlines lineFeed block) {} with
      | mk complete filled =>
          cases complete with
          | false => simp
          | true => simp

theorem parseBytes_request
    {data block rest : Bytes}
    (found : data.dropInfix? dblcrlf = some (block, rest))
    (complete : (parseLines true (getlines lineFeed block) {}).1 = true) :
    parseBytes data {} =
      takeBody (parseLines true (getlines lineFeed block) {}).2 rest := by
  rw [parseBytes, found]
  simp only
  cases parsed : parseLines true (getlines lineFeed block) {} with
  | mk valid filled =>
      rw [parsed] at complete
      cases complete
      rfl

/-! ## Well-formed messages -/

/-- Not empty, and free of whitespace. -/
def IsToken (token : Bytes) : Prop :=
  token ≠ [] ∧ ∀ byte ∈ token, isspace byte = false

/--
The first line with something on it is a request line, and its words are what
the request holds: the path is the target up to its first question mark.
-/
def HasRequestLine (block : Bytes) (req : HttpRequest) : Prop :=
  ∃ line target others,
    (strippedLines (getlines lineFeed block)).head? = some line ∧
      words isspace line = req.method :: target :: req.version :: others ∧
      IsToken req.method ∧ IsToken target ∧ IsToken req.version ∧
      req.path = target.takeWhile fun byte => byte ≠ 63

/-- The number that digits name. -/
def lengthOf (value : Bytes) : Nat :=
  Nat.ofDigitChars 10 (chars value) 0

/-- The value is a decimal number, and the body has as many bytes. -/
structure DeclaresBody (value rest body : Bytes) : Prop where
  nonempty : value ≠ []
  digits : ∀ byte ∈ value, isdigit byte = true
  available : lengthOf value ≤ rest.length
  body : body = rest.take (lengthOf value)

/-- The message, up to the end of its body, is the one that was read. -/
def WellFormed (data : Bytes) (req : HttpRequest) : Prop :=
  ∃ block rest, data.dropInfix? dblcrlf = some (block, rest) ∧
    HasRequestLine block req ∧
    ∀ value ∈ req.headers[ascii "content-length"]?,
      DeclaresBody value rest req.body

/--
The header block has a line with something on it, and the declared length
has neither a sign nor a blank nor anything behind its digits.
-/
def Regular (data : Bytes) : Prop :=
  ∀ split ∈ data.dropInfix? dblcrlf,
    strippedLines (getlines lineFeed split.1) ≠ [] ∧
      ∀ value ∈ declaredLength split.1, ∀ byte ∈ value, isdigit byte = true

instance (data : Bytes) : Decidable (Regular data) :=
  inferInstanceAs
    (Decidable (∀ split ∈ data.dropInfix? dblcrlf, _ ∧
      ∀ value ∈ declaredLength split.1, ∀ byte ∈ value,
        isdigit byte = true))

theorem isToken_of_mem_words
    {line token : Bytes} (member : token ∈ words isspace line) :
    IsToken token :=
  clean_of_mem_words member

/-- A header block with a line is accepted by its request line. -/
theorem hasRequestLine_of_lines
    {block : Bytes}
    (complete : (parseLines true (getlines lineFeed block) {}).1 = true)
    (someLine : strippedLines (getlines lineFeed block) ≠ []) :
    HasRequestLine block
      (parseLines true (getlines lineFeed block) {}).2 := by
  rw [parseLines_true_eq] at complete ⊢
  rw [HasRequestLine]
  cases lines : strippedLines (getlines lineFeed block) with
  | nil => exact absurd lines someLine
  | cons first fields =>
      simp only [lines] at complete ⊢
      by_cases valid : (parseRequestLine first {}).1 = true
      · rcases (parseRequestLine_iff first).mp valid with
          ⟨method, target, version, others, tokens⟩
        have isWord (token : Bytes)
            (listed : token ∈ method :: target :: version :: others) :
            IsToken token := by
          rw [← tokens] at listed
          exact isToken_of_mem_words listed
        rw [if_pos valid, storeHeaders_eq, parseRequestLine_of_words tokens]
        refine ⟨first, target, others, rfl, ?_, ?_, ?_, ?_, ?_⟩
        · rw [tokens, method_parseQueryString, version_parseQueryString]
        · rw [method_parseQueryString]
          exact isWord method (by simp)
        · exact isWord target (by simp)
        · rw [version_parseQueryString]
          exact isWord version (by simp)
        · exact path_parseQueryString target
            { method := method, version := version }
      · rw [if_neg valid] at complete
        cases complete

/-- A length of digits is taken at its word. -/
theorem declaresBody_of_digits
    {value rest : Bytes} {number : Nat}
    (digits : ∀ byte ∈ value, isdigit byte = true)
    (converted : stoul (chars value) = .ok number)
    (enough : number ≤ rest.length) :
    DeclaresBody value rest (rest.take number) := by
  have clean := isDigit_chars digits
  have nonempty : value ≠ [] := by
    rintro rfl
    cases converted
  have some : chars value ≠ [] := by
    simpa [chars] using nonempty
  have fits : Nat.ofDigitChars 10 (chars value) 0 < 2 ^ 64 := by
    have convertible := (stoul_ok_iff value).mp ⟨number, converted⟩
    have read := convertible.2
    rwa [readSigned_digits some clean] at read
  rw [stoul_digits some clean fits] at converted
  cases converted
  exact ⟨nonempty, digits, enough, rfl⟩

theorem wellFormed_iff_regular
    {data : Bytes} (accepted : (parseBytes data {}).1 = .ok true) :
    WellFormed data (parseBytes data {}).2.2 ↔ Regular data := by
  rcases (parseBytes_accepted_iff data).mp accepted with
    ⟨block, rest, found, complete, taken⟩
  have declared := getElem?_contentLength block
  rw [parseBytes_request found complete]
  generalize request :
    (parseLines true (getlines lineFeed block) {}).2 = req at *
  rw [takeBody_accepted_iff, declared] at taken
  rw [WellFormed, Regular, found]
  simp only [Option.some.injEq, Prod.mk.injEq, Option.mem_some_iff,
    forall_eq']
  constructor
  · rintro ⟨_, _, ⟨rfl, rfl⟩, ⟨line, -, -, isFirst, -⟩, lengths⟩
    rw [(takeBody_keeps req rest).1, declared] at lengths
    refine ⟨?_, fun value stored => (lengths value stored).digits⟩
    intro empty
    rw [empty] at isFirst
    cases isFirst
  · rintro ⟨someLine, digits⟩
    have lines := hasRequestLine_of_lines complete someLine
    rw [request] at lines
    refine ⟨block, rest, ⟨rfl, rfl⟩, ?_⟩
    rw [(takeBody_keeps req rest).1, declared]
    cases value : declaredLength block with
    | none =>
        rw [value] at declared
        rw [takeBody_of_none rest declared]
        exact ⟨lines, by simp⟩
    | some value' =>
        rw [value] at declared taken digits
        rcases taken value' rfl with ⟨number, converted, enough⟩
        rw [takeBody_of_enough declared converted enough]
        refine ⟨lines, ?_⟩
        rintro _ ⟨⟩
        exact declaresBody_of_digits (digits value' rfl) converted enough

/--
An accepted message is well formed exactly when it is regular, and irregular
ones are accepted too.
-/
theorem accepted_wellFormed_iff
    (data : Bytes) (accepted : (parse (bufferOf data) {}).1 = .ok true) :
    WellFormed data (parse (bufferOf data) {}).2.2 ↔ Regular data := by
  rcases parse_bufferOf data with ⟨result, request⟩
  rw [result] at accepted
  rw [request]
  exact wellFormed_iff_regular accepted

theorem accepted_wellFormed_length_two :
    WellFormed (ascii "P / HTTP/1.1\r\nContent-Length: 2\r\n\r\nab")
      (parse
        (bufferOf (ascii "P / HTTP/1.1\r\nContent-Length: 2\r\n\r\nab"))
        {}).2.2 :=
  (accepted_wellFormed_iff
    (ascii "P / HTTP/1.1\r\nContent-Length: 2\r\n\r\nab")
    (by decide)).mpr (by decide +kernel)

/-- No request line at all, and a length with a sign. -/
theorem malformed_accepted :
    ((parse (bufferOf (ascii "\r\n\r\n")) {}).1 = .ok true ∧
        ¬ WellFormed (ascii "\r\n\r\n")
          (parse (bufferOf (ascii "\r\n\r\n")) {}).2.2) ∧
      (parse
          (bufferOf (ascii "P / HTTP/1.1\r\nContent-Length: +2\r\n\r\nab"))
          {}).1 = .ok true ∧
        ¬ WellFormed (ascii "P / HTTP/1.1\r\nContent-Length: +2\r\n\r\nab")
          (parse
            (bufferOf
              (ascii "P / HTTP/1.1\r\nContent-Length: +2\r\n\r\nab"))
            {}).2.2 := by
  have irregular (data : Bytes)
      (accepted : (parseBytes data {}).1 = .ok true)
      (other : ¬ Regular data) :
      (parse (bufferOf data) {}).1 = .ok true ∧
        ¬ WellFormed data (parse (bufferOf data) {}).2.2 := by
    rcases parse_bufferOf data with ⟨result, request⟩
    rw [result, request, wellFormed_iff_regular accepted]
    exact ⟨accepted, other⟩
  exact ⟨irregular _ (by decide +kernel) (by decide +kernel),
    irregular _ (by decide +kernel) (by decide +kernel)⟩

end LightningServer.Net.HttpParser
