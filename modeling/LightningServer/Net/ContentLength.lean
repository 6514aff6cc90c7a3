import LightningServer.Net.HttpParser

/-!
# The declared body length

`parse` converts the value of the last content-length line with `stoul` and
does not catch what that throws.  This module reads the line loop as a fold,
states which value the conversion gets, and shows that `parse` throws exactly
when that value is not the text of an unsigned 64-bit number.
-/

namespace LightningServer.Net.HttpParser

open LightningServer.Foundation
open LightningServer.Foundation.Framing
open LightningServer.Foundation.Numerals

/-! ## The line loop as a fold -/

/-- The lines that the loop of `parse` does not skip. -/
def strippedLines (lines : List Bytes) : List Bytes :=
  (lines.map popCarriageReturn).filter fun line => line ≠ []

theorem strippedLines_cons (line : Bytes) (rest : List Bytes) :
    strippedLines (line :: rest) =
      if popCarriageReturn line = [] then strippedLines rest
      else popCarriageReturn line :: strippedLines rest := by
  by_cases empty : popCarriageReturn line = []
  · simp [strippedLines, empty]
  · simp [strippedLines, empty]

/-- All lines after the request line. -/
def storeHeaders (lines : List Bytes) (req : HttpRequest) : HttpRequest :=
  lines.foldl (fun req line => (parseHeaders line req).2) req

theorem parseHeaders_eq (line : Bytes) (req : HttpRequest) :
    (parseHeaders line req).2 =
      { req with headers := (parseHeaders line req).2.headers } := by
  unfold parseHeaders
  split
  · rfl
  · rfl

/-- The header lines change nothing but the headers. -/
theorem storeHeaders_eq (lines : List Bytes) (req : HttpRequest) :
    storeHeaders lines req =
      { req with headers := (storeHeaders lines req).headers } := by
  induction lines generalizing req with
  | nil => rfl
  | cons line rest induction =>
      have same := parseHeaders_eq line req
      have later := induction (parseHeaders line req).2
      exact later.trans (congrArg
        (fun stored : HttpRequest =>
          { stored with
            headers := (storeHeaders (line :: rest) req).headers }) same)

theorem parseLines_false_eq (lines : List Bytes) (req : HttpRequest) :
    parseLines false lines req =
      (true, storeHeaders (strippedLines lines) req) := by
  induction lines generalizing req with
  | nil => rfl
  | cons line rest induction =>
      rw [parseLines, strippedLines_cons]
      split
      · exact induction req
      · exact induction _

theorem parseLines_true_eq (lines : List Bytes) (req : HttpRequest) :
    parseLines true lines req =
      match strippedLines lines with
      | [] => (true, req)
      | first :: fields =>
          if (parseRequestLine first req).1 then
            (true, storeHeaders fields (parseRequestLine first req).2)
          else (false, (parseRequestLine first req).2) := by
  induction lines generalizing req with
  | nil => rfl
  | cons line rest induction =>
      rw [parseLines, strippedLines_cons]
      split
      · exact induction req
      · simp only [if_true]
        cases parseRequestLine (popCarriageReturn line) req with
        | mk valid filled =>
            cases valid with
            | false => rfl
            | true => exact parseLines_false_eq rest filled

theorem headers_parseRequestLine (line : Bytes) (req : HttpRequest) :
    (parseRequestLine line req).2.headers = req.headers := by
  simp only [parseRequestLine, parseQueryString]
  split
  · rfl
  · split
    · rfl
    · rfl

/-! ## The value that is converted -/

/-- The value of a header line with the given lower-case name. -/
def valueNamed (name line : Bytes) : Option Bytes :=
  match line.dropInfix? [colon] with
  | none => none
  | some (key, value) =>
      if (trim key).map tolower = name then some (trim value) else none

theorem getElem?_parseHeaders
    (name line : Bytes) (req : HttpRequest) :
    (parseHeaders line req).2.headers[name]? =
      (valueNamed name line).or req.headers[name]? := by
  unfold parseHeaders valueNamed
  cases line.dropInfix? [colon] with
  | none => rfl
  | some split =>
      rcases split with ⟨key, value⟩
      by_cases same : (trim key).map tolower = name
      · simp [same]
      · simp [same, Std.ExtTreeMap.getElem?_insert]

theorem getElem?_storeHeaders
    (name : Bytes) (lines : List Bytes) (req : HttpRequest) :
    (storeHeaders lines req).headers[name]? =
      (lines.filterMap (valueNamed name)).getLast?.or
        req.headers[name]? :=
  lookup_foldl (fun earlier : HttpRequest => earlier.headers[name]?)
    (fun earlier line => getElem?_parseHeaders name line earlier) lines req

/-- The content-length in force when the line loop is over. -/
def declaredLength (headerBlock : Bytes) : Option Bytes :=
  match strippedLines (getlines lineFeed headerBlock) with
  | [] => none
  | first :: fields =>
      if (parseRequestLine first {}).1 then
        (fields.filterMap (valueNamed (ascii "content-length"))).getLast?
      else none

/-- The text of an unsigned 64-bit number, as `stoul` reads it. -/
def Convertible (value : Bytes) : Prop :=
  (readSigned (chars value)).2 ≠ [] ∧
    Nat.ofDigitChars 10 (readSigned (chars value)).2 0 < 2 ^ 64

instance (value : Bytes) : Decidable (Convertible value) :=
  inferInstanceAs (Decidable (_ ∧ _))

theorem stoul_ok_iff (value : Bytes) :
    (∃ number, stoul (chars value) = .ok number) ↔
      Convertible value := by
  unfold stoul Convertible
  cases readSigned (chars value) with
  | mk negative digits =>
      simp only
      by_cases none : digits = []
      · simp [none]
      · rw [if_neg none]
        by_cases wide : 2 ^ 64 ≤ Nat.ofDigitChars 10 digits 0
        · rw [if_pos wide]
          simpa [none] using wide
        · rw [if_neg wide]
          simpa [none] using wide

/-! ## When `parse` throws -/

/-- `parse` converts the declared length of this input, if it has one. -/
def LengthConverts (data : Bytes) : Prop :=
  ∀ split ∈ data.dropInfix? dblcrlf,
    ∀ value ∈ declaredLength split.1, Convertible value

instance (data : Bytes) : Decidable (LengthConverts data) :=
  inferInstanceAs
    (Decidable (∀ split ∈ data.dropInfix? dblcrlf,
      ∀ value ∈ declaredLength split.1, Convertible value))

theorem takeBody_ok_iff (req : HttpRequest) (rest : Bytes) :
    (∃ complete, (takeBody req rest).1 = .ok complete) ↔
      ∀ value ∈ req.headers[ascii "content-length"]?,
        Convertible value := by
  unfold takeBody
  cases req.headers[ascii "content-length"]? with
  | none => simp
  | some value =>
      have converts := stoul_ok_iff value
      simp only [Option.mem_some_iff, forall_eq']
      rw [← converts]
      cases stoul (chars value) with
      | error exception => simp
      | ok contentLength =>
          simp only
          split
          · simp
          · simp

/-- `parse` on a fresh request returns, and does not throw, exactly then. -/
theorem parseBytes_ok_iff (data : Bytes) :
    (∃ complete, (parseBytes data {}).1 = .ok complete) ↔
      LengthConverts data := by
  unfold parseBytes LengthConverts
  cases data.dropInfix? dblcrlf with
  | none => simp
  | some split =>
      rcases split with ⟨headerBlock, rest⟩
      simp only [Option.mem_some_iff, forall_eq', declaredLength,
        parseLines_true_eq]
      cases strippedLines (getlines lineFeed headerBlock) with
      | nil =>
          rw [takeBody_ok_iff]
          simp
      | cons first fields =>
          simp only
          by_cases valid : (parseRequestLine first {}).1 = true
          · rw [if_pos valid, if_pos valid]
            simp only
            rw [takeBody_ok_iff, getElem?_storeHeaders,
              headers_parseRequestLine]
            simp
          · rw [if_neg valid, if_neg valid]
            simp

end LightningServer.Net.HttpParser
