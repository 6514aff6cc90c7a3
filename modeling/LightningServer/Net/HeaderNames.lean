import LightningServer.Net.ContentLength

/-!
# The names of parsed headers

`parseHeaders` stores the names in lower case, so a parsed request has no
header with an upper-case letter in its name, whatever its lines are.  What
`keepAlive` asks for is such a name.
-/

namespace LightningServer.Net

open LightningServer.Foundation
open LightningServer.Foundation.Framing

theorem tolower_ne_C (byte : UInt8) : tolower byte ≠ 67 := by
  intro equal
  unfold tolower at equal
  split at equal
  · next upper =>
      simp only [Bool.and_eq_true, decide_eq_true_eq] at upper
      have low : 65 ≤ byte.toNat := upper.1
      have high : byte.toNat ≤ 90 := upper.2
      have shifted := congrArg UInt8.toNat equal
      rw [UInt8.toNat_add] at shifted
      simp only [UInt8.reduceToNat] at shifted
      omega
  · next other =>
      subst equal
      exact other (by decide)

namespace HttpParser

/-- No header line has the name that `keepAlive` asks for. -/
theorem valueNamed_Connection (line : Bytes) :
    valueNamed (ascii "Connection") line = none := by
  rw [valueNamed]
  cases line.dropInfix? [colon] with
  | none => rfl
  | some split =>
      rcases split with ⟨name, value⟩
      have different : (trim name).map tolower ≠ ascii "Connection" := by
        intro equal
        have first := congrArg List.head? equal
        cases letters : trim name with
        | nil =>
            rw [letters] at first
            cases first
        | cons byte rest =>
            rw [letters, List.map_cons, List.head?_cons] at first
            exact tolower_ne_C byte (Option.some.inj first)
      exact if_neg different

/-- Taking the body leaves the rest of the request as it is. -/
theorem takeBody_keeps (req : HttpRequest) (rest : Bytes) :
    (takeBody req rest).2.2.headers = req.headers ∧
      (takeBody req rest).2.2.version = req.version := by
  unfold takeBody
  split
  · exact ⟨rfl, rfl⟩
  split
  · exact ⟨rfl, rfl⟩
  split
  · exact ⟨rfl, rfl⟩
  · exact ⟨rfl, rfl⟩

theorem parseLines_Connection (lines : List Bytes) :
    (parseLines true lines {}).2.headers[ascii "Connection"]? = none := by
  have empty (line : Bytes) :
      (parseRequestLine line {}).2.headers[ascii "Connection"]? = none := by
    rw [headers_parseRequestLine]
    exact Std.ExtTreeMap.getElem?_empty
  rw [parseLines_true_eq]
  cases strippedLines lines with
  | nil => exact Std.ExtTreeMap.getElem?_empty
  | cons first fields =>
      simp only
      split
      · have nothing :
            fields.filterMap (valueNamed (ascii "Connection")) = [] := by
          rw [List.filterMap_eq_nil_iff]
          intro line _
          exact valueNamed_Connection line
        rw [getElem?_storeHeaders, nothing, empty]
        rfl
      · exact empty first

/-- In a parsed request the version alone decides. -/
theorem keepAlive_parseBytes (data : Bytes) :
    (parseBytes data {}).2.2.keepAlive = true ↔
      (parseBytes data {}).2.2.version = ascii "HTTP/1.1" := by
  have absent :
      (parseBytes data {}).2.2.headers[ascii "Connection"]? = none := by
    rw [parseBytes]
    cases data.dropInfix? dblcrlf with
    | none => exact Std.ExtTreeMap.getElem?_empty
    | some split =>
        rcases split with ⟨headerBlock, rest⟩
        have lines := parseLines_Connection (getlines lineFeed headerBlock)
        simp only
        cases parsed :
            parseLines true (getlines lineFeed headerBlock) {} with
        | mk complete filled =>
            rw [parsed] at lines
            cases complete with
            | false => exact lines
            | true =>
                simp only [(takeBody_keeps filled rest).1]
                exact lines
  rw [HttpRequest.keepAlive, absent, decide_eq_true_eq]

end HttpParser

end LightningServer.Net
