import LightningServer.Net.ContentLength

/-!
# The request line

`parseRequestLine` extracts three words and ignores the others.  On a fresh
request it succeeds exactly when there are three; whatever follows the third
does not matter.
-/

namespace LightningServer.Net.HttpParser

open LightningServer.Foundation.Framing

/-- Dropping the carriage return leaves the words of a line. -/
theorem words_popCarriageReturn (line : Bytes) :
    words isspace (popCarriageReturn line) = words isspace line := by
  rw [popCarriageReturn]
  split
  · next last =>
      have whole := List.dropLast_append_getLast? _ last
      rw [← words_append_blank (show isspace carriageReturn = true by decide)
        line.dropLast, whole]
  · rfl

theorem parseRequestLine_of_words
    {line method target version : Bytes} {others : List Bytes}
    (tokens : words isspace line = method :: target :: version :: others)
    (req : HttpRequest) :
    parseRequestLine line req =
      (true, parseQueryString target
        { req with
          method := method, path := target, version := version }) := by
  rcases extractWord_of_words tokens with
    ⟨second, isMethod, later, methodSome⟩
  rcases extractWord_of_words later with
    ⟨third, isTarget, last, targetSome⟩
  rcases extractWord_of_words last with
    ⟨ending, isVersion, -, versionSome⟩
  simp only [parseRequestLine, extractInto, Option.bind_some, isMethod,
    isTarget, isVersion, methodSome, targetSome, versionSome, or_self,
    if_false]

/-- A stream without words fails, and stores nothing. -/
theorem extractInto_of_words_nil
    {line target : Bytes} (none : words isspace line = []) :
    extractInto (some line) target = (target, Option.none) := by
  rw [extractInto, Option.bind_some, extractWord_of_words_nil none]

theorem parseRequestLine_of_few
    {line : Bytes} (few : (words isspace line).length < 3) :
    (parseRequestLine line {}).1 = false := by
  have failed (target : Bytes) :
      extractInto none target = (target, none) :=
    rfl
  cases first : words isspace line with
  | nil =>
      simp only [parseRequestLine, extractInto_of_words_nil first, failed,
        or_self, if_true]
  | cons method others =>
      rcases extractWord_of_words first with ⟨rest, isMethod, later, -⟩
      have taken (target : Bytes) :
          extractInto (some line) target = (method, some rest) := by
        rw [extractInto, Option.bind_some, isMethod]
      cases second : others with
      | nil =>
          rw [second] at later
          simp only [parseRequestLine, taken, failed,
            extractInto_of_words_nil later, or_self, or_true, if_true]
      | cons target others =>
          rw [second] at later
          rcases extractWord_of_words later with ⟨last, isTarget, end', -⟩
          have takenToo (old : Bytes) :
              extractInto (some rest) old = (target, some last) := by
            rw [extractInto, Option.bind_some, isTarget]
          have nothing : others = [] := by
            rw [first, second, List.length_cons, List.length_cons] at few
            exact List.eq_nil_of_length_eq_zero (by omega)
          rw [nothing] at end'
          simp only [parseRequestLine, taken, takenToo,
            extractInto_of_words_nil end', or_true, if_true]

/-- A line is a request line when it has three words. -/
theorem parseRequestLine_iff (line : Bytes) :
    (parseRequestLine line {}).1 = true ↔
      ∃ method target version others,
        words isspace line = method :: target :: version :: others := by
  constructor
  · intro valid
    by_cases few : (words isspace line).length < 3
    · rw [parseRequestLine_of_few few] at valid
      cases valid
    · match found : words isspace line with
      | method :: target :: version :: others =>
          exact ⟨method, target, version, others, rfl⟩
      | [_, _] => simp [found] at few
      | [_] => simp [found] at few
      | [] => simp [found] at few
  · rintro ⟨method, target, version, others, tokens⟩
    rw [parseRequestLine_of_words tokens]

/-- A carriage return at its end does not matter to a request line. -/
theorem parseRequestLine_popCarriageReturn (line : Bytes) :
    (parseRequestLine (popCarriageReturn line) {}).1 = true ↔
      (parseRequestLine line {}).1 = true := by
  rw [parseRequestLine_iff, parseRequestLine_iff, words_popCarriageReturn]

/-! ## What the query string leaves -/

/-- The path is the target up to its first question mark. -/
theorem path_parseQueryString (target : Bytes) (req : HttpRequest) :
    (parseQueryString target { req with path := target }).path =
      target.takeWhile fun byte => byte ≠ 63 := by
  have mark : ascii "?" = [63] := by decide
  rw [parseQueryString, mark]
  cases found : target.dropInfix? [63] with
  | none =>
      have clean := dropInfix?_symbol_eq_none_iff.mp found
      exact (takeWhile_ne_of_notMem clean).symm
  | some split =>
      rcases split with ⟨before, query⟩
      rcases dropInfix?_symbol_iff.mp found with ⟨rfl, clean⟩
      exact (takeWhile_ne clean query).symm

theorem method_parseQueryString (path : Bytes) (req : HttpRequest) :
    (parseQueryString path req).method = req.method := by
  rw [parseQueryString]
  split
  · rfl
  · rfl

theorem version_parseQueryString (path : Bytes) (req : HttpRequest) :
    (parseQueryString path req).version = req.version := by
  rw [parseQueryString]
  split
  · rfl
  · rfl

end LightningServer.Net.HttpParser
