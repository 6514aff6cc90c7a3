import LightningServer.Net.HttpParser

/-!
# Where a parsed request ends

A successful parse looks at the bytes it consumes and at nothing after them:
the header block ends at the first blank line, the body is cut by the declared
length, and neither can be moved by bytes that arrive later.  The same
analysis bounds what a parse can take out of the buffer.
-/

namespace LightningServer.Net.HttpParser

open LightningServer.Foundation
open LightningServer.Foundation.Framing
open LightningServer.Foundation.Numerals

/-! ## Stability under later bytes -/

theorem takeBody_append
    {req : HttpRequest} {rest : Bytes}
    (accepted : (takeBody req rest).1 = .ok true) (more : Bytes) :
    takeBody req (rest ++ more) =
      (.ok true, (takeBody req rest).2.1 ++ more,
        (takeBody req rest).2.2) := by
  unfold takeBody at accepted ⊢
  cases declared : req.headers[ascii "content-length"]? with
  | none => rfl
  | some value =>
      simp only [declared] at accepted ⊢
      cases converted : stoul (chars value) with
      | error exception => simp [converted] at accepted
      | ok contentLength =>
          simp only [converted] at accepted ⊢
          by_cases short : rest.length < contentLength
          · simp [short] at accepted
          · have enough : contentLength ≤ rest.length := by omega
            have stillEnough :
                ¬ (rest ++ more).length < contentLength := by
              simp only [List.length_append]
              omega
            rw [if_neg stillEnough, if_neg short,
              List.drop_append_of_le_length enough,
              List.take_append_of_le_length enough]

/-- A successful parse is unchanged by bytes that follow. -/
theorem parseBytes_append
    {data : Bytes} {req : HttpRequest}
    (accepted : (parseBytes data req).1 = .ok true) (more : Bytes) :
    parseBytes (data ++ more) req =
      (.ok true, (parseBytes data req).2.1 ++ more,
        (parseBytes data req).2.2) := by
  unfold parseBytes at accepted ⊢
  cases found : data.dropInfix? dblcrlf with
  | none => simp [found] at accepted
  | some split =>
      rcases split with ⟨headerBlock, rest⟩
      rw [dropInfix?_append found more]
      simp only [found] at accepted ⊢
      cases parsed :
          parseLines true (getlines lineFeed headerBlock) req with
      | mk complete filled =>
          simp only [parsed] at accepted ⊢
          cases complete with
          | false => simp at accepted
          | true => exact takeBody_append accepted more

/--
The parser is self-delimiting: whatever bytes follow the ones a successful
parse was given, the result is the same request and the bytes left over are
the old ones with the new ones behind them.
-/
theorem parse_self_delimiting
    (buf longer : Buffer) (req : HttpRequest) (more : Bytes)
    (extended : longer.readable = buf.readable ++ more)
    (accepted : (parse buf req).1 = .ok true) :
    (parse longer req).1 = .ok true ∧
      (parse longer req).2.2 = (parse buf req).2.2 ∧
      (parse longer req).2.1.readable =
        (parse buf req).2.1.readable ++ more := by
  have short := parse_eq_parseBytes buf req
  have long := parse_eq_parseBytes longer req
  have acceptedBytes : (parseBytes buf.readable req).1 = .ok true := by
    rw [← short]
    exact accepted
  rw [extended, parseBytes_append acceptedBytes more, ← short] at long
  simp only [Prod.mk.injEq] at long
  exact ⟨long.1, long.2.2, long.2.1⟩

/-- A buffer that holds exactly some readable bytes. -/
def bufferOf (data : Bytes) : Buffer where
  storage := data
  readIndex := 0
  writeIndex := data.length
  read_le_write := Nat.zero_le _
  write_le_size := Nat.le_refl _

@[simp]
theorem readable_bufferOf (data : Bytes) :
    (bufferOf data).readable = data := by
  simp [bufferOf, Buffer.readable, Buffer.readableBytes]

/-- What `parse` makes of a byte string. -/
theorem parse_bufferOf (data : Bytes) :
    (parse (bufferOf data) {}).1 = (parseBytes data {}).1 ∧
      (parse (bufferOf data) {}).2.2 = (parseBytes data {}).2.2 := by
  have view := parse_eq_parseBytes (bufferOf data) {}
  rw [readable_bufferOf] at view
  exact ⟨congrArg Prod.fst view,
    congrArg (fun outcome => outcome.2.2) view⟩

theorem parse_self_delimiting_length_two :
    (parse
        (bufferOf
          (ascii "P / HTTP/1.1\r\nContent-Length: 2\r\n\r\nabcd"))
        {}).2.1.readable =
      (parse
          (bufferOf (ascii "P / HTTP/1.1\r\nContent-Length: 2\r\n\r\nab"))
          {}).2.1.readable ++ ascii "cd" :=
  (parse_self_delimiting
    (bufferOf (ascii "P / HTTP/1.1\r\nContent-Length: 2\r\n\r\nab"))
    (bufferOf (ascii "P / HTTP/1.1\r\nContent-Length: 2\r\n\r\nabcd"))
    {} (ascii "cd") (by decide) (by decide)).2.2

/-! ## What a parse takes -/

theorem body_parseRequestLine
    (line : Bytes) (req : HttpRequest) :
    (parseRequestLine line req).2.body = req.body := by
  unfold parseRequestLine parseQueryString
  simp only
  split
  · rfl
  · split <;> rfl

theorem body_parseHeaders
    (line : Bytes) (req : HttpRequest) :
    (parseHeaders line req).2.body = req.body := by
  unfold parseHeaders
  split <;> rfl

/-- The line loop does not touch the body. -/
theorem body_parseLines
    (firstLine : Bool) (lines : List Bytes) (req : HttpRequest) :
    (parseLines firstLine lines req).2.body = req.body := by
  induction lines generalizing firstLine req with
  | nil => rfl
  | cons line rest induction =>
      unfold parseLines
      simp only
      split
      · exact induction firstLine req
      · split
        · have kept := body_parseRequestLine (popCarriageReturn line) req
          cases parsed : parseRequestLine (popCarriageReturn line) req with
          | mk complete filled =>
              rw [parsed] at kept
              cases complete with
              | false => exact kept
              | true => exact (induction false filled).trans kept
        · exact (induction false _).trans (body_parseHeaders _ req)

/--
The blank line, the body and the bytes left over are disjoint parts of the
bytes a successful parse was given.
-/
theorem body_length_parseBytes
    {data : Bytes}
    (accepted : (parseBytes data {}).1 = .ok true) :
    (parseBytes data {}).2.2.body.length + 4 +
        (parseBytes data {}).2.1.length ≤ data.length := by
  unfold parseBytes at accepted ⊢
  cases found : data.dropInfix? dblcrlf with
  | none => simp [found] at accepted
  | some split =>
      rcases split with ⟨headerBlock, rest⟩
      have total : headerBlock.length + 4 + rest.length = data.length := by
        rw [eq_of_dropInfix? found]
        simp only [List.length_append, dblcrlf, List.length_cons,
          List.length_nil]
      have bodyless :=
        body_parseLines true (getlines lineFeed headerBlock) {}
      simp only [found] at accepted ⊢
      cases parsed :
          parseLines true (getlines lineFeed headerBlock) {} with
      | mk complete filled =>
          rw [parsed] at bodyless
          simp only [parsed] at accepted ⊢
          cases complete with
          | false => simp at accepted
          | true =>
              simp only [takeBody] at accepted ⊢
              split
              · simp only at bodyless ⊢
                rw [bodyless]
                simp only [List.length_nil]
                omega
              · split
                · next equal => simp_all
                · split
                  · next equal => simp_all
                  · simp only [List.length_take, List.length_drop]
                    omega

/-- Whatever happens, a parse leaves a suffix of the bytes it was given. -/
theorem suffix_parseBytes (data : Bytes) (req : HttpRequest) :
    (parseBytes data req).2.1 <:+ data := by
  unfold parseBytes
  cases found : data.dropInfix? dblcrlf with
  | none => exact List.suffix_refl data
  | some split =>
      rcases split with ⟨headerBlock, rest⟩
      have isSuffix : rest <:+ data :=
        ⟨headerBlock ++ dblcrlf, (eq_of_dropInfix? found).symm⟩
      simp only
      cases parseLines true (getlines lineFeed headerBlock) req with
      | mk complete filled =>
          cases complete with
          | false => exact isSuffix
          | true =>
              simp only [takeBody]
              split
              · exact isSuffix
              · split
                · exact isSuffix
                · split
                  · exact isSuffix
                  · exact (List.drop_suffix _ rest).trans isSuffix

end LightningServer.Net.HttpParser
