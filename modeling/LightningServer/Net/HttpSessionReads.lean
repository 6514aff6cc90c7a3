import LightningServer.Net.BlockRequest
import LightningServer.Net.HttpSession

/-!
# Reads inside a header block

As long as the blank line of a request has not arrived, a read only fills the
buffer and the session asks for more: the parser finds no terminator and
consumes nothing.  The read that brings it dispatches the request.
-/

namespace LightningServer.Net.HttpSession

open LightningServer.Foundation
open LightningServer.Foundation.Framing
open LightningServer.Net.HttpParser

/-- Successive successful reads, each with the callback of its time. -/
def deliveries (delivered : List (Option HttpCallback × Bytes)) :
    List SessionStep :=
  delivered.map fun read => (read.1, .readOk read.2)

/-- Successive successful reads. -/
def reads (callback : Option HttpCallback) (chunks : List Bytes) :
    List SessionStep :=
  chunks.map fun chunk => (callback, .readOk chunk)

/-- A read that does not bring the blank line only fills the buffer. -/
theorem complete_readOk_unterminated
    {data block after : Bytes}
    (found : data.dropInfix? dblcrlf = some (block, after))
    {session : HttpSession} (reading : session.Reading)
    (callback : Option HttpCallback) {chunk : Bytes}
    (isPrefix : session.buffer.readable ++ chunk <+: data)
    (short :
      (session.buffer.readable ++ chunk).length < block.length + 4) :
    ∃ next,
      session.complete callback (.readOk chunk) = some (next, []) ∧
        next.Reading ∧
        next.buffer.readable = session.buffer.readable ++ chunk := by
  have noTerminator :
      (session.buffer.readable ++ chunk).dropInfix? dblcrlf = none :=
    dropInfix?_prefix found isPrefix short
  have parsed :
      parseBytes (session.buffer.readable ++ chunk) {} =
        (.ok false, session.buffer.readable ++ chunk, {}) := by
    rw [parseBytes, noTerminator]
  exact complete_readOk_incomplete reading callback parsed

theorem run_deliveries_unterminated
    {data block after : Bytes}
    (found : data.dropInfix? dblcrlf = some (block, after))
    {session : HttpSession} (reading : session.Reading)
    (delivered : List (Option HttpCallback × Bytes))
    (isPrefix :
      session.buffer.readable ++ (delivered.map Prod.snd).flatten <+: data)
    (short :
      (session.buffer.readable ++
        (delivered.map Prod.snd).flatten).length < block.length + 4) :
    ∃ final,
      session.run (deliveries delivered) = some (final, []) ∧
        final.Reading ∧
        final.buffer.readable =
          session.buffer.readable ++ (delivered.map Prod.snd).flatten := by
  induction delivered generalizing session with
  | nil => exact ⟨session, rfl, reading, by simp⟩
  | cons read rest induction =>
      rcases read with ⟨callback, chunk⟩
      simp only [List.map_cons, List.flatten_cons,
        ← List.append_assoc] at isPrefix short
      rcases complete_readOk_unterminated found reading callback
          ((List.prefix_append _ (rest.map Prod.snd).flatten).trans
            isPrefix)
          (by simp only [List.length_append] at short ⊢; omega) with
        ⟨next, done, nextReading, left⟩
      rw [← left] at isPrefix short
      rcases induction nextReading isPrefix short with
        ⟨final, ran, finalReading, kept⟩
      refine ⟨final, ?_, finalReading, ?_⟩
      · exact run_cons_eq_some_iff.mpr
          ⟨next, [], [], done, ran, rfl⟩
      · rw [kept, left]
        simp [List.append_assoc]

/-- A read that does not complete the header block only fills the buffer. -/
theorem complete_readOk_header
    {request : BlockRequest} {session : HttpSession}
    (reading : session.Reading) (callback : Option HttpCallback)
    {chunk : Bytes}
    (isPrefix : session.buffer.readable ++ chunk <+: request.data)
    (short :
      (session.buffer.readable ++ chunk).length <
        request.block.length + 4) :
    ∃ next,
      session.complete callback (.readOk chunk) = some (next, []) ∧
        next.Reading ∧
        next.buffer.readable = session.buffer.readable ++ chunk := by
  exact complete_readOk_unterminated request.dropInfix?_data reading
    callback isPrefix short

theorem run_reads_header
    {request : BlockRequest} {session : HttpSession}
    (reading : session.Reading) (callback : Option HttpCallback)
    (chunks : List Bytes)
    (isPrefix :
      session.buffer.readable ++ chunks.flatten <+: request.data)
    (short :
      (session.buffer.readable ++ chunks.flatten).length <
        request.block.length + 4) :
    ∃ final,
      session.run (reads callback chunks) = some (final, []) ∧
        final.Reading ∧
        final.buffer.readable =
          session.buffer.readable ++ chunks.flatten := by
  have bytes :
      (chunks.map fun chunk => (callback, chunk)).map Prod.snd =
        chunks := by
    rw [List.map_map]
    exact List.map_id chunks
  have same :
      reads callback chunks =
        deliveries (chunks.map fun chunk => (callback, chunk)) := by
    rw [deliveries, List.map_map]
    rfl
  have ran := run_deliveries_unterminated request.dropInfix?_data
    reading (chunks.map fun chunk => (callback, chunk))
  rw [bytes] at ran
  rw [same]
  exact ran isPrefix short

/-! ## All the reads of one request -/

/-- The socket stays open as long as the handlers do not close it. -/
theorem socketOpen_complete
    {session next : HttpSession} {callback : Option HttpCallback}
    {completion : Completion} {events : List SessionEvent}
    (done : session.complete callback completion = some (next, events))
    (notClosed : .close ∉ events) :
    next.socketOpen = session.socketOpen := by
  rcases complete_cases done with
    ⟨pending, ⟨bytes, rfl, ran⟩ | ⟨close, rfl, ran⟩ | ⟨-, rfl, rfl⟩⟩
  · have kept := (onRead_frame callback
      { session with pending := pending } bytes).2
    rw [ran] at kept
    exact kept
  · rw [onWrite] at ran
    split at ran
    · cases ran
      exact absurd List.mem_cons_self notClosed
    · cases ran
      rfl
  · rfl

theorem socketOpen_run
    {session final : HttpSession} {steps : List SessionStep}
    {events : List SessionEvent}
    (ran : session.run steps = some (final, events))
    (notClosed : .close ∉ events) :
    final.socketOpen = session.socketOpen := by
  induction steps generalizing session events with
  | nil =>
      cases ran
      rfl
  | cons step rest induction =>
      rcases step with ⟨callback, completion⟩
      rcases run_cons_eq_some_iff.mp ran with
        ⟨next, now, later, done, continued, rfl⟩
      rw [List.mem_append, not_or] at notClosed
      exact (induction continued notClosed.2).trans
        (socketOpen_complete done notClosed.1)

/--
Whatever the cuts between its reads are, a request without body is dispatched
with the last of them, and its response is started.
-/
theorem run_deliveries_respond
    {session : HttpSession} (reading : session.Reading)
    (empty : session.buffer.readable = [])
    (request : BlockRequest) (bodiless : request.body = [])
    (version : request.version = ascii "HTTP/1.1")
    {delivered : List (Option HttpCallback × Bytes)}
    (normal : ∀ read ∈ delivered, Normal read.1)
    (nonempty : ∀ read ∈ delivered, read.2 ≠ [])
    (whole : (delivered.map Prod.snd).flatten = request.data) :
    ∃ answering response,
      session.run (deliveries delivered) =
          some (answering,
            [.dispatch request.parsed, .respond response]) ∧
        answering.pending = [.write false] ∧
        answering.buffer.readable = [] ∧
        answering.socketOpen = session.socketOpen := by
  have size := request.length_data
  rcases List.eq_nil_or_concat' delivered with rfl | ⟨before, last, rfl⟩
  · rw [← whole] at size
    simp only [List.map_nil, List.flatten_nil, List.length_nil] at size
    omega
  have lastMember : last ∈ before ++ [last] := by simp
  have lastSome := List.length_pos_iff.mpr (nonempty last lastMember)
  have bytes :
      (before.map Prod.snd).flatten ++ last.2 = request.data := by
    rw [← whole]
    simp
  have short :
      ((before.map Prod.snd).flatten).length < request.block.length + 4 := by
    rw [bodiless, List.length_nil, ← bytes, List.length_append] at size
    omega
  -- the reads before the last one only fill the buffer
  rcases run_deliveries_unterminated request.dropInfix?_data reading before
      (by rw [empty, List.nil_append]; exact ⟨last.2, bytes⟩)
      (by rw [empty, List.nil_append]; exact short) with
    ⟨waiting, ran, stillReading, filled⟩
  rw [empty, List.nil_append] at filled
  -- the last one brings the blank line
  have parsed :
      parseBytes (waiting.buffer.readable ++ last.2) {} =
        (.ok true, [], request.parsed) := by
    rw [filled, bytes]
    simpa using request.parseBytes_data []
  rcases complete_readOk_answer stillReading (normal last lastMember)
      parsed with
    ⟨answering, resp, done, -, writing, nothing, sameSocket⟩
  rw [request.keepAlive_parsed version] at writing
  refine ⟨answering, resp.toString, ?_, writing, nothing,
    sameSocket.trans (socketOpen_run ran (by simp))⟩
  rw [deliveries, List.map_append]
  exact run_append_eq_some_iff.mpr
    ⟨waiting, [], _, ran, run_cons_eq_some_iff.mpr
      ⟨answering, _, [], done, rfl, rfl⟩, rfl⟩

end LightningServer.Net.HttpSession
