import LightningServer.Net.HttpSessionReads
import LightningServer.Net.RequestRoundTrip

/-!
# A request with a body, in several reads

`parse` takes the header block out of the buffer before it knows whether the
body is there, and `onRead` starts each attempt with an empty request.  So a
request whose header block is complete before the last read is never
dispatched as a whole: its header block is gone.  When the blank line arrives
with the last read, the cuts before it do not matter.
-/

namespace LightningServer.Net.HttpSession

open LightningServer.Foundation
open LightningServer.Foundation.Framing
open LightningServer.Net.HttpParser

/-- Reads that dispatch nothing before the last, and then one request. -/
def DispatchesOnLast (callback : Option HttpCallback)
    (chunks : List Bytes) (req : HttpRequest) : Prop :=
  ∃ before last session earlier final now,
    chunks = before ++ [last] ∧
      start.run (reads callback before) = some (session, earlier) ∧
      dispatched earlier = [] ∧
      session.complete callback (.readOk last) = some (final, now) ∧
      dispatched now = [req]

theorem dispatchesOnLast_of_short
    (callback : Option HttpCallback) {request : BlockRequest}
    (before : List Bytes) {last : Bytes}
    (cut : (before ++ [last]).flatten = request.data)
    (short : before.flatten.length < request.block.length + 4) :
    DispatchesOnLast callback (before ++ [last]) request.parsed := by
  have whole : before.flatten ++ last = request.data := by
    simpa using cut
  rcases run_reads_header reading_start callback before
      ⟨last, by simpa using whole⟩
      (by simpa using short) with
    ⟨session, ran, reading, kept⟩
  have parsed :
      parseBytes (session.buffer.readable ++ last) {} =
        (.ok true, [], request.parsed) := by
    rw [kept, readable_start, List.nil_append, whole]
    simpa using request.parseBytes_data []
  rcases complete_readOk_dispatch reading callback parsed with
    ⟨final, now, done, once, -⟩
  exact ⟨before, last, session, [], final, now, rfl, ran, rfl, done, once⟩

/-! ## After the blank line -/

/-- Reads add at most their own bytes to the buffer. -/
theorem length_readable_run_reads
    {session final : HttpSession} {callback : Option HttpCallback}
    {chunks : List Bytes} {events : List SessionEvent}
    (ran : session.run (reads callback chunks) = some (final, events)) :
    final.buffer.readable.length ≤
      session.buffer.readable.length + chunks.flatten.length := by
  induction chunks generalizing session events with
  | nil =>
      simp only [reads, List.map_nil, run_nil, Option.some.injEq,
        Prod.mk.injEq] at ran
      rw [ran.1]
      exact Nat.le_add_right _ _
  | cons chunk rest induction =>
      rcases run_cons_eq_some_iff.mp ran with
        ⟨next, now, later, done, continued, -⟩
      have step :
          next.buffer.readable.length ≤
            (session.buffer.readable ++ chunk).length := by
        rw [(complete_readOk_effect done).1]
        exact (suffix_parseBytes _ _).length_le
      have tail := induction continued
      simp only [List.length_append] at step
      simp only [List.flatten_cons, List.length_append]
      omega

/-- Once the blank line was read too early, the header block is missing. -/
theorem length_readable_of_early_header
    {request : BlockRequest} {session final : HttpSession}
    (reading : session.Reading) {callback : Option HttpCallback}
    {chunks : List Bytes} {last : Bytes} {events : List SessionEvent}
    (unfinished :
      session.buffer.readable.length < request.block.length + 4)
    (cut :
      session.buffer.readable ++ chunks.flatten ++ last =
        request.data)
    (more : last ≠ [])
    (early :
      request.block.length + 4 ≤
        (session.buffer.readable ++ chunks.flatten).length)
    (ran : session.run (reads callback chunks) = some (final, events)) :
    final.buffer.readable.length + (request.block.length + 4) ≤
      session.buffer.readable.length + chunks.flatten.length := by
  induction chunks generalizing session events with
  | nil =>
      simp only [List.flatten_nil, List.append_nil] at early
      omega
  | cons chunk rest induction =>
      rcases run_cons_eq_some_iff.mp ran with
        ⟨next, now, later, done, continued, -⟩
      simp only [List.flatten_cons, ← List.append_assoc] at cut early
      have isPrefix :
          session.buffer.readable ++ chunk <+: request.data :=
        ⟨rest.flatten ++ last, by rw [← cut]; simp⟩
      by_cases short :
          (session.buffer.readable ++ chunk).length <
            request.block.length + 4
      · -- still inside the header block
        rcases complete_readOk_header reading callback isPrefix short with
          ⟨next', done', nextReading, kept⟩
        rw [done] at done'
        simp only [Option.some.injEq, Prod.mk.injEq] at done'
        rcases done' with ⟨rfl, -⟩
        rw [← kept] at cut early short
        have tail :=
          induction nextReading short cut early continued
        rw [kept] at tail
        simp only [List.length_append] at tail
        simp only [List.flatten_cons, List.length_append]
        omega
      · -- the blank line is here and the body is not
        rw [BlockRequest.data] at isPrefix cut
        have isHead :
            request.block ++ dblcrlf <+:
              session.buffer.readable ++ chunk :=
          List.prefix_of_prefix_length_le (List.prefix_append _ _)
            isPrefix (by
              simp only [List.length_append, dblcrlf, List.length_cons,
                List.length_nil] at short ⊢
              omega)
        rcases isHead with ⟨after, split⟩
        have lastPositive := List.length_pos_iff.mpr more
        have total := congrArg List.length cut
        have part := congrArg List.length split
        simp only [List.length_append, dblcrlf, List.length_cons,
          List.length_nil] at total part
        have parsed :=
          request.parseBytes_short after (by omega)
        have left : next.buffer.readable = after := by
          rw [(complete_readOk_effect done).1, ← split, parsed]
        have tail := length_readable_run_reads continued
        rw [left] at tail
        simp only [List.flatten_cons, List.length_append]
        omega

/--
A request is dispatched once, on the last read, and is the same request as
when it arrives in one read, if and only if the blank line that ends its
header block arrives with the last read.
-/
theorem fragmented_request_dispatched_iff
    (callback : Option HttpCallback) (request : BlockRequest)
    (chunks : List Bytes) (nonempty : ∀ chunk ∈ chunks, chunk ≠ [])
    (cut : chunks.flatten = request.data) :
    (∃ req,
        DispatchesOnLast callback [request.data] req ∧
          DispatchesOnLast callback chunks req) ↔
      chunks.dropLast.flatten.length < request.block.length + 4 := by
  constructor
  · rintro ⟨req, single, split⟩
    have sameBody : req.body = request.body := by
      rcases single with
        ⟨before, all, session, _, final, now, whole, ran, -, done, once⟩
      have alone : before = [] ∧ all = request.data := by
        cases before with
        | nil => simpa using whole.symm
        | cons chunk rest => simp at whole
      rcases alone with ⟨rfl, rfl⟩
      simp only [reads, List.map_nil, run_nil, Option.some.injEq,
        Prod.mk.injEq] at ran
      rcases ran with ⟨rfl, -⟩
      have result := request.parseBytes_data []
      have understood := (parsed_of_dispatched done once).2
      rw [readable_start, List.nil_append, ← List.append_nil request.data,
        result] at understood
      rw [← understood]
      exact request.body_parsed
    rcases split with
      ⟨before, last, session, earlier, final, now, rfl, ran, -, done,
        once⟩
    have whole : before.flatten ++ last = request.data := by
      simpa using cut
    simp only [List.dropLast_concat]
    by_contra early
    have lost :=
      length_readable_of_early_header reading_start
        (by simp) (by simpa using whole)
        (nonempty last (by simp)) (by simpa using early) ran
    have understood := parsed_of_dispatched done once
    have bound := body_length_parseBytes understood.1
    have total := congrArg List.length whole
    simp only [BlockRequest.length_data, List.length_append] at total
    rw [understood.2, sameBody] at bound
    simp only [readable_start, List.length_nil, List.length_append]
      at lost bound
    omega
  · intro short
    have split : chunks = chunks.dropLast ++ [chunks.getLast (by
        rintro rfl
        have empty := congrArg List.length cut
        simp only [List.flatten_nil, List.length_nil,
          BlockRequest.length_data] at empty
        omega)] :=
      (List.dropLast_append_getLast _).symm
    refine ⟨request.parsed, ?_, ?_⟩
    · exact dispatchesOnLast_of_short callback [] (by simp) (by simp)
    · rw [split]
      exact dispatchesOnLast_of_short callback _ (split ▸ cut) short

/-! ## The cut after the header block -/

/-- A posted comment, three bytes of body. -/
def samplePost : BlockRequest :=
  Sample.post.toWire.toBlock

/-- A request in two reads. -/
def cutAt (request : BlockRequest) (position : Nat) : List Bytes :=
  [request.data.take position, request.data.drop position]

theorem fragmented_request_cut_in_header :
    ∃ req,
      DispatchesOnLast none [samplePost.data] req ∧
        DispatchesOnLast none (cutAt samplePost 5) req :=
  (fragmented_request_dispatched_iff none samplePost (cutAt samplePost 5)
    (by decide) (by decide)).mpr (by decide)

theorem dispatched_of_dispatchesOnLast
    {callback : Option HttpCallback} {chunks : List Bytes}
    {req : HttpRequest}
    (once : DispatchesOnLast callback chunks req) :
    (start.run (reads callback chunks)).map
        (fun outcome => dispatched outcome.2) = some [req] := by
  rcases once with
    ⟨before, last, session, earlier, final, now, rfl, ran, quiet, done,
      once⟩
  have lastRan :
      session.run (reads callback [last]) = some (final, now) :=
    run_cons_eq_some_iff.mpr ⟨final, now, [], done, rfl, by simp⟩
  have whole :
      start.run (reads callback (before ++ [last])) =
        some (final, earlier ++ now) := by
    rw [reads, List.map_append]
    exact run_append_eq_some_iff.mpr
      ⟨session, earlier, now, ran, lastRan, rfl⟩
  simp [whole, quiet, once]

/-- The body in a read of its own: the request is never dispatched. -/
theorem fragmented_request_cut_before_body :
    ¬ ∃ req,
      DispatchesOnLast none [samplePost.data] req ∧
        DispatchesOnLast none
          (cutAt samplePost (samplePost.block.length + 4)) req := by
  rintro ⟨req, -, split⟩
  have nothing :
      (start.run
            (reads none (cutAt samplePost (samplePost.block.length + 4)))).map
          (fun outcome => dispatched outcome.2) = some [] := by
    decide +kernel
  rw [dispatched_of_dispatchesOnLast split] at nothing
  simp at nothing

end LightningServer.Net.HttpSession
