import LightningServer.Net.HttpParser

/-!
# One connection

A session reacts to the completion of the asynchronous operations it started.
The model keeps the operations that are outstanding, so that a completion can
be delivered only when its operation was started, and the handlers report what
they did: a request handed to `handleRequest`, a response handed to
`async_write`, the socket closed, an exception that left the handler.

The callback is an argument of each completion.  It captures the services'
shared state, which other sessions change, so its behaviour may differ from
one completion to the next.
-/

namespace LightningServer.Net

open LightningServer.Foundation.Numerals
open LightningServer.Net.HttpParser

/-- `HttpCallback`: fills the response, or throws. -/
abbrev HttpCallback :=
  HttpRequest → HttpResponse → Except StdException HttpResponse

/-- An asynchronous operation on the socket. -/
inductive AsyncOp where
  | read
  | write (close : Bool)
deriving DecidableEq

structure HttpSession where
  /-- `buffer_` -/
  buffer : Buffer
  /-- operations started and not yet completed -/
  pending : List AsyncOp
  /-- `socket_` has not been closed -/
  socketOpen : Bool

inductive SessionEvent where
  | dispatch (req : HttpRequest)
  | respond (response : Bytes)
  | close
  | escape (exception : StdException)
deriving DecidableEq

/-- How an operation ends: the first `bytes` of `readBuf_`, or an error. -/
inductive Completion where
  | readOk (bytes : Bytes)
  | readError
  | writeOk
  | writeError
deriving DecidableEq

namespace HttpSession

/-! ## Translation of the source -/

def doRead (session : HttpSession) : HttpSession :=
  { session with pending := session.pending ++ [.read] }

/-- The constructor, then `start`. -/
def start : HttpSession :=
  doRead { buffer := .empty, pending := [], socketOpen := true }

def sendResponse (session : HttpSession) (resp : HttpResponse)
    (close : Bool) : HttpSession × List SessionEvent :=
  ({ session with pending := session.pending ++ [.write close] },
    [.respond resp.toString])

/-- The headers set before the callback runs. -/
def defaultResponse : HttpResponse :=
  (((({} : HttpResponse).setContentType
            (ascii "application/json; charset=utf-8")).addHeader
          (ascii "Access-Control-Allow-Origin") (ascii "*")).addHeader
        (ascii "Access-Control-Allow-Methods")
        (ascii "GET, POST, OPTIONS")).addHeader
      (ascii "Access-Control-Allow-Headers") (ascii "Content-Type")

/-- The response that is sent, unless the callback throws. -/
def answer (callback : Option HttpCallback) (req : HttpRequest) :
    Except StdException HttpResponse :=
  if req.method = ascii "OPTIONS" then
    .ok ((defaultResponse.setStatusCode .k200Ok).setBody
      (ascii "\x7b\x7d"))
  else
    match callback with
    | some callback => callback req defaultResponse
    | none =>
        .ok ((defaultResponse.setStatusCode .k404NotFound).setBody
          (ascii "\x7b\"error\":\"Not Found\"\x7d"))

def handleRequest (callback : Option HttpCallback)
    (session : HttpSession) (req : HttpRequest) :
    HttpSession × List SessionEvent :=
  match answer callback req with
  | .error exception => (session, [.dispatch req, .escape exception])
  | .ok resp =>
      let (session, events) := session.sendResponse resp (!req.keepAlive)
      (session, .dispatch req :: events)

/-- `onRead` without an error code. -/
def onRead (callback : Option HttpCallback) (session : HttpSession)
    (bytes : Bytes) : HttpSession × List SessionEvent :=
  match parse (session.buffer.append bytes) {} with
  | (.error exception, buffer, _) =>
      ({ session with buffer := buffer }, [.escape exception])
  | (.ok true, buffer, req) =>
      handleRequest callback { session with buffer := buffer } req
  | (.ok false, buffer, _) =>
      (doRead { session with buffer := buffer }, [])

/-- `onWrite` without an error code. -/
def onWrite (session : HttpSession) (close : Bool) :
    HttpSession × List SessionEvent :=
  if close then ({ session with socketOpen := false }, [.close])
  else
    (doRead { session with buffer := session.buffer.retrieveAll }, [])

/-- The outstanding operation of a kind, and the session without it. -/
def take (session : HttpSession) (isKind : AsyncOp → Bool) :
    Option (AsyncOp × HttpSession) :=
  (session.pending.find? isKind).map fun op =>
    (op, { session with pending := session.pending.erase op })

def isRead : AsyncOp → Bool
  | .read => true
  | .write _ => false

def isWrite : AsyncOp → Bool
  | .read => false
  | .write _ => true

/--
Deliver a completion.  There is none to deliver when no such operation is
outstanding.  An error code makes the handlers log and return.
-/
def complete (callback : Option HttpCallback) (session : HttpSession) :
    Completion → Option (HttpSession × List SessionEvent)
  | .readOk bytes =>
      (session.take isRead).map fun taken =>
        onRead callback taken.2 bytes
  | .readError =>
      (session.take isRead).map fun taken => (taken.2, [])
  | .writeOk =>
      (session.take isWrite).map fun taken =>
        onWrite taken.2 (taken.1 = .write true)
  | .writeError =>
      (session.take isWrite).map fun taken => (taken.2, [])

/-! ## Runs -/

/-- One step of a run: the callback's behaviour then, and what completes. -/
abbrev SessionStep := Option HttpCallback × Completion

/-- A run, and everything the handlers did; none if a step was impossible. -/
def run (session : HttpSession) :
    List SessionStep → Option (HttpSession × List SessionEvent)
  | [] => some (session, [])
  | (callback, completion) :: rest =>
      match session.complete callback completion with
      | none => none
      | some (next, events) =>
          match next.run rest with
          | none => none
          | some (final, later) => some (final, events ++ later)

@[simp]
theorem run_nil (session : HttpSession) :
    session.run [] = some (session, []) :=
  rfl

theorem run_cons_eq_some_iff
    {session final : HttpSession} {callback : Option HttpCallback}
    {completion : Completion} {rest : List SessionStep}
    {events : List SessionEvent} :
    session.run ((callback, completion) :: rest) = some (final, events) ↔
      ∃ next now later,
        session.complete callback completion = some (next, now) ∧
          next.run rest = some (final, later) ∧ events = now ++ later := by
  constructor
  · intro ran
    simp only [run] at ran
    cases done : session.complete callback completion with
    | none => simp [done] at ran
    | some outcome =>
        rcases outcome with ⟨next, now⟩
        simp only [done] at ran
        cases continued : next.run rest with
        | none => simp [continued] at ran
        | some outcome =>
            rcases outcome with ⟨last, later⟩
            simp only [continued, Option.some.injEq,
              Prod.mk.injEq] at ran
            rcases ran with ⟨rfl, rfl⟩
            exact ⟨next, now, later, rfl, continued, rfl⟩
  · rintro ⟨next, now, later, done, continued, rfl⟩
    simp [run, done, continued]

theorem run_append_eq_some_iff
    {session final : HttpSession} {first second : List SessionStep}
    {events : List SessionEvent} :
    session.run (first ++ second) = some (final, events) ↔
      ∃ middle earlier later,
        session.run first = some (middle, earlier) ∧
          middle.run second = some (final, later) ∧
          events = earlier ++ later := by
  induction first generalizing session events with
  | nil =>
      constructor
      · intro ran
        exact ⟨session, [], events, rfl, ran, rfl⟩
      · rintro ⟨middle, earlier, later, ran, continued, rfl⟩
        simp only [run_nil, Option.some.injEq, Prod.mk.injEq] at ran
        rcases ran with ⟨rfl, rfl⟩
        exact continued
  | cons step first induction =>
      rcases step with ⟨callback, completion⟩
      constructor
      · intro ran
        rcases run_cons_eq_some_iff.mp ran with
          ⟨next, now, rest, done, continued, rfl⟩
        rcases induction.mp continued with
          ⟨middle, earlier, later, front, back, rfl⟩
        exact ⟨middle, now ++ earlier, later,
          run_cons_eq_some_iff.mpr ⟨next, now, earlier, done, front, rfl⟩,
          back, by simp⟩
      · rintro ⟨middle, earlier, later, front, back, rfl⟩
        rcases run_cons_eq_some_iff.mp front with
          ⟨next, now, rest, done, continued, rfl⟩
        exact run_cons_eq_some_iff.mpr
          ⟨next, now, rest ++ later, done,
            induction.mpr ⟨middle, rest, later, continued, back, rfl⟩,
            by simp⟩

/-- The requests that were dispatched, in order. -/
def dispatched (events : List SessionEvent) : List HttpRequest :=
  events.filterMap fun event =>
    match event with
    | .dispatch req => some req
    | _ => none

@[simp]
theorem dispatched_append (first second : List SessionEvent) :
    dispatched (first ++ second) =
      dispatched first ++ dispatched second :=
  List.filterMap_append

/-- What a completion leads to, its operation no longer outstanding. -/
theorem complete_cases
    {session next : HttpSession} {callback : Option HttpCallback}
    {completion : Completion} {events : List SessionEvent}
    (done : session.complete callback completion = some (next, events)) :
    ∃ pending,
      (∃ bytes, completion = .readOk bytes ∧
          onRead callback { session with pending := pending } bytes =
            (next, events)) ∨
        (∃ close, completion = .writeOk ∧
          onWrite { session with pending := pending } close =
            (next, events)) ∨
          (completion = .readError ∨ completion = .writeError) ∧
            next = { session with pending := pending } ∧ events = [] := by
  cases completion with
  | readOk bytes =>
      simp only [complete, Option.map_eq_some_iff, take] at done
      rcases done with ⟨taken, ⟨op, -, rfl⟩, ran⟩
      exact ⟨_, Or.inl ⟨bytes, rfl, ran⟩⟩
  | readError =>
      simp only [complete, Option.map_eq_some_iff, take] at done
      rcases done with ⟨taken, ⟨op, -, rfl⟩, ran⟩
      cases ran
      exact ⟨_, Or.inr (Or.inr ⟨Or.inl rfl, rfl, rfl⟩)⟩
  | writeOk =>
      simp only [complete, Option.map_eq_some_iff, take] at done
      rcases done with ⟨taken, ⟨op, -, rfl⟩, ran⟩
      exact ⟨_, Or.inr (Or.inl ⟨_, rfl, ran⟩)⟩
  | writeError =>
      simp only [complete, Option.map_eq_some_iff, take] at done
      rcases done with ⟨taken, ⟨op, -, rfl⟩, ran⟩
      cases ran
      exact ⟨_, Or.inr (Or.inr ⟨Or.inr rfl, rfl, rfl⟩)⟩

/-- The same of a read. -/
theorem complete_readOk_cases
    {session next : HttpSession} {callback : Option HttpCallback}
    {bytes : Bytes} {events : List SessionEvent}
    (done :
      session.complete callback (.readOk bytes) = some (next, events)) :
    ∃ pending,
      onRead callback { session with pending := pending } bytes =
        (next, events) := by
  rcases complete_cases done with
    ⟨pending, ⟨_, ⟨⟩, ran⟩ | ⟨_, ⟨⟩, _⟩ | ⟨⟨⟨⟩⟩ | ⟨⟨⟩⟩, _⟩⟩
  exact ⟨pending, ran⟩

/-! ## What a read does -/

/-- The session waits for bytes and for nothing else. -/
def Reading (session : HttpSession) : Prop :=
  session.pending = [.read]

theorem reading_start : start.Reading :=
  rfl

@[simp]
theorem readable_start : start.buffer.readable = [] :=
  rfl

theorem complete_readOk
    {session : HttpSession} (reading : session.Reading)
    (callback : Option HttpCallback) (bytes : Bytes) :
    session.complete callback (.readOk bytes) =
      some (onRead callback { session with pending := [] } bytes) := by
  have shape : session.pending = [.read] := reading
  simp [complete, take, shape, isRead]

/-- `parse` on the buffer after `append`, in terms of bytes. -/
theorem parse_append_eq
    {session : HttpSession} {bytes rest : Bytes}
    {result : ParseResult} {req : HttpRequest}
    (parsed :
      parseBytes (session.buffer.readable ++ bytes) {} =
        (result, rest, req)) :
    ∃ buffer : Buffer,
      parse (session.buffer.append bytes) {} = (result, buffer, req) ∧
        buffer.readable = rest := by
  have view := parse_eq_parseBytes (session.buffer.append bytes) {}
  rw [Buffer.readable_append, parsed] at view
  simp only [Prod.mk.injEq] at view
  rcases view with ⟨rfl, rfl, rfl⟩
  exact ⟨_, rfl, rfl⟩

/-- A request, answered or not, leaves the buffer and the socket alone. -/
theorem handleRequest_frame
    (callback : Option HttpCallback) (session : HttpSession)
    (req : HttpRequest) :
    (handleRequest callback session req).1.buffer = session.buffer ∧
      (handleRequest callback session req).1.socketOpen =
        session.socketOpen := by
  rw [handleRequest]
  split
  · exact ⟨rfl, rfl⟩
  · exact ⟨rfl, rfl⟩

/-- So a read leaves what the parse left, and the socket open or closed. -/
theorem onRead_frame
    (callback : Option HttpCallback) (session : HttpSession)
    (bytes : Bytes) :
    (onRead callback session bytes).1.buffer =
        (parse (session.buffer.append bytes) {}).2.1 ∧
      (onRead callback session bytes).1.socketOpen =
        session.socketOpen := by
  rw [onRead]
  split
  · next parsed =>
      rw [parsed]
      exact ⟨rfl, rfl⟩
  · next parsed =>
      rw [parsed]
      exact handleRequest_frame callback _ _
  · next parsed =>
      rw [parsed]
      exact ⟨rfl, rfl⟩

/-- A request is dispatched exactly when the parse succeeded. -/
theorem dispatched_onRead
    (callback : Option HttpCallback) (session : HttpSession)
    (bytes : Bytes) :
    dispatched (onRead callback session bytes).2 =
      match (parse (session.buffer.append bytes) {}).1 with
      | .ok true => [(parse (session.buffer.append bytes) {}).2.2]
      | _ => [] := by
  rw [onRead]
  split
  · next parsed =>
      rw [parsed]
      rfl
  · next parsed =>
      rw [parsed, handleRequest]
      split
      · rfl
      · rfl
  · next parsed =>
      rw [parsed]
      rfl

/--
Whatever a read leads to, the buffer keeps what the parse left, and a request
is dispatched exactly when the parse succeeded.
-/
theorem complete_readOk_effect
    {session next : HttpSession} {callback : Option HttpCallback}
    {bytes : Bytes} {events : List SessionEvent}
    (done :
      session.complete callback (.readOk bytes) = some (next, events)) :
    next.buffer.readable =
        (parseBytes (session.buffer.readable ++ bytes) {}).2.1 ∧
      dispatched events =
        match (parseBytes (session.buffer.readable ++ bytes) {}).1 with
        | .ok true =>
            [(parseBytes (session.buffer.readable ++ bytes) {}).2.2]
        | _ => [] := by
  rcases complete_readOk_cases done with ⟨pending, ran⟩
  have view := parse_eq_parseBytes (session.buffer.append bytes) {}
  rw [Buffer.readable_append] at view
  let reading : HttpSession := { session with pending := pending }
  have kept := (onRead_frame callback reading bytes).1
  have passed := dispatched_onRead callback reading bytes
  rw [ran] at kept passed
  rw [← view]
  exact ⟨congrArg Buffer.readable kept, passed⟩

/-- The request that a read dispatches is the one that was parsed. -/
theorem parsed_of_dispatched
    {session next : HttpSession} {callback : Option HttpCallback}
    {bytes : Bytes} {events : List SessionEvent} {req : HttpRequest}
    (done :
      session.complete callback (.readOk bytes) = some (next, events))
    (once : dispatched events = [req]) :
    (parseBytes (session.buffer.readable ++ bytes) {}).1 = .ok true ∧
      (parseBytes (session.buffer.readable ++ bytes) {}).2.2 = req := by
  have effect := (complete_readOk_effect done).2
  rw [once] at effect
  split at effect
  · next accepted =>
      simp only [List.cons.injEq, and_true] at effect
      exact ⟨accepted, effect.symm⟩
  · simp at effect

/-- An incomplete request: the session reads again. -/
theorem complete_readOk_incomplete
    {session : HttpSession} (reading : session.Reading)
    (callback : Option HttpCallback) {bytes rest : Bytes}
    {req : HttpRequest}
    (parsed :
      parseBytes (session.buffer.readable ++ bytes) {} =
        (.ok false, rest, req)) :
    ∃ next,
      session.complete callback (.readOk bytes) = some (next, []) ∧
        next.Reading ∧ next.buffer.readable = rest := by
  rcases parse_append_eq parsed with ⟨buffer, done, left⟩
  refine ⟨doRead { session with buffer := buffer, pending := [] }, ?_,
    rfl, left⟩
  rw [complete_readOk reading]
  simp [onRead, done]

/-- A complete request is dispatched, once. -/
theorem complete_readOk_dispatch
    {session : HttpSession} (reading : session.Reading)
    (callback : Option HttpCallback) {bytes rest : Bytes}
    {req : HttpRequest}
    (parsed :
      parseBytes (session.buffer.readable ++ bytes) {} =
        (.ok true, rest, req)) :
    ∃ next events,
      session.complete callback (.readOk bytes) = some (next, events) ∧
        dispatched events = [req] ∧ next.buffer.readable = rest := by
  rcases parse_append_eq parsed with ⟨buffer, done, left⟩
  rw [complete_readOk reading]
  simp only [onRead, done, handleRequest]
  cases answer callback req with
  | error exception => exact ⟨_, _, rfl, rfl, left⟩
  | ok resp => exact ⟨_, _, rfl, rfl, left⟩

/-- A callback that always returns normally. -/
def Normal (callback : Option HttpCallback) : Prop :=
  ∀ handler ∈ callback, ∀ req resp,
    ∃ filled, handler req resp = .ok filled

theorem answer_of_normal
    {callback : Option HttpCallback} (normal : Normal callback)
    (req : HttpRequest) :
    ∃ resp, answer callback req = .ok resp := by
  unfold answer
  split
  · exact ⟨_, rfl⟩
  · cases callback with
    | none => exact ⟨_, rfl⟩
    | some handler => exact normal handler rfl req _

/-- With a callback that returns, the response follows at once. -/
theorem complete_readOk_answer
    {session : HttpSession} (reading : session.Reading)
    {callback : Option HttpCallback} (normal : Normal callback)
    {bytes rest : Bytes} {req : HttpRequest}
    (parsed :
      parseBytes (session.buffer.readable ++ bytes) {} =
        (.ok true, rest, req)) :
    ∃ next resp,
      session.complete callback (.readOk bytes) =
          some (next, [.dispatch req, .respond resp.toString]) ∧
        answer callback req = .ok resp ∧
        next.pending = [.write (!req.keepAlive)] ∧
        next.buffer.readable = rest ∧
        next.socketOpen = session.socketOpen := by
  rcases parse_append_eq parsed with ⟨buffer, done, left⟩
  rcases answer_of_normal normal req with ⟨resp, answered⟩
  rw [complete_readOk reading]
  simp only [onRead, done, handleRequest, answered]
  exact ⟨_, resp, rfl, rfl, rfl, left, rfl⟩

theorem complete_readOk_respond
    {session : HttpSession} (reading : session.Reading)
    {callback : Option HttpCallback} (normal : Normal callback)
    {bytes rest : Bytes} {req : HttpRequest}
    (parsed :
      parseBytes (session.buffer.readable ++ bytes) {} =
        (.ok true, rest, req)) :
    ∃ next response,
      session.complete callback (.readOk bytes) =
          some (next, [.dispatch req, .respond response]) ∧
        next.pending = [.write (!req.keepAlive)] := by
  rcases complete_readOk_answer reading normal parsed with
    ⟨next, resp, done, -, writing, -⟩
  exact ⟨next, resp.toString, done, writing⟩

/-! ## What a write does -/

/-- After the last response the socket is closed, and nothing is started. -/
theorem complete_writeOk_close
    {session : HttpSession} (writing : session.pending = [.write true])
    (callback : Option HttpCallback) :
    session.complete callback .writeOk =
      some ({ session with pending := [], socketOpen := false },
        [.close]) := by
  simp [complete, take, writing, isWrite, onWrite]

/-- Otherwise the buffer is emptied, and the session reads again. -/
theorem complete_writeOk_again
    {session : HttpSession} (writing : session.pending = [.write false])
    (callback : Option HttpCallback) :
    session.complete callback .writeOk =
      some ({ session with
        buffer := session.buffer.retrieveAll, pending := [.read] }, []) := by
  simp [complete, take, writing, isWrite, onWrite, doRead]

end HttpSession

end LightningServer.Net
