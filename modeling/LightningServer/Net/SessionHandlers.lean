import LightningServer.Foundation.Interleaving
import LightningServer.Net.HttpSession

/-!
# The handlers of a session, access by access

The threads that are inside `ioc_.run()` may each run a handler of the same
session, with neither a strand nor a lock between them.  Here a handler is a
program over the accesses it makes to the session, so that other handlers can
run between any two of them.  Run alone, a handler does to the session what
`HttpSession.complete` says.
-/

namespace LightningServer.Net.SessionHandlers

open LightningServer.Foundation
open LightningServer.Foundation.Numerals
open LightningServer.Net.HttpParser

/-- What a handler asks of the session, the socket and the callback. -/
inductive Access where
  /-- the completed operation, taken off those outstanding -/
  | begin (completion : Completion)
  /-- `buffer_.append(readBuf_.data(), bytes)` -/
  | append (bytes : Bytes)
  /-- `parser_.parse(&buffer_, &req)` -/
  | parse
  /-- `callback_(req, &resp)` -/
  | callback (callback : HttpCallback) (req : HttpRequest)
      (resp : HttpResponse)
  | asyncReadSome
  | asyncWrite (response : Bytes) (close : Bool)
  /-- `shutdown` and `close` -/
  | close
  /-- `buffer_.retrieveAll()` -/
  | retrieveAll

abbrev Access.Reply : Access → Type
  | .begin _ => Option AsyncOp
  | .parse => ParseResult × HttpRequest
  | .callback _ _ _ => Except StdException HttpResponse
  | _ => Unit

def exec : (access : Access) → HttpSession → access.Reply × HttpSession
  | .begin completion, session =>
      let isKind :=
        match completion with
        | .readOk _ | .readError => HttpSession.isRead
        | .writeOk | .writeError => HttpSession.isWrite
      match session.take isKind with
      | none => (none, session)
      | some (op, session) => (some op, session)
  | .append bytes, session =>
      ((), { session with buffer := session.buffer.append bytes })
  | .parse, session =>
      let (result, buffer, req) := parse session.buffer {}
      ((result, req), { session with buffer := buffer })
  | .callback callback req resp, session => (callback req resp, session)
  | .asyncReadSome, session => ((), session.doRead)
  | .asyncWrite _ close, session =>
      ((), { session with pending := session.pending ++ [.write close] })
  | .close, session => ((), { session with socketOpen := false })
  | .retrieveAll, session =>
      ((), { session with buffer := session.buffer.retrieveAll })

abbrev Handler := Program Access.Reply StdException Unit

def ask (access : Access) :
    Program Access.Reply StdException access.Reply :=
  .perform access

/-! ## Translation of the source -/

def doRead : Handler :=
  ask .asyncReadSome

def sendResponse (resp : HttpResponse) (close : Bool) : Handler :=
  ask (.asyncWrite resp.toString close)

def handleRequest (callback : Option HttpCallback) (req : HttpRequest) :
    Handler :=
  if req.method = ascii "OPTIONS" then
    sendResponse
      ((HttpSession.defaultResponse.setStatusCode .k200Ok).setBody
        (ascii "\x7b\x7d")) (!req.keepAlive)
  else
    match callback with
    | some callback => do
        let filled ← ask
          (.callback callback req HttpSession.defaultResponse)
        let resp ← .ofExcept filled
        sendResponse resp (!req.keepAlive)
    | none =>
        sendResponse
          ((HttpSession.defaultResponse.setStatusCode
              .k404NotFound).setBody
            (ascii "\x7b\"error\":\"Not Found\"\x7d")) (!req.keepAlive)

/-- `onRead` after `append` and `parse`. -/
def afterParse (callback : Option HttpCallback)
    (parsed : ParseResult × HttpRequest) : Handler := do
  let accepted ← .ofExcept parsed.1
  if accepted = true then handleRequest callback parsed.2 else doRead

/-- `onRead` without an error code. -/
def onRead (callback : Option HttpCallback) (bytes : Bytes) : Handler := do
  ask (.append bytes)
  let parsed ← ask .parse
  afterParse callback parsed

/-- `onWrite` without an error code. -/
def onWrite (close : Bool) : Handler :=
  if close then ask .close
  else do
    ask .retrieveAll
    doRead

/-- The handler runs when the operation it belongs to is outstanding. -/
def afterBegin (callback : Option HttpCallback) :
    Completion → Option AsyncOp → Handler
  | _, none => pure ()
  | .readOk bytes, some _ => onRead callback bytes
  | .writeOk, some op => onWrite (op = .write true)
  | .readError, some _ => pure ()
  | .writeError, some _ => pure ()

def handler (callback : Option HttpCallback) (completion : Completion) :
    Handler := do
  let op ← ask (.begin completion)
  afterBegin callback completion op

/-! ## A handler alone -/

theorem run_handleRequest
    (callback : Option HttpCallback) (req : HttpRequest)
    (session : HttpSession) :
    ((handleRequest callback req).run exec session).2 =
      (HttpSession.handleRequest callback session req).1 := by
  unfold handleRequest HttpSession.handleRequest HttpSession.answer
  split
  · rfl
  · cases callback with
    | none => rfl
    | some callback =>
        simp only [ask, Program.perform_bind, Program.run_call, exec]
        cases callback req HttpSession.defaultResponse with
        | error exception => rfl
        | ok resp => rfl

theorem run_onRead
    (callback : Option HttpCallback) (bytes : Bytes)
    (session : HttpSession) :
    ((onRead callback bytes).run exec session).2 =
      (HttpSession.onRead callback session bytes).1 := by
  simp only [onRead, ask, Program.perform_bind, Program.run_call, exec,
    HttpSession.onRead, afterParse]
  rcases parse (session.buffer.append bytes) {} with ⟨result, buffer, req⟩
  rcases result with exception | accepted
  · rfl
  · cases accepted with
    | false => rfl
    | true => exact run_handleRequest callback req _

theorem run_onWrite (close : Bool) (session : HttpSession) :
    ((onWrite close).run exec session).2 =
      (session.onWrite close).1 := by
  cases close with
  | false => rfl
  | true => rfl

/-- With no other handler in between, a handler does what `complete` says. -/
theorem run_handler
    (callback : Option HttpCallback) (completion : Completion)
    (session : HttpSession) :
    ((handler callback completion).run exec session).2 =
      ((session.complete callback completion).map Prod.fst).getD
        session := by
  simp only [handler, ask, Program.perform_bind, Program.run_call, exec]
  cases completion with
  | readOk bytes =>
      simp only [HttpSession.complete]
      cases session.take HttpSession.isRead with
      | none => rfl
      | some taken => exact run_onRead callback bytes taken.2
  | readError =>
      simp only [HttpSession.complete]
      cases session.take HttpSession.isRead with
      | none => rfl
      | some taken => rfl
  | writeOk =>
      simp only [HttpSession.complete]
      cases session.take HttpSession.isWrite with
      | none => rfl
      | some taken => exact run_onWrite _ taken.2
  | writeError =>
      simp only [HttpSession.complete]
      cases session.take HttpSession.isWrite with
      | none => rfl
      | some taken => rfl

end LightningServer.Net.SessionHandlers
