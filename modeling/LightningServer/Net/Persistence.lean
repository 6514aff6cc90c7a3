import LightningServer.Net.HeaderNames
import LightningServer.Net.HttpSession

/-!
# Which requests keep the connection

`parseHeaders` stores names in lower case, and `keepAlive` asks for
`Connection`.  No name of a parsed request has an upper-case letter, so the
lookup never finds anything and the version alone decides.  A Connection line
is obeyed exactly when it asks for what the version asks for anyway.
-/

namespace LightningServer.Net

open LightningServer.Foundation
open LightningServer.Foundation.Framing
open LightningServer.Net.HttpParser

namespace HttpParser

/-! ## What the client asks for -/

/-- The value of the last Connection line of a header block. -/
def connectionValue (headerBlock : Bytes) : Option Bytes :=
  match strippedLines (getlines lineFeed headerBlock) with
  | [] => none
  | _ :: fields =>
      (fields.filterMap (valueNamed (ascii "connection"))).getLast?

/-- The Connection line of a request, if its header block has one. -/
def requestedConnection (data : Bytes) : Option Bytes :=
  (data.dropInfix? dblcrlf).bind fun split => connectionValue split.1

/-- The Connection line asks to keep the connection, or else the version. -/
def AsksToPersist (data : Bytes) (req : HttpRequest) : Prop :=
  match requestedConnection data with
  | some value => value = ascii "keep-alive"
  | none => req.version = ascii "HTTP/1.1"

/-- A Connection line asks for what the version asks for. -/
def ConnectionAgrees (data : Bytes) (req : HttpRequest) : Prop :=
  ∀ value ∈ requestedConnection data,
    value = ascii "keep-alive" ↔ req.version = ascii "HTTP/1.1"

instance (data : Bytes) (req : HttpRequest) :
    Decidable (ConnectionAgrees data req) :=
  inferInstanceAs
    (Decidable (∀ value ∈ requestedConnection data, (_ ↔ _)))

theorem asksToPersist_iff
    {data : Bytes} {req : HttpRequest} :
    (req.version = ascii "HTTP/1.1" ↔ AsksToPersist data req) ↔
      ConnectionAgrees data req := by
  rw [AsksToPersist, ConnectionAgrees]
  cases requestedConnection data with
  | none => simp
  | some value =>
      simp only [Option.mem_some_iff, forall_eq']
      exact Iff.comm

end HttpParser

namespace HttpSession

/-! ## What the session does -/

/-- A request and its response, in one read and one write. -/
def exchange (callback other : Option HttpCallback) (bytes : Bytes) :
    List SessionStep :=
  [(callback, .readOk bytes), (other, .writeOk)]

/-- The response is written, and the session reads again. -/
def ReadsAgain (session : HttpSession) (steps : List SessionStep)
    (req : HttpRequest) : Prop :=
  ∃ final response,
    session.run steps =
        some (final, [.dispatch req, .respond response]) ∧
      final.Reading ∧ final.socketOpen = session.socketOpen

/-- The response is written, and the socket closed. -/
def Closes (session : HttpSession) (steps : List SessionStep)
    (req : HttpRequest) : Prop :=
  ∃ final response,
    session.run steps =
        some (final, [.dispatch req, .respond response, .close]) ∧
      final.pending = [] ∧ final.socketOpen = false

/-- The session does after the response what `keepAlive` says. -/
theorem run_exchange
    {session : HttpSession} (reading : session.Reading)
    {callback : Option HttpCallback} (normal : Normal callback)
    (other : Option HttpCallback) {bytes rest : Bytes} {req : HttpRequest}
    (parsed :
      parseBytes (session.buffer.readable ++ bytes) {} =
        (.ok true, rest, req)) :
    if req.keepAlive then
      session.ReadsAgain (exchange callback other bytes) req
    else session.Closes (exchange callback other bytes) req := by
  rcases complete_readOk_answer reading normal parsed with
    ⟨next, resp, done, -, writing, -, sameSocket⟩
  cases persists : req.keepAlive with
  | true =>
      rw [persists] at writing
      refine ⟨_, resp.toString, run_cons_eq_some_iff.mpr
        ⟨next, _, [], done, run_cons_eq_some_iff.mpr
          ⟨_, [], [], complete_writeOk_again writing other, rfl, rfl⟩,
          rfl⟩, rfl, sameSocket⟩
  | false =>
      rw [persists] at writing
      exact ⟨_, resp.toString, run_cons_eq_some_iff.mpr
        ⟨next, _, [.close], done, run_cons_eq_some_iff.mpr
          ⟨_, [.close], [], complete_writeOk_close writing other, rfl, rfl⟩,
          rfl⟩, rfl, rfl⟩

/-- The request is kept open or closed as its client asks. -/
structure Obeys (session : HttpSession) (steps : List SessionStep)
    (data : Bytes) (req : HttpRequest) : Prop where
  keepAlive : req.keepAlive = true ↔ AsksToPersist data req
  persists : AsksToPersist data req → session.ReadsAgain steps req
  closes : ¬ AsksToPersist data req → session.Closes steps req

/--
A complete request is kept open or closed as its client asks, if and only if
its Connection line, if there is one, asks for what the version asks for.
-/
theorem connection_obeyed_iff
    {session : HttpSession} (reading : session.Reading)
    {callback : Option HttpCallback} (normal : Normal callback)
    (other : Option HttpCallback) {data bytes : Bytes}
    (received : session.buffer.readable ++ bytes = data)
    (accepted : (parseBytes data {}).1 = .ok true) :
    session.Obeys (exchange callback other bytes) data
        (parseBytes data {}).2.2 ↔
      ConnectionAgrees data (parseBytes data {}).2.2 := by
  have decides := keepAlive_parseBytes data
  have parsed :
      parseBytes (session.buffer.readable ++ bytes) {} =
        (.ok true, (parseBytes data {}).2.1, (parseBytes data {}).2.2) := by
    rw [received, ← accepted]
  have runs := run_exchange reading normal other parsed
  generalize (parseBytes data {}).2.2 = req at decides runs
  rw [← asksToPersist_iff, ← decides]
  constructor
  · intro obeys
    exact obeys.keepAlive
  · intro same
    constructor
    · exact same
    · intro asks
      rw [if_pos (same.mpr asks)] at runs
      exact runs
    · intro asksNot
      rw [if_neg (fun persists => asksNot (same.mp persists))] at runs
      exact runs

/-- A request that asks for what its version asks for. -/
def agreeing : Bytes :=
  ascii "GET / HTTP/1.1\r\nconnection:  keep-alive \r\n\r\n"

theorem connection_obeyed_of_agreeing :
    start.Obeys (exchange none none agreeing) agreeing
      (parseBytes agreeing {}).2.2 :=
  (connection_obeyed_iff reading_start (fun _ none => by cases none) none
    (List.nil_append agreeing) (by decide +kernel)).mpr (by decide +kernel)

/-- A client that asks to close, and one of HTTP/1.0 that asks not to. -/
def closing : Bytes :=
  ascii "GET / HTTP/1.1\r\nConnection: close\r\n\r\n"

def keeping : Bytes :=
  ascii "GET / HTTP/1.0\r\nConnection: keep-alive\r\n\r\n"

/-- Neither is obeyed, although both are accepted. -/
theorem connection_not_obeyed :
    ((parseBytes closing {}).1 = .ok true ∧
        ¬ start.Obeys (exchange none none closing) closing
          (parseBytes closing {}).2.2) ∧
      (parseBytes keeping {}).1 = .ok true ∧
        ¬ start.Obeys (exchange none none keeping) keeping
          (parseBytes keeping {}).2.2 := by
  have closeAsked : requestedConnection closing = some (ascii "close") := by
    decide +kernel
  have keepAsked :
      requestedConnection keeping = some (ascii "keep-alive") := by
    decide +kernel
  have closingPersists :
      (parseBytes closing {}).2.2.keepAlive = true := by
    decide +kernel
  have keepingCloses :
      (parseBytes keeping {}).2.2.keepAlive = false := by
    decide +kernel
  refine ⟨⟨by decide +kernel, ?_⟩, by decide +kernel, ?_⟩
  · intro obeys
    have asks := obeys.keepAlive.mp closingPersists
    rw [AsksToPersist, closeAsked] at asks
    exact absurd asks (by decide)
  · intro obeys
    have asks : AsksToPersist keeping (parseBytes keeping {}).2.2 := by
      rw [AsksToPersist, keepAsked]
    rw [obeys.keepAlive.mpr asks] at keepingCloses
    cases keepingCloses

end HttpSession

end LightningServer.Net
