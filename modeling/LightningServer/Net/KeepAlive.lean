import LightningServer.Net.HttpSessionReads

/-!
# A client that waits for each response

On a connection whose client sends the next request only after the previous
response, and whose requests are header blocks of HTTP/1.1, the cuts between
reads do not matter: each request is dispatched once, as the parser reads it
alone, and answered, and nothing of it is left for the next one.
-/

namespace LightningServer.Net

open LightningServer.Foundation
open LightningServer.Foundation.Framing
open LightningServer.Net.HttpParser

/-! ## Requests without a body -/

/-- The bytes of a header block of HTTP/1.1, whatever its lines are. -/
structure HeaderRequest where
  data : Bytes
  block : Bytes
  /-- the first line, as `getline` reads it -/
  line : Bytes
  rest : List Bytes
  method : Bytes
  target : Bytes
  ends : data.dropInfix? dblcrlf = some (block, [])
  lines : getlines lineFeed block = line :: rest
  tokens : words isspace line = [method, target, ascii "HTTP/1.1"]
  bodiless :
    ∀ header ∈ strippedLines rest,
      valueNamed (ascii "content-length") header = none

theorem length_nil_fits : ([] : Bytes).length < 2 ^ 64 := by
  decide

namespace HeaderRequest

variable (request : HeaderRequest)

theorem data_eq : request.data = request.block ++ dblcrlf := by
  rw [eq_of_dropInfix? request.ends, List.append_nil]

/-- The request, its body empty. -/
def toBlock : BlockRequest where
  block := request.block
  body := []
  line := request.line
  rest := request.rest
  method := request.method
  target := request.target
  version := ascii "HTTP/1.1"
  ends := by
    rw [← request.data_eq]
    exact request.ends
  lines := request.lines
  tokens := request.tokens
  body_fits := length_nil_fits
  framed := by
    have none :
        (strippedLines request.rest).filterMap
          (valueNamed (ascii "content-length")) = [] := by
      rw [List.filterMap_eq_nil_iff]
      exact request.bodiless
    rw [none]
    rfl

theorem data_toBlock : request.toBlock.data = request.data := by
  rw [BlockRequest.data, request.data_eq]
  exact List.append_nil _

end HeaderRequest

/-! ## Turns -/

/-- A request in any non-empty chunks, and the write of its response. -/
structure Turn where
  request : HeaderRequest
  delivered : List (Option HttpCallback × Bytes)
  /-- the callback while the write completes -/
  writer : Option HttpCallback
  normal : ∀ read ∈ delivered, HttpSession.Normal read.1
  nonempty : ∀ read ∈ delivered, read.2 ≠ []
  whole : (delivered.map Prod.snd).flatten = request.data

namespace HttpSession

/--
The reads dispatch the request, as the parser reads it alone, and start its
response; the write leaves an open connection that reads again.  Nothing is
left in the buffer at either point.
-/
structure Served (session : HttpSession) (turn : Turn)
    (later : HttpSession) : Prop where
  accepted : (parse (bufferOf turn.request.data) {}).1 = .ok true
  answered :
    ∃ answering response,
      session.run (deliveries turn.delivered) =
          some (answering,
            [.dispatch (parse (bufferOf turn.request.data) {}).2.2,
              .respond response]) ∧
        answering.buffer.readable = [] ∧
        answering.complete turn.writer .writeOk = some (later, [])
  empty : later.buffer.readable = []
  reading : later.Reading
  isOpen : later.socketOpen = true

/-- All requests are served, one after the other. -/
inductive ServedInTurn : HttpSession → List Turn → Prop where
  | done (session : HttpSession) : ServedInTurn session []
  | next {session later : HttpSession} {turn : Turn}
      {rest : List Turn} (served : Served session turn later)
      (inTurn : ServedInTurn later rest) :
      ServedInTurn session (turn :: rest)

/-- A session that waits with an empty buffer serves the next turn. -/
theorem served_of_reading
    {session : HttpSession} (reading : session.Reading)
    (empty : session.buffer.readable = [])
    (isOpen : session.socketOpen = true) (turn : Turn) :
    ∃ later, Served session turn later := by
  rcases turn with
    ⟨request, delivered, writer, normal, nonempty, whole⟩
  rcases run_deliveries_respond reading empty request.toBlock rfl rfl
      normal nonempty
      (whole.trans request.data_toBlock.symm) with
    ⟨answering, response, ran, writing, nothing, sameSocket⟩
  have accepted := request.toBlock.accepted
  rw [request.data_toBlock] at accepted
  rw [BlockRequest.parsed, request.data_toBlock] at ran
  exact ⟨_, accepted, ⟨answering, response, ran, nothing,
    complete_writeOk_again writing writer⟩,
    answering.buffer.readable_retrieveAll, rfl, sameSocket.trans isOpen⟩

/--
Whatever the cuts between the reads are, each request is dispatched once, in
order and as the parser reads it alone, and answered once, and the connection
stays open with an empty buffer.
-/
theorem keepAlive_served_in_turn (turns : List Turn) :
    ServedInTurn start turns := by
  have all (session : HttpSession) (reading : session.Reading)
      (empty : session.buffer.readable = [])
      (isOpen : session.socketOpen = true) :
      ServedInTurn session turns := by
    induction turns generalizing session with
    | nil => exact .done session
    | cons turn rest induction =>
        rcases served_of_reading reading empty isOpen turn with
          ⟨later, served⟩
        exact .next served
          (induction later served.reading served.empty served.isOpen)
  exact all start reading_start readable_start rfl

/-- A request in two reads, the cut inside the blank line. -/
example :
    (start.run (deliveries
        [(none, ascii "GET / HTTP/1.1\r\nHost: a\r\n\r"),
          (none, ascii "\n")])).map
        (fun outcome => (dispatched outcome.2).map HttpRequest.path) =
      some [ascii "/"] := by
  decide +kernel

/-- A request of one header line. -/
def headerGet : HeaderRequest where
  data := ascii "GET / HTTP/1.1\r\nHost: a\r\n\r\n"
  block := ascii "GET / HTTP/1.1\r\nHost: a"
  line := ascii "GET / HTTP/1.1\r"
  rest := [ascii "Host: a"]
  method := ascii "GET"
  target := ascii "/"
  ends := by decide +kernel
  lines := by decide +kernel
  tokens := by decide +kernel
  bodiless := by decide +kernel

/-- The request, cut inside the blank line. -/
def turnOfTwoReads : Turn where
  request := headerGet
  delivered :=
    [(none, ascii "GET / HTTP/1.1\r\nHost: a\r\n\r"),
      (none, ascii "\n")]
  writer := none
  normal := by simp [Normal]
  nonempty := by decide +kernel
  whole := by decide +kernel

theorem keepAlive_served_twice :
    ServedInTurn start [turnOfTwoReads, turnOfTwoReads] :=
  keepAlive_served_in_turn [turnOfTwoReads, turnOfTwoReads]

end HttpSession

end LightningServer.Net
