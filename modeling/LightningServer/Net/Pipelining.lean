import LightningServer.Net.HttpSessionReads
import LightningServer.Net.RequestRoundTrip

/-!
# Several requests on one connection

After a response is written, `onWrite` empties the buffer before it reads
again.  Bytes that a read brought beyond the end of the request being
answered are lost there.  When every request ends with a read, nothing is
left to lose: the session takes all the reads, answers each request, in
order, and reads on.
-/

namespace LightningServer.Net.HttpSession

open LightningServer.Foundation
open LightningServer.Foundation.Framing
open LightningServer.Net.HttpParser

/-! ## What a client sends and gets -/

/-- The successful reads of a run, each with the callback of its time. -/
def readsOf (steps : List SessionStep) :
    List (Option HttpCallback × Bytes) :=
  steps.filterMap fun step =>
    match step.2 with
    | .readOk bytes => some (step.1, bytes)
    | _ => none

/-- The callbacks of a run's completed writes. -/
def writersOf (steps : List SessionStep) : List (Option HttpCallback) :=
  steps.filterMap fun step =>
    match step.2 with
    | .writeOk => some step.1
    | _ => none

/-- A read or a write that succeeded. -/
def Successful (step : SessionStep) : Prop :=
  match step.2 with
  | .readOk _ => True
  | .writeOk => True
  | .readError => False
  | .writeError => False

/-- Each request is dispatched once, in order, and answered once. -/
inductive Answered : List BlockRequest → List SessionEvent → Prop where
  | done : Answered [] []
  | next {requests : List BlockRequest} {events : List SessionEvent}
      (request : BlockRequest) (response : Bytes)
      (later : Answered requests events) :
      Answered (request :: requests)
        (.dispatch request.parsed :: .respond response :: events)

/--
The session takes all the reads and then asks for more; when it does, every
request has been dispatched and answered, and the connection is open.
-/
structure Serves (delivered : List (Option HttpCallback × Bytes))
    (requests : List BlockRequest) : Prop where
  /-- whatever the callbacks are while the responses are written -/
  proceeds :
    ∀ writers : List (Option HttpCallback),
      writers.length = requests.length →
        ∃ steps final events,
          (∀ step ∈ steps, Successful step) ∧
            readsOf steps = delivered ∧ writersOf steps = writers ∧
            start.run steps = some (final, events) ∧ final.Reading
  answers :
    ∀ steps final events,
      (∀ step ∈ steps, Successful step) → readsOf steps = delivered →
        start.run steps = some (final, events) → final.Reading →
          Answered requests events ∧ final.buffer.readable = [] ∧
            final.socketOpen = true

/-- The requests of a client that keeps its connection. -/
structure Persistent (requests : List BlockRequest) : Prop where
  bodiless : ∀ request ∈ requests, request.body = []
  version :
    ∀ request ∈ requests, request.version = ascii "HTTP/1.1"

/-- The bytes of several reads, in order. -/
def bytesOf (delivered : List (Option HttpCallback × Bytes)) : Bytes :=
  (delivered.map Prod.snd).flatten

/-- The requests back to back, cut so that no read touches two of them. -/
def Aligned (requests : List BlockRequest)
    (delivered : List (Option HttpCallback × Bytes)) : Prop :=
  ∃ groups : List (List (Option HttpCallback × Bytes)),
    delivered = groups.flatten ∧
      groups.map bytesOf = requests.map BlockRequest.data

section Requests

variable {requests : List BlockRequest} {request : BlockRequest}
variable {session : HttpSession} {callback : Option HttpCallback}

theorem Persistent.tail (persistent : Persistent (request :: requests)) :
    Persistent requests :=
  ⟨fun other member =>
      persistent.bodiless other (List.mem_cons_of_mem request member),
    fun other member =>
      persistent.version other (List.mem_cons_of_mem request member)⟩

@[simp]
theorem bytesOf_cons
    (read : Option HttpCallback × Bytes)
    (delivered : List (Option HttpCallback × Bytes)) :
    bytesOf (read :: delivered) = read.2 ++ bytesOf delivered :=
  rfl

theorem length_data_persistent
    (persistent : Persistent (request :: requests)) :
    request.data.length = request.block.length + 4 := by
  rw [BlockRequest.length_data, persistent.bodiless request (by simp)]
  rfl

/-! ## The session gets through -/

theorem readsOf_append (first second : List SessionStep) :
    readsOf (first ++ second) = readsOf first ++ readsOf second :=
  List.filterMap_append

theorem writersOf_append (first second : List SessionStep) :
    writersOf (first ++ second) = writersOf first ++ writersOf second :=
  List.filterMap_append

@[simp]
theorem readsOf_deliveries
    (delivered : List (Option HttpCallback × Bytes)) :
    readsOf (deliveries delivered) = delivered := by
  rw [readsOf, deliveries, List.filterMap_map]
  exact List.filterMap_some

@[simp]
theorem writersOf_deliveries
    (delivered : List (Option HttpCallback × Bytes)) :
    writersOf (deliveries delivered) = [] := by
  rw [writersOf, deliveries, List.filterMap_map,
    List.filterMap_eq_nil_iff]
  intro read member
  rfl

theorem successful_deliveries
    {delivered : List (Option HttpCallback × Bytes)} :
    ∀ step ∈ deliveries delivered, Successful step := by
  intro step member
  rcases List.mem_map.mp member with ⟨read, -, rfl⟩
  trivial

/-- Request by request: its reads, and then the write of its response. -/
theorem run_of_groups
    (reading : session.Reading) (empty : session.buffer.readable = [])
    (persistent : Persistent requests)
    {groups : List (List (Option HttpCallback × Bytes))}
    (normal : ∀ read ∈ groups.flatten, Normal read.1)
    (nonempty : ∀ read ∈ groups.flatten, read.2 ≠ [])
    (whole : groups.map bytesOf = requests.map BlockRequest.data)
    {writers : List (Option HttpCallback)}
    (each : writers.length = requests.length) :
    ∃ steps final events,
      (∀ step ∈ steps, Successful step) ∧
        readsOf steps = groups.flatten ∧ writersOf steps = writers ∧
        session.run steps = some (final, events) ∧ final.Reading := by
  induction requests generalizing session groups writers with
  | nil =>
      simp only [List.map_nil, List.map_eq_nil_iff] at whole
      simp only [List.length_nil, List.length_eq_zero_iff] at each
      subst whole each
      exact ⟨[], session, [], by simp, rfl, rfl, rfl, reading⟩
  | cons request requests induction =>
      cases groups with
      | nil => simp at whole
      | cons group groups =>
          cases writers with
          | nil => simp at each
          | cons writer writers =>
              simp only [List.map_cons, List.cons.injEq] at whole
              simp only [List.flatten_cons, List.mem_append] at normal
              simp only [List.flatten_cons, List.mem_append] at nonempty
              rcases run_deliveries_respond reading empty request
                  (persistent.bodiless request (by simp))
                  (persistent.version request (by simp))
                  (fun read member => normal read (Or.inl member))
                  (fun read member => nonempty read (Or.inl member))
                  whole.1 with
                ⟨answering, response, ran, writing, -, -⟩
              have written := complete_writeOk_again writing writer
              have again : HttpSession.Reading
                  { answering with
                    buffer := answering.buffer.retrieveAll
                    pending := [.read] } := rfl
              rcases induction again
                  answering.buffer.readable_retrieveAll
                  persistent.tail
                  (fun read member => normal read (Or.inr member))
                  (fun read member => nonempty read (Or.inr member))
                  whole.2 (by simpa using each) with
                ⟨steps, final, events, successful, brought, wrote, later,
                  stillReading⟩
              have whole := run_append_eq_some_iff.mpr
                ⟨answering, _, _, ran, run_cons_eq_some_iff.mpr
                  ⟨_, _, _, written, later, rfl⟩, rfl⟩
              refine ⟨_, final, _, ?_, ?_, ?_, whole, stillReading⟩
              · intro step member
                rcases List.mem_append.mp member with isRead | others
                · exact successful_deliveries step isRead
                · rcases List.mem_cons.mp others with rfl | isLater
                  · trivial
                  · exact successful step isLater
              · rw [readsOf_append, readsOf_deliveries, List.flatten_cons,
                  ← brought]
                rfl
              · rw [writersOf_append, writersOf_deliveries, ← wrote]
                rfl

/-! ## Progress through the requests -/

/-- What is still to be read while the session waits for bytes. -/
def Progress (session : HttpSession)
    (delivered : List (Option HttpCallback × Bytes)) :
    List BlockRequest → Prop
  | [] => delivered = [] ∧ session.buffer.readable = []
  | request :: requests =>
      ∃ (group : List (Option HttpCallback × Bytes))
        (groups : List (List (Option HttpCallback × Bytes))),
        delivered = group ++ groups.flatten ∧
          session.buffer.readable ++ bytesOf group = request.data ∧
          session.buffer.readable.length < request.data.length ∧
          groups.map bytesOf = requests.map BlockRequest.data

theorem progress_of_aligned
    {delivered : List (Option HttpCallback × Bytes)}
    (empty : session.buffer.readable = [])
    (aligned : Aligned requests delivered) :
    session.Progress delivered requests := by
  rcases aligned with ⟨groups, rfl, whole⟩
  cases requests with
  | nil =>
      simp only [List.map_nil, List.map_eq_nil_iff] at whole
      simp [Progress, whole, empty]
  | cons request requests =>
      cases groups with
      | nil => simp at whole
      | cons group groups =>
          simp only [List.map_cons, List.cons.injEq] at whole
          refine ⟨group, groups, rfl, by simp [empty, whole.1], ?_, whole.2⟩
          rw [empty, BlockRequest.length_data, List.length_nil]
          omega

theorem complete_writeOk_reading
    (reading : session.Reading) (callback : Option HttpCallback) :
    session.complete callback .writeOk = none := by
  have shape : session.pending = [.read] := reading
  simp [complete, take, shape, isWrite]

theorem complete_readOk_writing
    {close : Bool} (writing : session.pending = [.write close])
    (callback : Option HttpCallback) (bytes : Bytes) :
    session.complete callback (.readOk bytes) = none := by
  simp [complete, take, writing, isRead]

/-- A response written on a persistent connection: empty, and reading. -/
theorem complete_writeOk_persistent
    (writing : session.pending = [.write false])
    (callback : Option HttpCallback) :
    ∃ next,
      session.complete callback .writeOk = some (next, []) ∧
        next.Reading ∧ next.buffer.readable = [] := by
  exact ⟨_, complete_writeOk_again writing callback, rfl,
    session.buffer.readable_retrieveAll⟩

/-- A read either brings more of the current request or completes it. -/
theorem complete_readOk_progress
    (reading : session.Reading) (normal : Normal callback)
    {bytes : Bytes} {delivered : List (Option HttpCallback × Bytes)}
    (nonempty : ∀ read ∈ delivered, read.2 ≠ [])
    (persistent : Persistent (request :: requests))
    (progress :
      session.Progress ((callback, bytes) :: delivered)
        (request :: requests)) :
    (∃ next,
        session.complete callback (.readOk bytes) = some (next, []) ∧
          next.Reading ∧ next.Progress delivered (request :: requests)) ∨
      ∃ next response,
        session.complete callback (.readOk bytes) =
            some (next,
              [.dispatch request.parsed, .respond response]) ∧
          next.pending = [.write false] ∧ Aligned requests delivered := by
  rcases progress with ⟨group, groups, split, part, short, whole⟩
  cases group with
  | nil => simp [← part, bytesOf] at short
  | cons read group =>
      simp only [List.cons_append, List.cons.injEq] at split
      rcases split with ⟨rfl, rfl⟩
      simp only [bytesOf_cons, ← List.append_assoc] at part
      by_cases last : group = []
      · -- the read ends the request
        right
        subst last
        simp only [bytesOf, List.map_nil, List.flatten_nil,
          List.append_nil] at part
        have parsed :
            parseBytes (session.buffer.readable ++ bytes) {} =
              (.ok true, [], request.parsed) := by
          rw [part]
          simpa using request.parseBytes_data []
        rcases complete_readOk_respond reading normal parsed with
          ⟨next, response, done, writing⟩
        rw [request.keepAlive_parsed
          (persistent.version request (by simp))] at writing
        exact ⟨next, response, done, writing, groups, rfl, whole⟩
      · -- the request goes on in the next read
        left
        rcases List.exists_cons_of_ne_nil last with ⟨second, others, rfl⟩
        have more := List.length_pos_iff.mpr (nonempty second (by simp))
        have total := congrArg List.length part
        simp only [bytesOf_cons, List.length_append] at total
        have size := length_data_persistent persistent
        have isPrefix :
            session.buffer.readable ++ bytes <+: request.data :=
          ⟨_, part⟩
        rcases complete_readOk_header reading callback isPrefix
            (by simp only [List.length_append]; omega) with
          ⟨next, done, nextReading, left⟩
        refine ⟨next, done, nextReading, second :: others, groups, rfl,
          ?_, ?_, whole⟩
        · rw [left, part]
        · rw [left, List.length_append]
          omega

/-! ## Runs -/

/--
From a session that waits for the rest of a request, and from one that writes
a response, the remaining requests are answered.
-/
theorem answered_of_run
    {steps : List SessionStep}
    (successful : ∀ step ∈ steps, Successful step)
    (normal : ∀ read ∈ readsOf steps, Normal read.1)
    (nonempty : ∀ read ∈ readsOf steps, read.2 ≠ [])
    (persistent : Persistent requests)
    {final : HttpSession} {events : List SessionEvent}
    (ran : session.run steps = some (final, events))
    (waiting : final.Reading)
    (position :
      session.Reading ∧ session.Progress (readsOf steps) requests ∨
        session.pending = [.write false] ∧
          Aligned requests (readsOf steps)) :
    Answered requests events ∧ final.buffer.readable = [] := by
  induction steps generalizing session requests events with
  | nil =>
      simp only [run_nil, Option.some.injEq, Prod.mk.injEq] at ran
      rcases ran with ⟨rfl, rfl⟩
      rcases position with ⟨-, progress⟩ | ⟨writing, -⟩
      · cases requests with
        | nil => exact ⟨.done, progress.2⟩
        | cons request requests =>
            rcases progress with ⟨group, groups, split, part, short, -⟩
            have consumed : group = [] := by
              cases group with
              | nil => rfl
              | cons read group => simp [readsOf] at split
            simp [← part, consumed, bytesOf] at short
      · simp [Reading, writing] at waiting
  | cons step rest induction =>
      rcases step with ⟨callback, completion⟩
      have good := successful _ List.mem_cons_self
      have later : ∀ step ∈ rest, Successful step := fun step member =>
        successful step (List.mem_cons_of_mem _ member)
      rcases run_cons_eq_some_iff.mp ran with
        ⟨next, now, after, done, continued, rfl⟩
      cases completion with
      | readError => exact good.elim
      | writeError => exact good.elim
      | readOk bytes =>
          have brought :
              readsOf ((callback, .readOk bytes) :: rest) =
                (callback, bytes) :: readsOf rest := rfl
          rw [brought] at normal nonempty position
          have restNormal : ∀ read ∈ readsOf rest, Normal read.1 :=
            fun read member => normal read (List.mem_cons_of_mem _ member)
          have restNonempty : ∀ read ∈ readsOf rest, read.2 ≠ [] :=
            fun read member =>
              nonempty read (List.mem_cons_of_mem _ member)
          rcases position with ⟨reading, progress⟩ | ⟨writing, -⟩
          · cases requests with
            | nil => simp [Progress] at progress
            | cons request requests =>
                rcases complete_readOk_progress reading
                    (normal _ List.mem_cons_self) restNonempty persistent
                    progress with
                  ⟨next', done', nextReading, nextProgress⟩ |
                    ⟨next', response, done', writing, aligned⟩
                · rw [done] at done'
                  simp only [Option.some.injEq, Prod.mk.injEq] at done'
                  rcases done' with ⟨rfl, rfl⟩
                  exact induction later restNormal restNonempty persistent
                    continued (Or.inl ⟨nextReading, nextProgress⟩)
                · rw [done] at done'
                  simp only [Option.some.injEq, Prod.mk.injEq] at done'
                  rcases done' with ⟨rfl, rfl⟩
                  rcases induction later restNormal restNonempty
                      persistent.tail continued
                      (Or.inr ⟨writing, aligned⟩) with
                    ⟨answered, nothing⟩
                  exact ⟨.next request response answered, nothing⟩
          · simp [complete_readOk_writing writing] at done
      | writeOk =>
          have brought :
              readsOf ((callback, .writeOk) :: rest) = readsOf rest := rfl
          rw [brought] at normal nonempty position
          rcases position with ⟨reading, -⟩ | ⟨writing, aligned⟩
          · simp [complete_writeOk_reading reading] at done
          · rcases complete_writeOk_persistent writing callback with
              ⟨next', done', nextReading, empty⟩
            rw [done] at done'
            simp only [Option.some.injEq, Prod.mk.injEq] at done'
            rcases done' with ⟨rfl, rfl⟩
            exact induction later normal nonempty persistent continued
              (Or.inl ⟨nextReading, progress_of_aligned empty aligned⟩)

/-- Answers do not close the connection. -/
theorem Answered.notClosed
    {events : List SessionEvent} (answered : Answered requests events) :
    .close ∉ events := by
  induction answered with
  | done => simp
  | next request response later induction => simpa using induction

end Requests

/--
When no read touches two requests, the session takes all the reads,
dispatches every request exactly once, in order, answers each, and reads on.
-/
theorem aligned_requests_served
    (requests : List BlockRequest) (persistent : Persistent requests)
    (delivered : List (Option HttpCallback × Bytes))
    (normal : ∀ read ∈ delivered, Normal read.1)
    (nonempty : ∀ read ∈ delivered, read.2 ≠ [])
    (aligned : Aligned requests delivered) :
    Serves delivered requests := by
  constructor
  case proceeds =>
    intro writers each
    rcases aligned with ⟨groups, rfl, whole⟩
    exact run_of_groups reading_start readable_start persistent normal
      nonempty whole each
  case answers =>
    rintro steps final events successful rfl ran waiting
    rcases answered_of_run successful normal nonempty persistent ran
        waiting (Or.inl
          ⟨reading_start, progress_of_aligned readable_start aligned⟩) with
      ⟨answered, nothing⟩
    exact ⟨answered, nothing, socketOpen_run ran answered.notClosed⟩

/-! ## Two requests in two reads, and in one -/

/-- A handler that changes nothing. -/
def echo : HttpCallback := fun _ resp => .ok resp

theorem normal_echo : Normal (some echo) := by
  intro handler isHandler req resp
  cases isHandler
  exact ⟨resp, rfl⟩

/-- A request without header lines. -/
def sampleGet : BlockRequest :=
  Sample.get.toWire.toBlock

def twoGets : List BlockRequest :=
  [sampleGet, sampleGet]

theorem aligned_requests_served_in_two_reads :
    Serves [(some echo, sampleGet.data), (some echo, sampleGet.data)]
      twoGets :=
  aligned_requests_served twoGets
    ⟨by decide, by decide⟩
    [(some echo, sampleGet.data), (some echo, sampleGet.data)]
    (by simp [normal_echo]) (by simp; decide)
    ⟨[[(some echo, sampleGet.data)], [(some echo, sampleGet.data)]], rfl,
      by decide⟩

/-- One read that brings both requests. -/
def bothInOneRead : List (Option HttpCallback × Bytes) :=
  [(some echo, twoGets.flatMap BlockRequest.data)]

theorem Answered.length
    {requests : List BlockRequest} {events : List SessionEvent}
    (answered : Answered requests events) :
    events.length = 2 * requests.length := by
  induction answered with
  | done => rfl
  | next request response later induction =>
      simp only [List.length_cons, induction]
      omega

/-- Both requests in one read: the second is never answered. -/
theorem requests_in_one_read_not_served :
    Persistent twoGets ∧
      bytesOf bothInOneRead = twoGets.flatMap BlockRequest.data ∧
      ¬ Serves bothInOneRead twoGets := by
  refine ⟨⟨by decide, by decide⟩, by simp [bytesOf, bothInOneRead], ?_⟩
  intro served
  let steps : List SessionStep :=
    [(some echo, .readOk (twoGets.flatMap BlockRequest.data)),
      (some echo, .writeOk)]
  have shape :
      (start.run steps).map
          (fun outcome => (outcome.1.pending, outcome.2.length)) =
        some ([.read], 2) := by
    decide +kernel
  cases ran : start.run steps with
  | none => simp [ran] at shape
  | some outcome =>
      rcases outcome with ⟨session, events⟩
      rw [ran, Option.map_some, Option.some.injEq,
        Prod.mk.injEq] at shape
      have answered := (served.answers steps session events
        (by simp [steps, Successful]) rfl ran shape.1).1
      have both := answered.length
      rw [shape.2] at both
      simp [twoGets] at both

end LightningServer.Net.HttpSession
