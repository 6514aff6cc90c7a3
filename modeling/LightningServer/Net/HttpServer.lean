import LightningServer.Foundation.Transition
import LightningServer.Net.ContentLength
import LightningServer.Net.HttpSession

/-!
# The server and its IO threads

Every handler runs on one of the threads that are inside `ioc_.run()`.  The
thread's `try` block surrounds `run()` as a whole, so an exception that leaves
a handler ends the thread: the server goes on with one thread less, and with
none left no handler runs any more.

Handlers of different connections may run at the same time; they share
nothing in this layer, so a run is a sequence of completed handlers.
-/

namespace LightningServer.Net

open LightningServer.Foundation.Transition
open LightningServer.Net.HttpParser

structure HttpServer where
  /-- threads inside `ioc_.run()` -/
  ioThreads : Nat
  sessions : List HttpSession
  /-- `stopped_` -/
  stopped : Bool

inductive ServerEvent where
  /-- `async_accept` completes with a socket -/
  | accepted
  /-- `async_accept` completes with an error code -/
  | acceptError
  /-- an operation of a session completes -/
  | complete (index : Nat) (callback : Option HttpCallback)
      (completion : Completion)
  | stop

namespace HttpServer

/-! ## Translation of the source -/

/-- `start`: the threads enter `ioc_.run()`, and an accept is outstanding. -/
def start (threadNum : Nat) : HttpServer :=
  { ioThreads := threadNum, sessions := [], stopped := false }

/-- A thread is there to run handlers. -/
def Serving (server : HttpServer) : Prop :=
  0 < server.ioThreads ∧ server.stopped = false

instance (server : HttpServer) : Decidable server.Serving :=
  inferInstanceAs (Decidable (_ ∧ _))

def isEscape : SessionEvent → Bool
  | .escape _ => true
  | _ => false

/-- The thread that ran a handler leaves `ioc_.run()` with the exception. -/
def threadsAfter (ioThreads : Nat) (events : List SessionEvent) : Nat :=
  if events.any isEscape then ioThreads - 1 else ioThreads

def completeSession (server : HttpServer) (index : Nat)
    (callback : Option HttpCallback) (completion : Completion) :
    HttpServer :=
  match server.sessions[index]? with
  | none => server
  | some session =>
      match session.complete callback completion with
      | none => server
      | some (next, events) =>
          { server with
            ioThreads := threadsAfter server.ioThreads events
            sessions := server.sessions.set index next }

/-- An event that needs a handler has no effect when no thread can run it. -/
def step (server : HttpServer) (event : ServerEvent) : HttpServer :=
  match event with
  | .stop => { server with ioThreads := 0, stopped := true }
  | .acceptError => server
  | .accepted =>
      if server.Serving then
        { server with sessions := server.sessions ++ [.start] }
      else server
  | .complete index callback completion =>
      if server.Serving then
        server.completeSession index callback completion
      else server

/-! ## Exceptions that leave a handler -/

/-- The callback of the event, if it has one, returns normally. -/
def NormalCallback : ServerEvent → Prop
  | .complete _ callback _ => HttpSession.Normal callback
  | _ => True

/-- A read that completes leaves bytes whose declared length converts. -/
def SessionConverts (session : HttpSession) : Completion → Prop
  | .readOk bytes =>
      AsyncOp.read ∈ session.pending →
        LengthConverts (session.buffer.readable ++ bytes)
  | _ => True

/-- The same of an event of the server. -/
def ReadConverts (server : HttpServer) : ServerEvent → Prop
  | .complete index _ completion =>
      ∀ session ∈ server.sessions[index]?,
        SessionConverts session completion
  | _ => True

theorem onRead_escape_iff
    {callback : Option HttpCallback}
    (normal : HttpSession.Normal callback)
    (session : HttpSession) (bytes : Bytes) :
    (HttpSession.onRead callback session bytes).2.any isEscape = true ↔
      ¬ LengthConverts (session.buffer.readable ++ bytes) := by
  have view := parse_eq_parseBytes (session.buffer.append bytes) {}
  rw [Buffer.readable_append] at view
  rw [← parseBytes_ok_iff, ← view]
  unfold HttpSession.onRead
  split
  · next equal => simp [equal, isEscape]
  · next req equal =>
      rcases HttpSession.answer_of_normal normal req with ⟨resp, answered⟩
      simp [equal, HttpSession.handleRequest, answered,
        HttpSession.sendResponse, isEscape]
  · next equal => simp [equal]

theorem onWrite_escape
    (session : HttpSession) (close : Bool) :
    (HttpSession.onWrite session close).2.any isEscape = false := by
  cases close with
  | false => rfl
  | true => rfl

/-- A read completes when one is outstanding, and the buffer is as it was. -/
theorem take_isRead
    {session : HttpSession} (outstanding : AsyncOp.read ∈ session.pending) :
    ∃ taken,
      session.take HttpSession.isRead = some taken ∧
        taken.2.buffer = session.buffer := by
  cases first : session.pending.find? HttpSession.isRead with
  | none =>
      have all := List.find?_eq_none.mp first .read outstanding
      simp [HttpSession.isRead] at all
  | some op => exact ⟨_, by rw [HttpSession.take, first]; rfl, rfl⟩

theorem take_isRead_eq_none
    {session : HttpSession} (idle : AsyncOp.read ∉ session.pending) :
    session.take HttpSession.isRead = none := by
  rw [HttpSession.take, Option.map_eq_none_iff, List.find?_eq_none]
  intro op member kind
  cases op with
  | read => exact idle member
  | write close => simp [HttpSession.isRead] at kind

/-- The exception of a completion that escapes, if one does. -/
theorem complete_escape
    {callback : Option HttpCallback}
    (normal : HttpSession.Normal callback)
    (session : HttpSession) (completion : Completion) :
    (session.complete callback completion = none ∧
        SessionConverts session completion) ∨
      ∃ next events,
        session.complete callback completion = some (next, events) ∧
          (events.any isEscape = true ↔
            ¬ SessionConverts session completion) := by
  cases completion with
  | readOk bytes =>
      by_cases outstanding : AsyncOp.read ∈ session.pending
      · right
        rcases take_isRead outstanding with ⟨taken, found, same⟩
        refine ⟨(HttpSession.onRead callback taken.2 bytes).1,
          (HttpSession.onRead callback taken.2 bytes).2,
          by rw [HttpSession.complete, found]; rfl, ?_⟩
        rw [onRead_escape_iff normal, same, SessionConverts,
          imp_iff_right outstanding]
      · left
        rw [HttpSession.complete, take_isRead_eq_none outstanding]
        exact ⟨rfl, fun member => absurd member outstanding⟩
  | readError =>
      simp only [HttpSession.complete, SessionConverts]
      cases session.take HttpSession.isRead with
      | none => simp
      | some taken => simp
  | writeOk =>
      simp only [HttpSession.complete, SessionConverts]
      cases session.take HttpSession.isWrite with
      | none => simp
      | some taken =>
          right
          refine
            ⟨(HttpSession.onWrite taken.2 (taken.1 = .write true)).1,
              (HttpSession.onWrite taken.2 (taken.1 = .write true)).2,
              rfl, ?_⟩
          rw [onWrite_escape]
          simp
  | writeError =>
      simp only [HttpSession.complete, SessionConverts]
      cases session.take HttpSession.isWrite with
      | none => simp
      | some taken => simp

/-- What one completed operation does to the number of threads. -/
theorem ioThreads_completeSession_eq_iff
    {server : HttpServer} (serving : server.Serving) (index : Nat)
    {callback : Option HttpCallback}
    (normal : HttpSession.Normal callback) (completion : Completion) :
    (server.completeSession index callback completion).ioThreads =
        server.ioThreads ↔
      ReadConverts server (.complete index callback completion) := by
  rw [completeSession, ReadConverts]
  cases server.sessions[index]? with
  | none => simp
  | some session =>
      simp only [Option.mem_some_iff, forall_eq']
      rcases complete_escape normal session completion with
        ⟨nothing, converts⟩ | ⟨next, events, done, escapes⟩
      · simp [nothing, converts]
      · simp only [done, threadsAfter]
        by_cases converts : SessionConverts session completion
        · have kept : ¬ events.any isEscape = true := fun escaped =>
            escapes.mp escaped converts
          simp [kept, converts]
        · have positive := serving.1
          simp only [escapes.mpr converts, if_true, converts, iff_false]
          omega

/-- One step: a thread is lost exactly when a read does not convert. -/
theorem ioThreads_step_eq_iff
    {server : HttpServer} (serving : server.Serving)
    {event : ServerEvent} (running : event ≠ .stop)
    (normal : NormalCallback event) :
    (server.step event).ioThreads = server.ioThreads ↔
      ReadConverts server event := by
  cases event with
  | stop => exact absurd rfl running
  | acceptError => simp [step, ReadConverts]
  | accepted => simp [step, serving, ReadConverts]
  | complete index callback completion =>
      simp only [step, serving, if_true]
      exact ioThreads_completeSession_eq_iff serving index normal completion

theorem stopped_step
    (server : HttpServer) {event : ServerEvent}
    (running : event ≠ .stop) :
    (server.step event).stopped = server.stopped := by
  cases event with
  | stop => exact absurd rfl running
  | acceptError => rfl
  | accepted =>
      simp only [step]
      split
      · rfl
      · rfl
  | complete index callback completion =>
      simp only [step]
      split
      · unfold completeSession
        split
        · rfl
        · split
          · rfl
          · rfl
      · rfl

/-! ## Runs -/

theorem along_ioThreads_iff
    {server : HttpServer} (serving : server.Serving)
    {events : List ServerEvent} (running : .stop ∉ events)
    (normal : ∀ event ∈ events, NormalCallback event) :
    Along step
        (fun state event =>
          (step state event).ioThreads = server.ioThreads)
        server events ↔
      Along step ReadConverts server events := by
  induction events generalizing server with
  | nil => simp
  | cons event rest induction =>
      have here : event ≠ .stop := by
        rintro rfl
        exact running (by simp)
      have oneStep :=
        ioThreads_step_eq_iff serving here (normal event (by simp))
      rw [along_cons, along_cons, oneStep]
      apply and_congr_right
      intro converts
      have kept := oneStep.mpr converts
      have stillServing : (server.step event).Serving :=
        ⟨by rw [kept]; exact serving.1,
          (stopped_step server here).trans serving.2⟩
      rw [← induction stillServing
          (fun member => running (List.mem_cons_of_mem event member))
          fun other member =>
            normal other (List.mem_cons_of_mem event member),
        kept]

/--
Until `stop`, all threads stay inside `ioc_.run()` if and only if every read
that is delivered leaves bytes whose declared body length converts.
-/
theorem all_threads_running_iff
    (threadNum : Nat) (positive : 1 ≤ threadNum)
    (events : List ServerEvent) (running : .stop ∉ events)
    (normal : ∀ event ∈ events, NormalCallback event) :
    (∀ count,
        (run step (start threadNum) (events.take count)).ioThreads =
          threadNum) ↔
      Along step ReadConverts (start threadNum) events := by
  rw [forall_take_iff step (fun server => server.ioThreads = threadNum)]
  have serving : (start threadNum).Serving := ⟨positive, rfl⟩
  have steps := along_ioThreads_iff serving running normal
  exact (and_iff_right rfl).trans steps

/-! ## One request that ends the only thread -/

/-- One connection, and one read on it. -/
def oneRead (bytes : Bytes) : List ServerEvent :=
  [.accepted, .complete 0 none (.readOk bytes)]

theorem normalCallback_oneRead (bytes : Bytes) :
    ∀ event ∈ oneRead bytes, NormalCallback event := by
  intro event member
  simp only [oneRead, List.mem_cons, List.not_mem_nil, or_false] at member
  rcases member with rfl | rfl
  · trivial
  · intro handler isHandler
    simp at isHandler

theorem all_threads_running_after_post :
    (run step (start 2)
        ((oneRead
            (ascii "P / HTTP/1.1\r\nContent-Length: 2\r\n\r\nab")).take
          2)).ioThreads = 2 :=
  (all_threads_running_iff 2 (by decide) _
      (by simp [oneRead]) (normalCallback_oneRead _)).mpr
    ⟨trivial, by
      intro session found _
      cases Option.some.inj found
      rw [HttpSession.readable_start]
      decide, trivial⟩ 2

/-- A content-length that is not a number ends the only IO thread. -/
theorem no_thread_after_bad_content_length :
    ¬ ∀ count,
      (run step (start 1)
          ((oneRead
              (ascii "P / HTTP/1.1\r\nContent-Length: x\r\n\r\n")).take
            count)).ioThreads = 1 := by
  intro always
  have ended := always 2
  revert ended
  decide +kernel

end HttpServer

end LightningServer.Net
