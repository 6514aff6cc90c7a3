import LightningServer.Net.HttpSession

/-!
# A session whose callback takes its time

In the running server the callback is a task that other handlers interleave
with.  `reach` is the handler of a completion up to the call of the callback,
and `resume` the rest of it.

`Conversation` is what one connection goes through when the callback of its
requests is answered by tasks: which events its handlers have shown, which
requests it has asked, each as which task, and whether it waits for one.
-/

namespace LightningServer.Net

open LightningServer.Foundation.Numerals
open LightningServer.Net.HttpParser

namespace HttpSession

/-- How far a handler comes without the callback. -/
inductive Reached where
  | ended (session : HttpSession) (events : List SessionEvent)
  | threw (session : HttpSession) (exception : StdException)
  /-- at `callback_(req, &resp)` -/
  | asks (session : HttpSession) (req : HttpRequest)

/-- `handleRequest` up to the callback. -/
def reachRequest (session : HttpSession) (req : HttpRequest) : Reached :=
  if req.method = ascii "OPTIONS" then
    let (session, events) := handleRequest none session req
    .ended session events
  else .asks session req

/-- `onRead` without an error code, up to the callback. -/
def reachRead (session : HttpSession) (bytes : Bytes) : Reached :=
  match parse (session.buffer.append bytes) {} with
  | (.error exception, buffer, _) =>
      .threw { session with buffer := buffer } exception
  | (.ok true, buffer, req) =>
      reachRequest { session with buffer := buffer } req
  | (.ok false, buffer, _) =>
      .ended (doRead { session with buffer := buffer }) []

/-- Deliver a completion, up to the callback. -/
def reach (session : HttpSession) : Completion → Option Reached
  | .readOk bytes =>
      (session.take isRead).map fun taken => reachRead taken.2 bytes
  | .readError =>
      (session.take isRead).map fun taken => .ended taken.2 []
  | .writeOk =>
      (session.take isWrite).map fun taken =>
        let (session, events) := onWrite taken.2 (taken.1 = .write true)
        .ended session events
  | .writeError =>
      (session.take isWrite).map fun taken => .ended taken.2 []

/-- `handleRequest` after the callback, which has filled the response. -/
def resume (session : HttpSession) (req : HttpRequest) :
    Except StdException HttpResponse → HttpSession × List SessionEvent
  | .ok resp => session.sendResponse resp (!req.keepAlive)
  | .error exception => (session, [.escape exception])

/-- A handler and its callback together. -/
def Reached.finish (callback : HttpCallback) :
    Reached → HttpSession × List SessionEvent
  | .ended session events => (session, events)
  | .threw session exception => (session, [.escape exception])
  | .asks session req =>
      let (later, events) :=
        session.resume req (callback req defaultResponse)
      (later, .dispatch req :: events)

theorem finish_reachRequest
    (callback : HttpCallback) (session : HttpSession) (req : HttpRequest) :
    (reachRequest session req).finish callback =
      handleRequest (some callback) session req := by
  by_cases isOptions : req.method = ascii "OPTIONS"
  · simp only [reachRequest, handleRequest, answer, if_pos isOptions,
      Reached.finish]
  · simp only [reachRequest, handleRequest, answer, if_neg isOptions,
      Reached.finish]
    cases callback req defaultResponse with
    | ok resp => rfl
    | error exception => rfl

/-- With the callback at once, it is the handler of the session. -/
theorem complete_eq_reach
    (callback : HttpCallback) (session : HttpSession)
    (completion : Completion) :
    session.complete (some callback) completion =
      (session.reach completion).map (Reached.finish callback) := by
  cases completion with
  | readOk bytes =>
      simp only [complete, reach, Option.map_map]
      congr 1
      funext taken
      simp only [Function.comp_apply, onRead, reachRead]
      rcases parse (taken.2.buffer.append bytes) {} with
        ⟨result, buffer, req⟩
      rcases result with exception | accepted
      · rfl
      · cases accepted with
        | false => rfl
        | true => exact (finish_reachRequest callback _ req).symm
  | readError =>
      simp only [complete, reach, Option.map_map]
      rfl
  | writeOk =>
      simp only [complete, reach, Option.map_map]
      rfl
  | writeError =>
      simp only [complete, reach, Option.map_map]
      rfl

/-! ## What is outstanding -/

theorem pending_of_take
    {session : HttpSession} {isKind : AsyncOp → Bool}
    (few : session.pending.length ≤ 1)
    {taken : AsyncOp × HttpSession}
    (takes : session.take isKind = some taken) :
    session.pending.length = 1 ∧ taken.2.pending = [] := by
  rcases Option.map_eq_some_iff.mp takes with ⟨op, found, rfl⟩
  have inside := List.mem_of_find?_eq_some found
  have one : session.pending.length = 1 := by
    have positive := List.length_pos_of_mem inside
    omega
  rcases List.length_eq_one_iff.mp one with ⟨only, isOnly⟩
  rw [isOnly, List.mem_singleton] at inside
  subst inside
  exact ⟨one, by simp [isOnly]⟩

/-- A handler starts at most one operation, and none if it throws. -/
def Reached.Alone : Reached → Prop
  | .ended session _ => session.pending.length ≤ 1
  | .threw session _ => session.pending = []
  | .asks session _ => session.pending = []

theorem alone_reachRequest
    {session : HttpSession} (quiet : session.pending = [])
    (req : HttpRequest) : (reachRequest session req).Alone := by
  rw [reachRequest]
  split
  · next isOptions =>
      simp [handleRequest, answer, isOptions, sendResponse, Reached.Alone,
        quiet]
  · exact quiet

theorem alone_reachRead
    {session : HttpSession} (quiet : session.pending = [])
    (bytes : Bytes) : (reachRead session bytes).Alone := by
  rw [reachRead]
  split
  · exact quiet
  · refine alone_reachRequest ?_ _
    exact quiet
  · simp [Reached.Alone, doRead, quiet]

/-- A completion is that of the only operation. -/
theorem alone_reach
    {session : HttpSession} {completion : Completion} {reached : Reached}
    (few : session.pending.length ≤ 1)
    (reaches : session.reach completion = some reached) :
    session.pending.length = 1 ∧ reached.Alone := by
  cases completion with
  | readOk bytes =>
      rcases Option.map_eq_some_iff.mp reaches with ⟨taken, takes, rfl⟩
      rcases pending_of_take few takes with ⟨one, quiet⟩
      exact ⟨one, alone_reachRead quiet bytes⟩
  | readError =>
      rcases Option.map_eq_some_iff.mp reaches with ⟨taken, takes, rfl⟩
      rcases pending_of_take few takes with ⟨one, quiet⟩
      exact ⟨one, by simp [Reached.Alone, quiet]⟩
  | writeOk =>
      rcases Option.map_eq_some_iff.mp reaches with ⟨taken, takes, rfl⟩
      rcases pending_of_take few takes with ⟨one, quiet⟩
      refine ⟨one, ?_⟩
      simp only [onWrite, Reached.Alone]
      split
      · simp [quiet]
      · simp [doRead, quiet]
  | writeError =>
      rcases Option.map_eq_some_iff.mp reaches with ⟨taken, takes, rfl⟩
      rcases pending_of_take few takes with ⟨one, quiet⟩
      exact ⟨one, by simp [Reached.Alone, quiet]⟩

/-- The write of the response, unless the callback has thrown. -/
theorem pending_resume
    (session : HttpSession) (req : HttpRequest)
    (outcome : Except StdException HttpResponse) :
    (session.resume req outcome).1.pending.length =
      session.pending.length + if outcome.isOk then 1 else 0 := by
  cases outcome with
  | ok resp => simp [resume, sendResponse, Except.isOk, Except.toBool]
  | error exception => simp [resume, Except.isOk, Except.toBool]

end HttpSession

/-! ## A connection and its tasks -/

/-- A request that a session asks, and the task that works on it. -/
abbrev Asked := Nat × HttpRequest

/--
What a connection has gone through: the session, what its handlers have shown,
the requests it has asked, and the one whose callback has not returned.
`answer` is how the callback ends, for each task that has ended.
-/
inductive Conversation
    (answer : Nat → Option (Except StdException HttpResponse)) :
    HttpSession → List SessionEvent → List Asked → Option Asked → Prop where
  | start : Conversation answer .start [] [] none
  | ended {session later : HttpSession} {seen events : List SessionEvent}
      {asked : List Asked} {completion : Completion}
      (before : Conversation answer session seen asked none)
      (reaches : session.reach completion = some (.ended later events)) :
      Conversation answer later (seen ++ events) asked none
  | threw {session later : HttpSession} {seen : List SessionEvent}
      {asked : List Asked} {completion : Completion}
      {exception : StdException}
      (before : Conversation answer session seen asked none)
      (reaches : session.reach completion = some (.threw later exception)) :
      Conversation answer later (seen ++ [.escape exception]) asked none
  | asks {session later : HttpSession} {seen : List SessionEvent}
      {asked : List Asked} {completion : Completion} {req : HttpRequest}
      (before : Conversation answer session seen asked none)
      (reaches : session.reach completion = some (.asks later req))
      (task : Nat) :
      Conversation answer later (seen ++ [.dispatch req])
        (asked ++ [(task, req)]) (some (task, req))
  | answered {session : HttpSession} {seen : List SessionEvent}
      {asked : List Asked} {task : Nat} {req : HttpRequest}
      {outcome : Except StdException HttpResponse}
      (before : Conversation answer session seen asked (some (task, req)))
      (answers : answer task = some outcome) :
      Conversation answer (session.resume req outcome).1
        (seen ++ (session.resume req outcome).2) asked none

namespace Conversation

variable {answer other : Nat → Option (Except StdException HttpResponse)}
variable {session : HttpSession} {seen : List SessionEvent}
variable {asked : List Asked} {waiting : Option Asked}

/-- Only the tasks that have ended matter. -/
theorem mono
    (talks : Conversation answer session seen asked waiting)
    (kept :
      ∀ task outcome, answer task = some outcome →
        other task = some outcome) :
    Conversation other session seen asked waiting := by
  induction talks with
  | start => exact .start
  | ended before reaches induction => exact .ended induction reaches
  | threw before reaches induction => exact .threw induction reaches
  | asks before reaches task induction => exact .asks induction reaches task
  | answered before answers induction =>
      exact .answered induction (kept _ _ answers)

/-- While the callback is at work, nothing else is outstanding. -/
theorem pending
    (talks : Conversation answer session seen asked waiting) :
    session.pending.length ≤ 1 ∧
      (waiting.isSome = true → session.pending = []) := by
  induction talks with
  | start => exact ⟨Nat.le_refl 1, nofun⟩
  | ended before reaches induction =>
      exact ⟨(HttpSession.alone_reach induction.1 reaches).2, nofun⟩
  | threw before reaches induction =>
      have quiet := (HttpSession.alone_reach induction.1 reaches).2
      exact ⟨by rw [show _ = [] from quiet]; exact Nat.zero_le 1, nofun⟩
  | asks before reaches task induction =>
      have quiet := (HttpSession.alone_reach induction.1 reaches).2
      exact ⟨by rw [show _ = [] from quiet]; exact Nat.zero_le 1,
        fun _ => quiet⟩
  | @answered session _ _ _ _ outcome before answers induction =>
      refine ⟨?_, nofun⟩
      rw [HttpSession.pending_resume, induction.2 rfl]
      split
      · exact Nat.le_refl 1
      · exact Nat.zero_le 1

/-- One step of a session, after a run of it. -/
theorem run_concat
    {before later : HttpSession} {steps : List HttpSession.SessionStep}
    {earlier events : List SessionEvent} {callback : Option HttpCallback}
    {completion : Completion}
    (ran : HttpSession.start.run steps = some (before, earlier))
    (completes :
      before.complete callback completion = some (later, events)) :
    HttpSession.start.run (steps ++ [(callback, completion)]) =
      some (later, earlier ++ events) := by
  rw [HttpSession.run_append_eq_some_iff]
  refine ⟨before, earlier, events, ran, ?_, rfl⟩
  rw [HttpSession.run_cons_eq_some_iff]
  exact ⟨later, events, [], completes, HttpSession.run_nil later,
    (List.append_nil events).symm⟩

/-- A run of the session leads here, up to the callback that is at work. -/
def Ran (session : HttpSession) (seen : List SessionEvent) :
    Option Asked → Prop
  | none => ∃ steps, HttpSession.start.run steps = some (session, seen)
  | some (_, req) =>
      ∃ steps before completion earlier,
        HttpSession.start.run steps = some (before, earlier) ∧
          before.reach completion = some (.asks session req) ∧
            seen = earlier ++ [.dispatch req]

/-- A step without the callback. -/
theorem Ran.concat
    {later : HttpSession} {events : List SessionEvent}
    {completion : Completion} {reached : HttpSession.Reached}
    (ran : Ran session seen none)
    (reaches : session.reach completion = some reached)
    (finishes : reached.finish (fun _ => .ok) = (later, events)) :
    Ran later (seen ++ events) none := by
  rcases ran with ⟨steps, run⟩
  have completes :
      session.complete (some fun _ => .ok) completion =
        some (later, events) := by
    rw [HttpSession.complete_eq_reach, reaches, Option.map_some, finishes]
  exact ⟨_, run_concat run completes⟩

theorem ran (talks : Conversation answer session seen asked waiting) :
    Ran session seen waiting := by
  induction talks with
  | start => exact ⟨[], rfl⟩
  | ended before reaches induction => exact induction.concat reaches rfl
  | threw before reaches induction => exact induction.concat reaches rfl
  | asks before reaches task induction =>
      rcases induction with ⟨steps, run⟩
      exact ⟨steps, _, _, _, run, reaches, rfl⟩
  | @answered session _ _ _ req outcome before answers induction =>
      rcases induction with
        ⟨steps, earlier, completion, shown, run, reaches, rfl⟩
      have completes :
          earlier.complete (some fun _ _ => outcome) completion =
            some ((session.resume req outcome).1,
              .dispatch req :: (session.resume req outcome).2) := by
        rw [HttpSession.complete_eq_reach, reaches]
        rfl
      refine ⟨_, (run_concat run completes).trans ?_⟩
      rw [List.append_assoc]
      rfl

end Conversation

end LightningServer.Net
