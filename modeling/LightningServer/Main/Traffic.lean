import LightningServer.Main.Tasks
import LightningServer.Net.Conversation

/-!
# The process and its connections

`Process` knows of the sessions only how many operations they have
outstanding.  Here every connection has its `HttpSession`: the completion of
one of its operations runs the handler of that session, a request that it has
parsed becomes a task, and the thread writes the response of this session
when the task has ended.

A task keeps what the frame of its handler holds, `orders`: nothing but the
session and the request.
-/

namespace LightningServer.Main

open LightningServer.Foundation
open LightningServer.Foundation.Numerals
open LightningServer.Net
open LightningServer.Store
open LightningServer.Handler

/-! ## State and events -/

/-- What a task has been started for. -/
inductive Order where
  | sync
  | request (connection : Nat) (req : HttpRequest)

/-- The callback works on the response that the session has prepared. -/
def Order.task : Order → ApiTask
  | .sync => .syncViewCounts
  | .request _ req => .request req HttpSession.defaultResponse

/-- One accepted connection. -/
structure Exchange where
  session : HttpSession
  /-- what the handlers of the session have done -/
  done : List SessionEvent

structure Traffic where
  process : Process
  /-- by the order of their accepts -/
  exchanges : List Exchange
  /-- for each task, by the order of their start -/
  orders : List Order

inductive TrafficEvent where
  | main (attempt : Attempt)
  | signal
  | accept (thread : Nat) (ec : Bool)
  | timer (thread : Nat) (ec : Bool)
  /-- an operation of the connection completes -/
  | complete (thread connection : Nat) (completion : Completion)
  | act (thread : Nat) (decision : Decision)
  | finish (thread : Nat)
  | leave (thread : Nat)
  | timeOut (key : Text)

/-! ## Steps -/

namespace Traffic

section Steps

variable (json : JsonLibrary)
variable (unsent : Statement → World → Option (List Row) × World)
variable (config : ServerConfig)

/-- The connections have no part in the event. -/
def own (traffic : Traffic) (event : ProcessEvent) : Traffic :=
  { traffic with
    process := traffic.process.step json unsent config event
    orders :=
      if (traffic.process.starts event).isSome then
        traffic.orders ++ [.sync]
      else traffic.orders }

def setExchange (traffic : Traffic) (connection : Nat)
    (session : HttpSession) (done : List SessionEvent) : Traffic :=
  { traffic with
    exchanges :=
      traffic.exchanges.set connection { session := session, done := done } }

/-- A session starts to read on the socket. -/
def onAccept (traffic : Traffic) (thread : Nat) (ec : Bool) : Traffic :=
  if traffic.process.Polls thread ∧ 0 < traffic.process.accepts then
    { traffic with
      process :=
        traffic.process.step json unsent config (.accept thread ec)
      exchanges :=
        if ec then traffic.exchanges
        else traffic.exchanges ++ [{ session := .start, done := [] }] }
  else traffic

/-- What the handler of a session is to the process. -/
def reachedEvent (thread : Nat) : HttpSession.Reached → ProcessEvent
  | .ended session _ =>
      .session thread (if session.pending = [] then .closes else .again)
  | .threw _ _ => .session thread .throws
  | .asks _ req => .request thread req HttpSession.defaultResponse

/-- The handler of the session runs, until it ends or calls the API. -/
def onReached (traffic : Traffic) (thread connection : Nat)
    (exchange : Exchange) (reached : HttpSession.Reached) : Traffic :=
  let later :=
    { traffic with
      process :=
        traffic.process.step json unsent config
          (reachedEvent thread reached) }
  match reached with
  | .ended session events =>
      later.setExchange connection session (exchange.done ++ events)
  | .threw session exception =>
      later.setExchange connection session
        (exchange.done ++ [.escape exception])
  | .asks session req =>
      { later.setExchange connection session
          (exchange.done ++ [.dispatch req]) with
        orders := traffic.orders ++ [.request connection req] }

def onComplete (traffic : Traffic) (thread connection : Nat)
    (completion : Completion) : Traffic :=
  match traffic.exchanges[connection]? with
  | none => traffic
  | some exchange =>
      match exchange.session.reach completion with
      | none => traffic
      | some reached =>
          if traffic.process.Polls thread then
            traffic.onReached json unsent config thread connection exchange
              reached
          else traffic

/-- The response as the callback leaves it, or its exception. -/
def answer (outcome : Except StdException (Option HttpResponse)) :
    Except StdException HttpResponse :=
  outcome.map fun response =>
    response.getD HttpSession.defaultResponse

/-- The rest of the handler, if it is that of a session. -/
def onFinish (traffic : Traffic) (thread : Nat) : Traffic :=
  let later := traffic.own json unsent config (.finish thread)
  match traffic.process.io[thread]? with
  | some (.serving _ task) =>
      match traffic.process.tasks.outcome? task, traffic.orders[task]? with
      | some outcome, some (.request connection req) =>
          match traffic.exchanges[connection]? with
          | none => later
          | some exchange =>
              let (session, events) :=
                exchange.session.resume req (answer outcome)
              later.setExchange connection session
                (exchange.done ++ events)
      | _, _ => later
  | _ => later

def step (traffic : Traffic) (event : TrafficEvent) : Traffic :=
  if traffic.process.Alive then
    match event with
    | .main attempt => traffic.own json unsent config (.main attempt)
    | .signal => traffic.own json unsent config .signal
    | .accept thread ec => traffic.onAccept json unsent config thread ec
    | .timer thread ec => traffic.own json unsent config (.timer thread ec)
    | .complete thread connection completion =>
        traffic.onComplete json unsent config thread connection completion
    | .act thread decision =>
        traffic.own json unsent config (.act thread decision)
    | .finish thread => traffic.onFinish json unsent config thread
    | .leave thread => traffic.own json unsent config (.leave thread)
    | .timeOut key => traffic.own json unsent config (.timeOut key)
  else traffic

end Steps

/-- Before `db->init()`. -/
def start (world : World) : Traffic where
  process := .start world
  exchanges := []
  orders := []

end Traffic

/-- The process and its connections after these events. -/
def trafficRun (json : JsonLibrary)
    (unsent : Statement → World → Option (List Row) × World)
    (config : ServerConfig) (world : World) (events : List TrafficEvent) :
    Traffic :=
  Transition.run (Traffic.step json unsent config) (.start world) events

end LightningServer.Main
