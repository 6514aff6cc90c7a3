import LightningServer.Handler.ApiThreads
import LightningServer.Store.Connections

/-!
# The process

`main` opens the connections, starts the IO threads, waits for a signal and
takes everything down again, while the IO threads run handlers inside
`ioc_.run()`.  An event is one step of `main`, a signal, or one step of an IO
thread; a handler that calls the services is a task of `Handler.ApiTask`,
whose actions interleave with everything else.

Of the `io_context` there is the number of operations that are outstanding,
for the sync timer, the acceptor and the sessions, and whether it has been
stopped; which of them ends next, and with which error code, is the choice of
the environment.  A cancelled wait and a closed acceptor only make an error
code certain.
-/

namespace LightningServer.Main

open LightningServer.Foundation
open LightningServer.Foundation.Numerals
open LightningServer.Net
open LightningServer.Store
open LightningServer.Handler

/-! ## State -/

/-- The fields of `ServerConfig` that decide what is started. -/
structure ServerConfig where
  threadNum : Int
  mysqlPoolSize : Int
  redisPoolSize : Int

def ServerConfig.poolSize (config : ServerConfig) : Server → Int
  | .mysql => config.mysqlPoolSize
  | .redis => config.redisPoolSize

/-- What `main` does next. -/
inductive Stage where
  | initDatabase
  | initCache
  /-- the constructor of `HttpServer` -/
  | construct
  | scheduleSync
  | startAccept
  | startThreads
  /-- `while (g_running)` -/
  | wait
  | cancelTimer
  /-- `stopped_.exchange(true)` in `HttpServer::stop` -/
  | markStopped
  | stopContext
  | join (index : Nat)
  | shutdownCache
  | shutdownDatabase
  /-- the destructors of the proxies, before `main` returns the status -/
  | destroyCache (status : Int)
  | destroyDatabase (status : Int)
  | returned (status : Int)
  /-- by an exception that leaves `main`, or by a second signal -/
  | killed
deriving DecidableEq

/-- The handlers that call the services. -/
inductive Job where
  | request
  | sync
deriving DecidableEq

inductive IoThread where
  /-- inside `ioc_.run()`, between two handlers -/
  | polling
  /-- in a handler, whose services are the task at this position -/
  | serving (job : Job) (task : Nat)
  /-- in the handler of an accept, before it reads `stopped_` -/
  | accepting
  /-- out of `ioc_.run()` -/
  | left
deriving DecidableEq

/-- The tasks that were ever started, by the order of their start. -/
abbrev Tasks :=
  Pool (Actions (Option HttpResponse)) Servers

structure Process where
  stage : Stage
  /-- `g_running` -/
  running : Bool
  /-- `initialized_` of the two proxies -/
  initialized : Server → Bool
  /-- the connections that `init` has asked for -/
  opened : Server → Nat
  /-- in the order of `mysql_close` and `redisFree` -/
  closed : Server → List Connection
  /-- `stopped_` of the server -/
  stopped : Bool
  contextStopped : Bool
  /-- waits on `syncTimer` -/
  syncWaits : Nat
  accepts : Nat
  /-- reads and writes of the sessions -/
  sessionOps : Nat
  io : List IoThread
  tasks : Tasks

/-! ## Events -/

/-- How the attempt to get a connection, or a socket, ends. -/
inductive Attempt where
  | succeeds
  | fails
  /-- the library has no object for it -/
  | noHandle
deriving DecidableEq

/-- How a handler of a session ends that does not call the services. -/
inductive SessionEnd where
  /-- with another operation -/
  | again
  | closes
  /-- with an exception -/
  | throws
deriving DecidableEq

inductive ProcessEvent where
  | main (attempt : Attempt)
  | signal
  /-- the handler of an accept begins -/
  | accept (thread : Nat) (ec : Bool)
  /-- the handler of the sync timer begins -/
  | timer (thread : Nat) (ec : Bool)
  /-- a session has parsed a request, and calls the API -/
  | request (thread : Nat) (req : HttpRequest) (resp : HttpResponse)
  /-- any other handler of a session -/
  | session (thread : Nat) (ends : SessionEnd)
  /-- an action of the task that the thread works on -/
  | act (thread : Nat) (decision : Decision)
  /-- the rest of a handler, after the services -/
  | finish (thread : Nat)
  /-- `ioc_.run()` returns -/
  | leave (thread : Nat)
  /-- the TTL of a key runs out -/
  | timeOut (key : Text)

/-! ## Steps of `main` -/

namespace Process

/-- `main` has neither returned nor been killed. -/
def Alive (process : Process) : Bool :=
  match process.stage with
  | .returned _ => false
  | .killed => false
  | _ => true

def setStock (process : Process) (server : Server)
    (connections : List Connection) : Process :=
  { process with
    tasks :=
      { process.tasks with
        world :=
          { process.tasks.world with
            stock :=
              Function.update process.tasks.world.stock server
                connections } } }

/-- One turn of the loop of `init`, or its end. -/
def init (process : Process) (server : Server) (size : Int) (next : Stage)
    (attempt : Attempt) : Process :=
  let conn := process.opened server
  if size ≤ conn then
    { process with
      initialized := Function.update process.initialized server true
      stage := next }
  else
    let asked :=
      { process with
        opened := Function.update process.opened server (conn + 1) }
    match attempt with
    | .succeeds =>
        asked.setStock server (process.tasks.world.stock server ++ [conn])
    | .noHandle => { asked with stage := .destroyCache 1 }
    | .fails =>
        -- the cache proxy leaves the context of a failed connect as it is
        let closed :=
          if server = .mysql then process.closed server ++ [conn]
          else process.closed server
        { asked with
          closed := Function.update process.closed server closed
          stage := .destroyCache 1 }

def shutdown (process : Process) (server : Server) : Process :=
  if process.initialized server then
    { process.setStock server [] with
      closed :=
        Function.update process.closed server
          (process.closed server ++ process.tasks.world.stock server)
      initialized := Function.update process.initialized server false }
  else process

/-- `threads_.reserve` refuses a negative number, which it takes as huge. -/
def startThread (process : Process) (threadNum : Int)
    (attempt : Attempt) : Process :=
  if threadNum < 0 then { process with stage := .killed }
  else if threadNum ≤ process.io.length then
    { process with stage := .wait }
  else if attempt = .succeeds then
    { process with io := process.io ++ [.polling] }
  else { process with stage := .killed }

/-- `main` goes on, unless it is blocked in a `join`. -/
def mainStep (process : Process) (config : ServerConfig)
    (attempt : Attempt) : Process :=
  match process.stage with
  | .initDatabase =>
      process.init .mysql config.mysqlPoolSize .initCache attempt
  | .initCache =>
      process.init .redis config.redisPoolSize .construct attempt
  | .construct =>
      if attempt = .succeeds then { process with stage := .scheduleSync }
      else { process with stage := .killed }
  | .scheduleSync =>
      { process with
        syncWaits := process.syncWaits + 1, stage := .startAccept }
  | .startAccept =>
      { process with
        accepts := process.accepts + 1, stage := .startThreads }
  | .startThreads => process.startThread config.threadNum attempt
  | .wait =>
      if process.running then process
      else { process with stage := .cancelTimer }
  | .cancelTimer => { process with stage := .markStopped }
  | .markStopped => { process with stopped := true, stage := .stopContext }
  | .stopContext =>
      { process with contextStopped := true, stage := .join 0 }
  | .join index =>
      match process.io[index]? with
      | none => { process with stage := .shutdownCache }
      | some .left => { process with stage := .join (index + 1) }
      | some _ => process
  | .shutdownCache =>
      { process.shutdown .redis with stage := .shutdownDatabase }
  | .shutdownDatabase =>
      { process.shutdown .mysql with stage := .destroyCache 0 }
  | .destroyCache status =>
      { process.shutdown .redis with stage := .destroyDatabase status }
  | .destroyDatabase status =>
      { process.shutdown .mysql with stage := .returned status }
  | .returned _ => process
  | .killed => process

/-- The first signal asks `main` to end, the second ends the process. -/
def signalHandler (process : Process) : Process :=
  if process.running then { process with running := false }
  else { process with stage := .killed }

/-! ## Steps of the IO threads -/

/-- The thread can take a handler. -/
def Polls (process : Process) (thread : Nat) : Prop :=
  process.io[thread]? = some .polling ∧ process.contextStopped = false

instance (process : Process) (thread : Nat) :
    Decidable (process.Polls thread) :=
  inferInstanceAs (Decidable (_ ∧ _))

def setIo (process : Process) (thread : Nat) (state : IoThread) :
    Process :=
  { process with io := process.io.set thread state }

section Threads

variable (json : JsonLibrary)
variable (unsent : Statement → World → Option (List Row) × World)

/-- The handler of the thread calls the services. -/
def startTask (process : Process) (thread : Nat) (job : Job)
    (task : ApiTask) : Process :=
  { process.setIo thread (.serving job process.tasks.threads.length) with
    tasks := actionStep json unsent process.tasks (.arrive task) }

def onAccept (process : Process) (thread : Nat) (ec : Bool) : Process :=
  if process.Polls thread ∧ 0 < process.accepts then
    { process.setIo thread .accepting with
      accepts := process.accepts - 1
      -- a new session starts to read
      sessionOps :=
        if ec then process.sessionOps else process.sessionOps + 1 }
  else process

def onTimer (process : Process) (thread : Nat) (ec : Bool) : Process :=
  if process.Polls thread ∧ 0 < process.syncWaits then
    let taken := { process with syncWaits := process.syncWaits - 1 }
    if !ec && process.running then
      taken.startTask json unsent thread .sync .syncViewCounts
    else taken
  else process

def onRequest (process : Process) (thread : Nat) (req : HttpRequest)
    (resp : HttpResponse) : Process :=
  if process.Polls thread ∧ 0 < process.sessionOps then
    let taken := { process with sessionOps := process.sessionOps - 1 }
    taken.startTask json unsent thread .request (.request req resp)
  else process

def onSession (process : Process) (thread : Nat) (ends : SessionEnd) :
    Process :=
  if process.Polls thread ∧ 0 < process.sessionOps then
    match ends with
    | .again => process
    | .closes => { process with sessionOps := process.sessionOps - 1 }
    | .throws =>
        { process.setIo thread .left with
          sessionOps := process.sessionOps - 1 }
  else process

def act (process : Process) (thread : Nat) (decision : Decision) :
    Process :=
  match process.io[thread]? with
  | some (.serving _ task) =>
      { process with
        tasks :=
          actionStep json unsent process.tasks (.advance task decision) }
  | _ => process

/-- What a handler does after the services have returned. -/
def afterJob (process : Process) : Job → Process
  -- `async_write` of the response
  | .request => { process with sessionOps := process.sessionOps + 1 }
  -- `scheduleSync()`
  | .sync => { process with syncWaits := process.syncWaits + 1 }

def finish (process : Process) (thread : Nat) : Process :=
  match process.io[thread]? with
  | some (.serving job task) =>
      match process.tasks.outcome? task with
      | none => process
      | some (.ok _) => (process.afterJob job).setIo thread .polling
      -- the `catch` is outside of `ioc_.run()`
      | some (.error _) => process.setIo thread .left
  | some .accepting =>
      { process.setIo thread .polling with
        accepts :=
          if process.stopped then process.accepts
          else process.accepts + 1 }
  | _ => process

/-- Nothing is outstanding, and no handler could start anything. -/
def OutOfWork (process : Process) : Prop :=
  process.syncWaits = 0 ∧ process.accepts = 0 ∧ process.sessionOps = 0 ∧
    ∀ state ∈ process.io, state = .polling ∨ state = .left

instance (process : Process) : Decidable process.OutOfWork :=
  inferInstanceAs (Decidable (_ ∧ _ ∧ _ ∧ _))

/-- `run` returns when it is stopped, and stops when it is out of work. -/
def leave (process : Process) (thread : Nat) : Process :=
  if process.io[thread]? = some .polling ∧
      (process.contextStopped = true ∨ process.OutOfWork) then
    { process.setIo thread .left with contextStopped := true }
  else process

def step (config : ServerConfig) (process : Process)
    (event : ProcessEvent) : Process :=
  if process.Alive then
    match event with
    | .main attempt => process.mainStep config attempt
    | .signal => process.signalHandler
    | .accept thread ec => process.onAccept thread ec
    | .timer thread ec => process.onTimer json unsent thread ec
    | .request thread req resp =>
        process.onRequest json unsent thread req resp
    | .session thread ends => process.onSession thread ends
    | .act thread decision => process.act json unsent thread decision
    | .finish thread => process.finish thread
    | .leave thread => process.leave thread
    | .timeOut key =>
        { process with
          tasks := actionStep json unsent process.tasks (.outside key) }
  else process

end Threads

/-- Before `db->init()`. -/
def start (world : World) : Process where
  stage := .initDatabase
  running := true
  initialized := fun _ => false
  opened := fun _ => 0
  closed := fun _ => []
  stopped := false
  contextStopped := false
  syncWaits := 0
  accepts := 0
  sessionOps := 0
  io := []
  tasks := .empty { stock := fun _ => [], world := world }

end Process

/-- Two threads with one connection of each kind. -/
def smallConfig : ServerConfig where
  threadNum := 2
  mysqlPoolSize := 1
  redisPoolSize := 1

/-- The process after these events. -/
def processRun (json : JsonLibrary)
    (unsent : Statement → World → Option (List Row) × World)
    (config : ServerConfig) (world : World) (events : List ProcessEvent) :
    Process :=
  Transition.run (Process.step json unsent config) (.start world) events

theorem processRun_concat
    (json : JsonLibrary)
    (unsent : Statement → World → Option (List Row) × World)
    (config : ServerConfig) (world : World) (events : List ProcessEvent)
    (event : ProcessEvent) :
    processRun json unsent config world (events ++ [event]) =
      (processRun json unsent config world events).step json unsent config
        event :=
  Transition.run_append ..

end LightningServer.Main
