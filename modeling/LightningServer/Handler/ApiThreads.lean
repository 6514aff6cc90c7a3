import LightningServer.Handler.ApiRuns
import LightningServer.Handler.OutageReport
import LightningServer.Store.Connections
import LightningServer.Store.ProxyActions

/-!
# The API on several threads

Requests and the periodic sync run on any number of threads, on two levels:
action by action, as the proxies work on the pools, and call by call.  The
first level is what the program does; the second is the one on which the
services are reasoned about.  `actions_linearize` connects them.
-/

namespace LightningServer.Handler

open LightningServer.Foundation
open LightningServer.Foundation.Numerals
open LightningServer.Net
open LightningServer.Store
open LightningServer.Service
open LightningServer.Handler.ApiHandler

/-! ## Tasks of the threads -/

/-- What a thread of `ioc_.run()` does with the services. -/
inductive ApiTask where
  | request (req : HttpRequest) (resp : HttpResponse)
  /-- the handler of the sync timer -/
  | syncViewCounts

/-- The code of a task; the sync has no response. -/
def taskCode (json : JsonLibrary) :
    ApiTask → Service (Option HttpResponse)
  | .request req resp => do
      let answered ← handleRequest json req resp
      pure (some answered)
  | .syncViewCounts => do
      ArticleService.syncViewCounts
      pure none

/-- Actions of the threads, and keys whose time to live runs out. -/
abbrev ActionEvent := RuledEvent ApiTask Decision Text

/-- Calls of the threads, and keys whose time to live runs out. -/
abbrev CallEvent := RuledEvent ApiTask Ruling Text

/-- The TTL of a key runs out. -/
def timeOutKey (key : Text) (servers : Servers) : Servers :=
  { servers with world := servers.world.timeOut key }

theorem world_timeOutKey (key : Text) (servers : Servers) :
    (timeOutKey key servers).world = servers.world.timeOut key :=
  rfl

section

variable (json : JsonLibrary)
variable (unsent : Statement → World → Option (List Row) × World)

abbrev actionStep :
    Pool (Actions (Option HttpResponse)) Servers → ActionEvent →
      Pool (Actions (Option HttpResponse)) Servers :=
  smallStep (perform unsent) Call.actions (taskCode json) timeOutKey

/-- From full pools and an empty Redis. -/
def actionRun (stock : Server → List Connection) (world : World)
    (events : List ActionEvent) :
    Pool (Actions (Option HttpResponse)) Servers :=
  Transition.run (actionStep json unsent)
    (.empty { stock := stock, world := world }) events

abbrev callStep :
    Pool (Service (Option HttpResponse)) World → CallEvent →
      Pool (Service (Option HttpResponse)) World :=
  largeStep execRuled (taskCode json) fun key world => world.timeOut key

def callRun (world : World) (events : List CallEvent) :
    Pool (Service (Option HttpResponse)) World :=
  Transition.run (callStep json) (.empty world) events

end

/-! ## The size of the tables -/

theorem length_exec (call : Call) (world : World) :
    (exec call world).2.database.articles.length =
        world.database.articles.length ∧
      (exec call world).2.database.comments.length ≤
        world.database.comments.length + 1 := by
  have sameFixed := congrArg List.length (fixed_exec call world)
  rw [List.length_map, List.length_map] at sameFixed
  refine ⟨sameFixed, ?_⟩
  cases call with
  | createComment comment =>
      rcases world.database.createComment_cases comment
          (world.accepts world.ticks) world.now with
        ⟨refused, -⟩ | ⟨-, -, -, appended, -⟩
      · have same := congrArg (fun result => result.2.comments.length) refused
        exact Nat.le_succ_of_le (Nat.le_of_eq same)
      · have longer :=
          congrArg List.length (Database.comments_of_append appended)
        rw [List.length_append, List.length_singleton] at longer
        exact Nat.le_of_eq longer
  | setViewCount id count =>
      have same :
          (world.database.setViewCount id count world.now).2.comments =
            world.database.comments := by
        rw [Database.setViewCount]
        split
        · rfl
        · rfl
      exact Nat.le_succ_of_le (Nat.le_of_eq (congrArg List.length same))
  | _ => exact Nat.le_succ _

section Runs

variable {json : JsonLibrary}

/-- A property of the world that calls and timeouts of keys keep. -/
theorem callRun_invariant
    (property : World → Prop)
    (calls :
      ∀ call world, property world → property (exec call world).2)
    (timeOuts : ∀ key world, property world → property (world.timeOut key))
    {world : World} (initial : property world) (events : List CallEvent) :
    property (callRun json world events).world := by
  apply Transition.run_invariant
    (fun pool : Pool (Service (Option HttpResponse)) World =>
      property pool.world)
  · intro pool event holds
    rcases world_largeStep_cases pool event with
      same | ⟨ruling, call, moved⟩ | ⟨key, changed⟩
    · rw [same]
      exact holds
    · rw [moved]
      rcases execRuled_cases ruling call pool.world with same | executed
      · rw [same]
        exact holds
      · rw [executed]
        exact calls call pool.world holds
    · rw [changed]
      exact timeOuts key pool.world holds
  · exact initial

/-- The articles keep their number, and an event adds at most a comment. -/
theorem counted_callRun
    {world : World} {events : List CallEvent}
    (articles : world.database.articles.length < 2 ^ 31)
    (comments :
      world.database.comments.length + events.length < 2 ^ 31) :
    Counted world.database.articles.length
      (callRun json world events).world := by
  have same :
      (callRun json world events).world.database.articles.length =
        world.database.articles.length :=
    callRun_invariant
      (fun later =>
        later.database.articles.length = world.database.articles.length)
      (fun call later holds => (length_exec call later).1.trans holds)
      (fun _ _ holds => holds) rfl events
  have few :
      (callRun json world events).world.database.comments.length ≤
        world.database.comments.length + events.length := by
    refine Transition.measure_run_le
      (fun pool : Pool (Service (Option HttpResponse)) World =>
        pool.world.database.comments.length) ?_ _ events
    intro pool event
    rcases world_largeStep_cases pool event with
      still | ⟨ruling, call, moved⟩ | ⟨key, changed⟩
    · rw [still]
      exact Nat.le_succ _
    · rw [moved]
      rcases execRuled_cases ruling call pool.world with still | executed
      · rw [still]
        exact Nat.le_succ _
      · rw [executed]
        exact (length_exec call pool.world).2
    · rw [changed]
      exact Nat.le_succ _
  exact ⟨same, by rw [same]; exact articles, by omega⟩

/-! ## From the actions to the calls -/

/-- The threads on both levels after the same events. -/
abbrev SameThreads
    (unsent : Statement → World → Option (List Row) × World) (count : Nat)
    (small : Pool (Actions (Option HttpResponse)) Servers)
    (large : Pool (Service (Option HttpResponse)) World) : Prop :=
  Refines (perform unsent) execRuled Servers.world (Counted count)
    Call.actions small large

/-- A run of whole calls that keeps up with the actions. -/
theorem exists_sameThreads
    (json : JsonLibrary)
    (unsent : Statement → World → Option (List Row) × World)
    (stock : Server → List Connection) {world : World}
    {events : List ActionEvent}
    (articles : world.database.articles.length < 2 ^ 31)
    (comments :
      world.database.comments.length + events.length < 2 ^ 31) :
    ∃ parts : List (List CallEvent),
      List.Forall₂ Linearizes events parts ∧
        ∀ count,
          SameThreads unsent world.database.articles.length
            (actionRun json unsent stock world (events.take count))
            (callRun json world (parts.take count).flatten) := by
  have start :
      SameThreads unsent world.database.articles.length
        (.empty { stock := stock, world := world }) (.empty world) :=
    refines_empty _
  have counted :
      ∀ calls : List CallEvent, calls.length ≤ events.length →
        Counted world.database.articles.length
          (callRun json world calls).world := by
    intro calls few
    exact counted_callRun articles (by omega)
  exact start.run pending_actions world_timeOutKey counted

/--
What the threads do action by action, with connections that run out, waits
that time out, failing statements and a Redis that does not answer, is what
they do call by call: each call takes its effect at one action of its own
thread, in this order, and after every event the tables, the keys and the
outcomes are the same.
-/
theorem actions_linearize
    (json : JsonLibrary)
    (unsent : Statement → World → Option (List Row) × World)
    (stock : Server → List Connection) (world : World)
    (events : List ActionEvent)
    (articles : world.database.articles.length < 2 ^ 31)
    (comments :
      world.database.comments.length + events.length < 2 ^ 31) :
    ∃ parts : List (List CallEvent),
      List.Forall₂ Linearizes events parts ∧
        ∀ count,
          let small :=
            actionRun json unsent stock world (events.take count)
          let large := callRun json world (parts.take count).flatten
          large.world = small.world.world ∧
            large.threads.length = small.threads.length ∧
            ∀ index outcome, small.outcome? index = some outcome →
              large.outcome? index = some outcome := by
  rcases exists_sameThreads json unsent stock articles comments with
    ⟨parts, linearizes, prefixes⟩
  refine ⟨parts, linearizes, fun count => ?_⟩
  have same := prefixes count
  exact ⟨same.world, same.threads.length_eq.symm,
    fun index outcome ended => same.outcome? ended⟩

end Runs

/-! ## Two readers of one article -/

/-- Nothing fails. -/
def served : Decision where
  timesOut := false
  fails := fun _ => false
  reaches := true

/-- The second reader waits for the only connection of Redis. -/
def twoReaders : List ActionEvent :=
  [.arrive (.request getArticle2 {}), .arrive (.request getArticle2 {}),
    .advance 0 served, .advance 1 served, .advance 0 served,
    .advance 0 served, .advance 1 served, .advance 1 served]

theorem actions_linearize_of_two_readers :
    ∃ parts : List (List CallEvent),
      List.Forall₂ Linearizes twoReaders parts ∧
        ∀ count,
          let small :=
            actionRun Json.compactLibrary (fun _ world => (none, world))
              (initialPools fun _ => 1) freshWorld (twoReaders.take count)
          let large :=
            callRun Json.compactLibrary freshWorld
              (parts.take count).flatten
          large.world = small.world.world ∧
            large.threads.length = small.threads.length ∧
            ∀ index outcome, small.outcome? index = some outcome →
              large.outcome? index = some outcome :=
  actions_linearize Json.compactLibrary _ _ freshWorld twoReaders
    (by decide) (by decide)

end LightningServer.Handler
