import LightningServer.Store.Proxy

/-!
# Connections are conserved

Any number of threads run operations of the proxies, one after the other, on
two pools of connections.  The environment chooses the operations, who moves
next, which waits on the MySQL pool time out, and what the servers answer,
query errors and missing replies included.
-/

namespace LightningServer.Store

open LightningServer.Foundation
open LightningServer.Foundation.Numerals
open LightningServer.Foundation.Transition

/-! ## Threads on two pools -/

/-- The pools after `init`: as many new connections as configured. -/
def initialPools (poolSize : Server → Nat) (server : Server) :
    List Connection :=
  List.range (poolSize server)

/-- An operation with its result. -/
abbrev Outcome :=
  (operation : Operation) × operation.Reply

/-- An operation, as a thread runs it. -/
def Operation.code (operation : Operation) : Driver Outcome :=
  operation.driver >>= fun reply => .ret ⟨operation, reply⟩

/-- The threads, the connections that they hold, and the pools. -/
abbrev Proxies :=
  Lending Server Connection Query.Answer StdException Outcome

abbrev ProxyEvent :=
  BorrowEvent Operation Query.Answer

def proxyRun (poolSize : Server → Nat) (events : List ProxyEvent) :
    Proxies :=
  run (Lending.step Operation.code) (.empty (initialPools poolSize)) events

/-- No numeric conversion throws in the run. -/
def NothingThrown (poolSize : Server → Nat) (events : List ProxyEvent) :
    Prop :=
  Along (Lending.step Operation.code)
    (fun proxies event => (proxies.step Operation.code event).Calm)
    (.empty (initialPools poolSize)) events

instance (poolSize : Server → Nat) (events : List ProxyEvent) :
    Decidable (NothingThrown poolSize events) :=
  inferInstanceAs (Decidable (Along _ _ _ _))

/-! ## The invariant -/

theorem Operation.returns_code (operation : Operation) :
    operation.code.Returns [] :=
  operation.returns_driver.map _

theorem accounted_proxyRun
    {poolSize : Server → Nat} {events : List ProxyEvent}
    (calm : NothingThrown poolSize events) :
    (proxyRun poolSize events).Accounted (initialPools poolSize) ∧
      (proxyRun poolSize events).Calm :=
  Lending.accounted_run Operation.returns_code calm

/--
In every reachable state a connection is in its pool or held by one thread,
no thread asks a pool for a second connection or works with one that it does
not hold, and a thread that is between two operations holds none.
-/
theorem connections_conserved
    (poolSize : Server → Nat) {events : List ProxyEvent}
    (calm : NothingThrown poolSize events) :
    (∀ server, ∀ connection < poolSize server,
        (proxyRun poolSize events).OwnedOnce server connection) ∧
      (∀ server,
        ((proxyRun poolSize events).world server).length +
            (proxyRun poolSize events).heldCount server =
          poolSize server) ∧
      (∀ (index : Nat) (client : Client Server Connection (Driver Outcome)),
        (proxyRun poolSize events).threads[index]? = some client →
          (∀ access server,
            client.code.nextCall = some access →
              access.requested = some server →
                ∀ loan ∈ client.held, loan.1 ≠ server) ∧
          (∀ access loan,
            client.code.nextCall = some access →
              access.employs = some loan → loan ∈ client.held) ∧
          (client.code.nextCall = none → client.held = [])) := by
  rcases accounted_proxyRun calm with ⟨accounted, quiet⟩
  refine ⟨?_, ?_, ?_⟩
  · intro server connection known
    exact accounted.ownedOnce List.nodup_range (List.mem_range.mpr known)
  · intro server
    rw [accounted.length_add_heldCount, initialPools, List.length_range]
  · intro index client present
    refine ⟨?_, ?_, ?_⟩
    · intro access server isNext asks
      exact accounted.holds_none_of_requested present isNext asks
    · intro access loan isNext employs
      exact accounted.mem_held_of_employs present isNext employs
    · intro ended
      exact accounted.held_of_returned quiet present ended

/-! ## Two threads on one connection -/

/-- Nothing times out, and every query fails. -/
def refusing : Choice Query.Answer where
  timesOut := false
  answer
    | .statement _ => none
    | .command _ => none

/--
The first thread takes the only MySQL connection, the second gives up waiting
for it, and the query of the first fails.
-/
def contested : List ProxyEvent :=
  [.arrive (.service (.getArticleById 1) (by decide)),
    .arrive (.service (.setViewCount 1 5) (by decide)),
    .advance 0 refusing, .advance 1 refusing,
    .advance 1 { refusing with timesOut := true },
    .advance 0 refusing, .advance 0 refusing]

theorem connections_conserved_of_contested :
    NothingThrown (fun _ => 1) contested ∧
      ∀ server,
        ((proxyRun (fun _ => 1) contested).world server).length +
            (proxyRun (fun _ => 1) contested).heldCount server =
          1 :=
  ⟨by decide +kernel,
    (connections_conserved (fun _ => 1) (by decide +kernel)).2.1⟩

end LightningServer.Store
