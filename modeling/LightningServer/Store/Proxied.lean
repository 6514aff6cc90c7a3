import LightningServer.Store.Outage

/-!
# Services on the code of the proxies

`exec` gives a call its effect at once.  Here each call of a service is made
by the code of its proxy, against servers that answer every statement.  The
two agree as long as the number of articles is an `int`: beyond that the
conversion of `COUNT(*)` throws.
-/

namespace LightningServer.Store

open LightningServer.Foundation
open LightningServer.Foundation.Numerals

section Proxied

variable (unsent : Statement → World → Option (List Row) × World)
variable {Value : Type}

/-- A call, made by its proxy; the clock has none. -/
def Call.operate (call : Call) (world : World) :
    Except StdException call.Reply × World :=
  if proxied : call ≠ .localTime then
    let done :=
      (call.driver proxied).run (serve unsent .none) ⟨world, false⟩
    (done.1, done.2.world)
  else (.ok (exec call world).1, (exec call world).2)

/-- A service, with each call made by its proxy. -/
def runOnProxies :
    Service Value → World → Except StdException Value × World
  | .ret value, world => (.ok value, world)
  | .throw failure, world => (.error failure, world)
  | .call request next, world =>
      match request.operate unsent world with
      | (.ok reply, later) => runOnProxies (next reply) later
      | (.error failure, later) => (.error failure, later)

variable {unsent}

theorem operate_of_agrees
    {call : Call} (proxied : call ≠ .localTime) {world : World}
    (agrees : Agrees unsent .none call (call.driver proxied) world) :
    call.operate unsent world =
      (.ok (exec call world).1, (exec call world).2) := by
  rw [Agrees, execUnder_none] at agrees
  simp only [Call.operate, dif_pos proxied, agrees]

/-- A page of articles needs a number of rows that `std::stoi` takes. -/
theorem operate_getArticles (page pageSize : Int) (world : World) :
    (Call.getArticles page pageSize).operate unsent world =
      if world.database.articles.length < 2 ^ 31 then
        (.ok (world.database.getArticles page pageSize), world)
      else (.error .outOfRange, world) := by
  have proxied : Call.getArticles page pageSize ≠ .localTime := by simp
  by_cases countable : world.database.articles.length < 2 ^ 31
  · rw [if_pos countable]
    exact operate_of_agrees proxied
      (agrees_getArticles countable page pageSize)
  · have unread :
        countOf [[some (decimal world.database.articles.length)]] =
          .error .outOfRange := by
      have large : ¬ IsInt (world.database.articles.length : Int) := by
        rw [IsInt]
        omega
      exact (stoi_decimal _).trans (if_neg large)
    rw [if_neg countable]
    simp only [Call.operate, dif_pos proxied, Call.driver,
      DatabaseProxy.getArticles]
    have answers : Fault.none.fails .countArticles = false := rfl
    rw [run_acquire (by rfl)]
    simp only [run_query answers, Statement.execute,
      Database.length_storedArticles, unread]
    rfl

end Proxied

end LightningServer.Store
