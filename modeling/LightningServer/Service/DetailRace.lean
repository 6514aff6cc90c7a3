import LightningServer.Service.DetailThreads
import LightningServer.Service.HotRanking

/-!
# Which view is published last

After all details have returned, the counter is the reply of the last INCR,
the score the reply that the last ZADD carried, and the cached number comes
from the reply that the last SETEX carried.  They agree when the request that
counted last also published last; the cached number may be older as long as
the counter has not passed the column.
-/

namespace LightningServer.Service

open LightningServer.Foundation
open LightningServer.Foundation.Numerals
open LightningServer.Foundation.Transition
open LightningServer.Store
open LightningServer.Service.ArticleService

/-! ## A run of details of one article -/

section Runs

variable (json : JsonLibrary) (id : Int)

/-- The threads, each with its code, and their world. -/
def detailRun (start : World) (events : List (PoolEvent Unit)) :
    Pool (Service Json) World :=
  run (Pool.step (fun _ => getArticleDetail json id) (Program.move exec))
    (.empty start) events

/-- The calls of a run, each with the thread that made it. -/
def detailCalls (start : World) (events : List (PoolEvent Unit)) :
    List (Nat × Call) :=
  outputs
    (Pool.step (fun _ => getArticleDetail json id) (Program.move exec))
    Pool.callMade (.empty start) events

/-- There was a request, and all have returned. -/
def Completed (pool : Pool (Service Json) World) : Prop :=
  0 < pool.threads.length ∧
    ∀ thread ∈ pool.threads, Program.nextCall thread = none

instance (pool : Pool (Service Json) World) :
    Decidable (Completed pool) :=
  inferInstanceAs (Decidable (_ ∧ _))

/-! ## The calls that count and publish -/

def isIncr : Call → Bool
  | .incr _ => true
  | _ => false

def isZadd : Call → Bool
  | .zadd _ _ _ => true
  | _ => false

def isSet : Call → Bool
  | .set _ _ _ => true
  | _ => false

/-- The thread that made the last call of this kind. -/
def lastMaker (kind : Call → Bool) (calls : List (Nat × Call)) :
    Option Nat :=
  ((calls.filter fun made => kind made.2).getLast?).map Prod.fst

/-- The counter after these calls, from its value at the start. -/
def total (start : World) (calls : List (Nat × Call)) : Int :=
  counted start.redis (decimal id) +
    (calls.filter fun made => isIncr made.2).length

/--
The last ZADD was made by the thread of the last INCR, and so was the last
SETEX, unless the column is not below the counter; the counter is an `int`.
-/
def PublishedLast (start : World) (viewCount : Int)
    (calls : List (Nat × Call)) : Prop :=
  total id start calls < 2 ^ 31 ∧
    lastMaker isZadd calls = lastMaker isIncr calls ∧
    (lastMaker isSet calls = lastMaker isIncr calls ∨
      total id start calls ≤ viewCount)

instance (start : World) (viewCount : Int) (calls : List (Nat × Call)) :
    Decidable (PublishedLast id start viewCount calls) :=
  inferInstanceAs (Decidable (_ ∧ _ ∧ _))

/-! ## What is published -/

/-- The score of a member of the ranking. -/
def scoreOf (redis : Redis) (member : Text) : Option Int :=
  ((hotEntries redis).find? fun entry => entry.1 = member).map Prod.snd

/-- The view count inside the cached detail. -/
def cachedViews (redis : Redis) : Option Int :=
  (((redis.get (articleCacheKey id)).bind json.parse).bind
    fun response => response.field? (text "data")).bind itemViews?

/-- The score is the counter, and the cached detail is up to date. -/
def NothingLost (viewCount : Int) (redis : Redis) : Prop :=
  scoreOf redis (decimal id) = counter redis (decimal id) ∧
    cachedViews json id redis =
      some (max viewCount (counted redis (decimal id)))

instance (viewCount : Int) (redis : Redis) :
    Decidable (NothingLost json id viewCount redis) :=
  inferInstanceAs (Decidable (_ ∧ _))

end Runs

/-! ## The ledger of a run -/

/-- What the calls of a run amount to. -/
structure Ledger where
  /-- the counter, if it had no bound -/
  total : Int
  /-- who made the last INCR -/
  counter : Option Nat
  /-- who made the last ZADD -/
  ranker : Option Nat
  /-- who made the last SETEX -/
  storer : Option Nat

namespace Ledger

def ofCalls (id : Int) (start : World) (calls : List (Nat × Call)) :
    Ledger where
  total := Service.total id start calls
  counter := lastMaker isIncr calls
  ranker := lastMaker isZadd calls
  storer := lastMaker isSet calls

/-- The ledger after one more call. -/
def record (ledger : Ledger) (index : Nat) : Call → Ledger
  | .incr _ =>
      { ledger with total := ledger.total + 1, counter := some index }
  | .zadd _ _ _ => { ledger with ranker := some index }
  | .set _ _ _ => { ledger with storer := some index }
  | _ => ledger

theorem ofCalls_concat
    (id : Int) (start : World) (calls : List (Nat × Call)) (index : Nat)
    (call : Call) :
    ofCalls id start (calls ++ [(index, call)]) =
      (ofCalls id start calls).record index call := by
  cases call with
  | incr key =>
      simp [ofCalls, record, Service.total, lastMaker, isIncr, isZadd,
        isSet, Int.add_assoc]
  | _ =>
      simp [ofCalls, record, Service.total, lastMaker, isIncr, isZadd,
        isSet]

/-- The reply of a thread's INCR, against what has been counted. -/
structure Counted (ledger : Ledger) (index : Nat) (views : Int) :
    Prop where
  some : ledger.counter ≠ none
  nonnegative : 0 ≤ views
  last :
    ledger.total < 2 ^ 63 →
      views ≤ ledger.total ∧
        (views = ledger.total ↔ ledger.counter = .some index)

/-- What a thread in this phase has done. -/
def Fits (article : Article) (ledger : Ledger) (index : Nat) :
    DetailPhase → Prop
  | .looking => True
  | .reading => True
  | .counting row => row = article
  | .ranking row views => row = article ∧ ledger.Counted index views
  | .storing row views =>
      row = article ∧ ledger.Counted index views ∧ ledger.ranker ≠ none
  | .finished row views =>
      row = article ∧ ledger.Counted index views ∧
        ledger.ranker ≠ none ∧ ledger.storer ≠ none
  | .served _ => ledger.storer ≠ none

/-- What others have done is not undone. -/
theorem Fits.record
    {article : Article} {ledger : Ledger} {index other : Nat}
    {phase : DetailPhase} (fits : ledger.Fits article other phase)
    (different : other ≠ index) (call : Call) :
    (ledger.record index call).Fits article other phase := by
  have counted {views : Int} (before : ledger.Counted other views) :
      (ledger.record index call).Counted other views := by
    cases call with
    | incr key =>
        refine ⟨Option.some_ne_none index, before.nonnegative, ?_⟩
        intro room
        simp only [Ledger.record] at room ⊢
        have bound := (before.last (by omega)).1
        refine ⟨by omega, ?_⟩
        constructor
        · intro equal
          omega
        · intro same
          exact absurd (Option.some.inj same).symm different
    | _ => exact ⟨before.some, before.nonnegative, before.last⟩
  have ranker (before : ledger.ranker ≠ none) :
      (ledger.record index call).ranker ≠ none := by
    cases call with
    | zadd key score member => exact Option.some_ne_none index
    | _ => exact before
  have storer (before : ledger.storer ≠ none) :
      (ledger.record index call).storer ≠ none := by
    cases call with
    | set key value ttlSec => exact Option.some_ne_none index
    | _ => exact before
  cases phase with
  | looking => trivial
  | reading => trivial
  | counting row => exact fits
  | ranking row views => exact ⟨fits.1, counted fits.2⟩
  | storing row views =>
      exact ⟨fits.1, counted fits.2.1, ranker fits.2.2⟩
  | finished row views =>
      exact ⟨fits.1, counted fits.2.1, ranker fits.2.2.1,
        storer fits.2.2.2⟩
  | served outcome => exact storer fits

end Ledger

/-- The reply that a request carries. -/
def DetailPhase.views? : DetailPhase → Option Int
  | .ranking _ views => some views
  | .storing _ views => some views
  | .finished _ views => some views
  | _ => none

/-- The thread at this position carries this reply. -/
def Carries (pool : Pool DetailPhase World) (index : Nat)
    (views : Int) : Prop :=
  ∃ phase, pool.threads[index]? = some phase ∧
    phase.views? = some views

/-! ## The invariant -/

/-- The threads and their world, against the ledger of their calls. -/
structure Racing (json : JsonLibrary) (id : Int) (start : World)
    (article : Article) (pool : Pool DetailPhase World)
    (ledger : Ledger) : Prop where
  database : pool.world.database = start.database
  ranked : Ranked pool.world.redis
  counts :
    counted pool.world.redis (decimal id) =
      min ledger.total (2 ^ 63 - 1)
  fits :
    ∀ (index : Nat) (phase : DetailPhase),
      pool.threads[index]? = some phase → ledger.Fits article index phase
  score :
    ∀ maker, ledger.ranker = some maker →
      ∃ views, Carries pool maker views ∧
        scoreOf pool.world.redis (decimal id) = some (toDouble views)
  stored :
    ∀ maker, ledger.storer = some maker →
      ∃ views, Carries pool maker views ∧
        pool.world.redis.get (articleCacheKey id) =
          some (json.dump
            (detailResponse (DetailPhase.shown article views)))
  unstored :
    ledger.storer = none →
      pool.world.redis.get (articleCacheKey id) = none

section Steps

variable {json : JsonLibrary} {id : Int} {start : World}
variable {article : Article} {pool : Pool DetailPhase World}
variable {ledger : Ledger}

theorem Carries.arrived
    {index : Nat} {views : Int} (carries : Carries pool index views)
    (new : DetailPhase) :
    Carries { pool with threads := pool.threads ++ [new] } index
      views := by
  rcases carries with ⟨phase, present, holds⟩
  exact ⟨phase, Pool.getElem?_arrived_of_some present, holds⟩

theorem Carries.moved
    {maker index : Nat} {views : Int}
    (carries : Carries pool maker views) {phase : DetailPhase}
    (present : pool.threads[index]? = some phase)
    {result : DetailPhase × World}
    (keeps : ∀ views, phase.views? = some views →
      result.1.views? = some views) :
    Carries (pool.moved index result) maker views := by
  rcases carries with ⟨other, there, holds⟩
  by_cases same : maker = index
  · subst same
    rw [present] at there
    cases there
    exact ⟨result.1, Pool.getElem?_moved_self present result,
      keeps views holds⟩
  · refine ⟨other, ?_, holds⟩
    rw [Pool.getElem?_moved_of_ne pool same]
    exact there

theorem Racing.arrived
    (racing : Racing json id start article pool ledger) :
    Racing json id start article
      { pool with threads := pool.threads ++ [.looking] } ledger where
  database := racing.database
  ranked := racing.ranked
  counts := racing.counts
  fits := by
    intro index phase present
    rcases Pool.getElem?_arrived_cases present with ⟨-, rfl⟩ | old
    · trivial
    · exact racing.fits index phase old
  score := by
    intro maker last
    rcases racing.score maker last with ⟨views, carries, score⟩
    exact ⟨views, carries.arrived _, score⟩
  stored := by
    intro maker last
    rcases racing.stored maker last with ⟨views, carries, stored⟩
    exact ⟨views, carries.arrived _, stored⟩
  unstored := racing.unstored

theorem scoreOf_congr
    {redis later : Redis} {member : Text}
    (same : later.entries hotKey = redis.entries hotKey) :
    scoreOf later member = scoreOf redis member := by
  rw [scoreOf, scoreOf, hotEntries_congr same]

theorem get_congr
    {redis later : Redis} {key : Text}
    (same : later.entries key = redis.entries key) :
    later.get key = redis.get key := by
  rw [Redis.get, Redis.get, same]

/-- A move that leaves the score keeps what is known of it. -/
theorem Racing.score_moved
    (racing : Racing json id start article pool ledger)
    {index : Nat} {phase : DetailPhase} {result : DetailPhase × World}
    (present : pool.threads[index]? = some phase)
    (keeps : ∀ views, phase.views? = some views →
      result.1.views? = some views)
    (same :
      scoreOf result.2.redis (decimal id) =
        scoreOf pool.world.redis (decimal id)) :
    ∀ maker, ledger.ranker = some maker →
      ∃ views, Carries (pool.moved index result) maker views ∧
        scoreOf result.2.redis (decimal id) = some (toDouble views) := by
  intro maker last
  rcases racing.score maker last with ⟨views, carries, score⟩
  exact ⟨views, carries.moved present keeps, same.trans score⟩

/-- A move that leaves the cached detail keeps what is known of it. -/
theorem Racing.stored_moved
    (racing : Racing json id start article pool ledger)
    {index : Nat} {phase : DetailPhase} {result : DetailPhase × World}
    (present : pool.threads[index]? = some phase)
    (keeps : ∀ views, phase.views? = some views →
      result.1.views? = some views)
    (same :
      result.2.redis.get (articleCacheKey id) =
        pool.world.redis.get (articleCacheKey id)) :
    ∀ maker, ledger.storer = some maker →
      ∃ views, Carries (pool.moved index result) maker views ∧
        result.2.redis.get (articleCacheKey id) =
          some (json.dump
            (detailResponse (DetailPhase.shown article views))) := by
  intro maker last
  rcases racing.stored maker last with ⟨views, carries, stored⟩
  exact ⟨views, carries.moved present keeps, same.trans stored⟩

/-- After a call of one thread, the others fit as before. -/
theorem Racing.fits_moved
    (racing : Racing json id start article pool ledger)
    {index : Nat} {result : DetailPhase × World} {call : Call}
    (fits : (ledger.record index call).Fits article index result.1) :
    ∀ (other : Nat) (phase : DetailPhase),
      (pool.moved index result).threads[other]? = some phase →
        (ledger.record index call).Fits article other phase := by
  intro other phase there
  rcases Pool.getElem?_moved_cases there with ⟨rfl, rfl⟩ | ⟨apart, old⟩
  · exact fits
  · exact (racing.fits other phase old).record apart call

/-- A move that changes nothing outside its own thread. -/
theorem Racing.of_quiet_move
    (racing : Racing json id start article pool ledger)
    {index : Nat} {phase later : DetailPhase}
    (present : pool.threads[index]? = some phase)
    (keeps : ∀ views, phase.views? = some views →
      later.views? = some views)
    (fits : ledger.Fits article index later) :
    Racing json id start article (pool.moved index (later, pool.world))
      ledger where
  database := racing.database
  ranked := racing.ranked
  counts := racing.counts
  fits := by
    intro other there location
    rcases Pool.getElem?_moved_cases location with ⟨rfl, rfl⟩ | ⟨-, old⟩
    · exact fits
    · exact racing.fits other there old
  score := racing.score_moved present keeps rfl
  stored := racing.stored_moved present keeps rfl
  unstored := racing.unstored

/-- What the thread of an INCR knows of its reply. -/
theorem Ledger.counted_incr
    {redis : Redis} (ranked : Ranked redis) {ledger : Ledger}
    (counts :
      counted redis (decimal id) = min ledger.total (2 ^ 63 - 1))
    (index : Nat) (key : Text) :
    (ledger.record index (.incr key)).Counted index
      (redis.incr (articleViewKey (decimal id))).1 := by
  have low := nonnegative_counted ranked (decimal id)
  have reply := ranked.counter_incr (decimal id)
  refine ⟨Option.some_ne_none index, ?_, ?_⟩
  · rcases reply with ⟨-, value, -⟩ | ⟨-, value, -⟩
    · rw [value]
      omega
    · rw [value]
  · intro room
    simp only [Ledger.record] at room ⊢
    rcases reply with ⟨-, value, -⟩ | ⟨last, -, -⟩
    · have counted :
          (redis.incr (articleViewKey (decimal id))).1 =
            ledger.total + 1 := by
        rw [value]
        omega
      refine ⟨Int.le_of_eq counted, ?_⟩
      constructor
      · intro _
        trivial
      · intro _
        exact counted
    · omega

/-- An INCR counts, and its thread carries the reply. -/
theorem Racing.incr
    (racing : Racing json id start article pool ledger)
    {index : Nat} {row : Article}
    (present : pool.threads[index]? = some (.counting row)) :
    Racing json id start article
      (pool.moved index
        ((DetailPhase.counting row).move json id pool.world))
      (ledger.record index (.incr (articleViewKey (decimal id)))) := by
  have isArticle : row = article := racing.fits index _ present
  have keeps :
      ∀ views, (DetailPhase.counting row).views? = some views →
        ((DetailPhase.counting row).move json id
          pool.world).1.views? = some views := by
    intro views impossible
    cases impossible
  have sameScore :
      scoreOf
          (pool.world.redis.incr (articleViewKey (decimal id))).2
          (decimal id) =
        scoreOf pool.world.redis (decimal id) :=
    scoreOf_congr (Redis.entries_incr_of_ne _
      (articleViewKey_ne_hotKey _).symm)
  have sameCache :
      (pool.world.redis.incr (articleViewKey (decimal id))).2.get
          (articleCacheKey id) =
        pool.world.redis.get (articleCacheKey id) :=
    get_congr (Redis.entries_incr_of_ne _
      (articleCacheKey_ne_articleViewKey id _))
  have counts := racing.counts
  have reply := racing.ranked.counter_incr (decimal id)
  constructor
  · exact racing.database
  · exact racing.ranked.incr (decimal id)
  · show counted (pool.world.redis.incr _).2 (decimal id) =
      min (ledger.total + 1) (2 ^ 63 - 1)
    rcases reply with ⟨room, -, now⟩ | ⟨last, -, now⟩
    · rw [counted_of_some now]
      omega
    · rw [counted_of_some now]
      omega
  · exact racing.fits_moved
      ⟨isArticle, Ledger.counted_incr racing.ranked counts index _⟩
  · exact racing.score_moved present keeps sameScore
  · exact racing.stored_moved present keeps sameCache
  · intro nobody
    exact sameCache.trans (racing.unstored nobody)

/-- A ZADD makes its reply the score. -/
theorem Racing.zadd
    (racing : Racing json id start article pool ledger) (fits : IsInt id)
    {index : Nat} {row : Article} {views : Int}
    (present : pool.threads[index]? = some (.ranking row views)) :
    Racing json id start article
      (pool.moved index
        ((DetailPhase.ranking row views).move json id pool.world))
      (ledger.record index
        (.zadd hotKey (toDouble views) (decimal id))) := by
  rcases racing.fits index _ present with ⟨isArticle, isCounted⟩
  have keeps :
      ∀ old, (DetailPhase.ranking row views).views? = some old →
        (DetailPhase.storing row views).views? = some old := by
    intro old same
    exact same
  have sameCounter :
      counted
          (pool.world.redis.zadd hotKey (toDouble views)
            (decimal id)).2 (decimal id) =
        counted pool.world.redis (decimal id) := by
    rw [counted, counter_congr (Redis.entries_zadd_of_ne _ _ _
      (articleViewKey_ne_hotKey _)), ← counted]
  have sameCache :
      (pool.world.redis.zadd hotKey (toDouble views)
          (decimal id)).2.get (articleCacheKey id) =
        pool.world.redis.get (articleCacheKey id) :=
    get_congr (Redis.entries_zadd_of_ne _ _ _
      (articleCacheKey_ne_hotKey id))
  constructor
  · exact racing.database
  · exact racing.ranked.zadd _ fits
  · exact sameCounter.trans racing.counts
  · exact racing.fits_moved
      ⟨isArticle,
        ⟨isCounted.some, isCounted.nonnegative, isCounted.last⟩,
        Option.some_ne_none index⟩
  · intro maker last
    cases last
    refine ⟨views, ⟨_, Pool.getElem?_moved_self present _, rfl⟩, ?_⟩
    show scoreOf (pool.world.redis.zadd _ _ _).2 _ = _
    rw [scoreOf, hotEntries_zadd racing.ranked]
    simp
  · exact racing.stored_moved present keeps sameCache
  · intro nobody
    exact sameCache.trans (racing.unstored nobody)

/-- A SETEX makes its detail the cached one. -/
theorem Racing.set
    (racing : Racing json id start article pool ledger)
    {index : Nat} {row : Article} {views : Int}
    (present : pool.threads[index]? = some (.storing row views)) :
    Racing json id start article
      (pool.moved index
        ((DetailPhase.storing row views).move json id pool.world))
      (ledger.record index
        (.set (articleCacheKey id)
          (json.dump (detailResponse (DetailPhase.shown row views)))
          3600)) := by
  rcases racing.fits index _ present with
    ⟨isArticle, isCounted, ranked⟩
  have keeps :
      ∀ old, (DetailPhase.storing row views).views? = some old →
        (DetailPhase.finished row views).views? = some old := by
    intro old same
    exact same
  have sameRanking {value : Text} :
      (pool.world.redis.set (articleCacheKey id) value
          3600).2.entries hotKey =
        pool.world.redis.entries hotKey :=
    Redis.entries_set_of_ne _ _ _ (articleCacheKey_ne_hotKey id).symm
  have sameCounters {value : Text} (idStr : Text) :
      (pool.world.redis.set (articleCacheKey id) value
          3600).2.entries (articleViewKey idStr) =
        pool.world.redis.entries (articleViewKey idStr) :=
    Redis.entries_set_of_ne _ _ _
      (articleCacheKey_ne_articleViewKey id idStr).symm
  constructor
  · exact racing.database
  · exact racing.ranked.congr sameRanking sameCounters
  · show counted (pool.world.redis.set _ _ _).2 _ = _
    rw [counted, counter_congr (sameCounters _), ← counted]
    exact racing.counts
  · exact racing.fits_moved
      ⟨isArticle,
        ⟨isCounted.some, isCounted.nonnegative, isCounted.last⟩, ranked,
        Option.some_ne_none index⟩
  · exact racing.score_moved present keeps (scoreOf_congr sameRanking)
  · intro maker last
    cases last
    refine ⟨views, ⟨_, Pool.getElem?_moved_self present _, rfl⟩, ?_⟩
    show (pool.world.redis.set _ _ _).2.get _ = _
    rw [isArticle]
    simp [Redis.get, Redis.set]
  · intro nobody
    cases nobody

/-- The ledger after an event, read on the phases. -/
theorem ofCalls_callMade
    {index : Nat} {phase : DetailPhase}
    (present : pool.threads[index]? = some phase)
    (calls : List (Nat × Call)) :
    Ledger.ofCalls id start
        (calls ++
          Pool.callMade (pool.map (DetailPhase.code json id))
            (.advance index : PoolEvent Unit)) =
      match phase.call? json id with
      | none => Ledger.ofCalls id start calls
      | some call =>
          (Ledger.ofCalls id start calls).record index call := by
  rw [Pool.callMade, Pool.nextCall?_map present,
    DetailPhase.nextCall_code]
  cases phase.call? json id with
  | none =>
      rw [Option.toList_none, List.map_nil, List.append_nil]
  | some call =>
      rw [Option.toList_some, List.map_singleton]
      exact Ledger.ofCalls_concat id start calls index call

theorem Racing.step
    {calls : List (Nat × Call)}
    (racing :
      Racing json id start article pool
        (Ledger.ofCalls id start calls))
    (found : start.database.getArticleById id = some article)
    (event : PoolEvent Unit) :
    Racing json id start article
      (pool.step (fun _ => .looking) (DetailPhase.move json id) event)
      (Ledger.ofCalls id start
        (calls ++
          Pool.callMade (pool.map (DetailPhase.code json id)) event)) := by
  cases event with
  | arrive arrival =>
      rw [Pool.callMade, List.append_nil]
      exact racing.arrived
  | advance index =>
      cases present : pool.threads[index]? with
      | none =>
          have nobody :
              Pool.callMade (pool.map (DetailPhase.code json id))
                (.advance index : PoolEvent Unit) = [] := by
            simp [Pool.callMade, Pool.nextCall?, Pool.map, present]
          rw [Pool.step_advance_of_none _ _ present, nobody,
            List.append_nil]
          exact racing
      | some phase =>
          rw [Pool.step_advance_of_some _ _ present,
            ofCalls_callMade present]
          have fits := racing.fits index phase present
          cases phase with
          | looking =>
              apply racing.of_quiet_move present
              · intro views impossible
                cases impossible
              · cases hit :
                  pool.world.redis.get (articleCacheKey id) with
                | none => trivial
                | some value =>
                    intro nobody
                    have absent := racing.unstored nobody
                    rw [hit] at absent
                    cases absent
          | reading =>
              apply racing.of_quiet_move present
              · intro views impossible
                cases impossible
              · rw [racing.database, found]
                exact rfl
          | counting row =>
              exact racing.incr present
          | ranking row views =>
              rcases Database.getArticleById_eq_some found with
                ⟨inTable, sameId⟩
              have idFits : IsInt id :=
                sameId ▸ (start.database.articlesFit article inTable).1
              exact racing.zadd idFits present
          | storing row views =>
              exact racing.set present
          | finished row views =>
              exact racing.of_quiet_move present (fun _ same => same) fits
          | served outcome =>
              exact racing.of_quiet_move present (fun _ same => same) fits

end Steps

/-! ## Whole runs -/

section Whole

variable {json : JsonLibrary} {id : Int} {start : World}

/-- The run on phases. -/
def detailPhaseRun (json : JsonLibrary) (id : Int) (start : World)
    (events : List (PoolEvent Unit)) : Pool DetailPhase World :=
  run (Pool.step (fun _ => .looking) (DetailPhase.move json id))
    (.empty start) events

theorem detailRun_eq_map (events : List (PoolEvent Unit)) :
    detailRun json id start events =
      (detailPhaseRun json id start events).map (DetailPhase.code json id) :=
  Pool.run_map (fun _ => DetailPhase.code_looking json id)
    (DetailPhase.move_code json id) (.empty start) events

theorem detailCalls_eq (events : List (PoolEvent Unit)) :
    detailCalls json id start events =
      outputs
        (Pool.step (fun _ => .looking) (DetailPhase.move json id))
        (fun pool event =>
          Pool.callMade (pool.map (DetailPhase.code json id)) event)
        (.empty start) events :=
  Pool.outputs_map (fun _ => DetailPhase.code_looking json id)
    (DetailPhase.move_code json id) Pool.callMade (.empty start) events

theorem racing_detailRun
    (ranked : Ranked start.redis) {article : Article}
    (found : start.database.getArticleById id = some article)
    (uncached : start.redis.get (articleCacheKey id) = none)
    (events : List (PoolEvent Unit)) :
    Racing json id start article (detailPhaseRun json id start events)
      (Ledger.ofCalls id start (detailCalls json id start events)) := by
  rw [detailCalls_eq]
  refine run_outputs_invariant
    (fun (pool : Pool DetailPhase World) calls =>
      Racing json id start article pool
        (Ledger.ofCalls id start calls)) ?_ events ?_
  · intro pool calls event racing
    exact racing.step found event
  · constructor
    · rfl
    · exact ranked
    · have range := counted_range ranked (decimal id)
      show counted start.redis (decimal id) =
        min (counted start.redis (decimal id) + 0) (2 ^ 63 - 1)
      omega
    · intro index phase present
      cases present
    · intro maker last
      cases last
    · intro maker last
      cases last
    · intro _
      exact uncached

/-- Details that are cached at the start change nothing. -/
theorem world_detailRun_of_cached
    {value : Text}
    (cached : start.redis.get (articleCacheKey id) = some value)
    (events : List (PoolEvent Unit)) :
    (detailPhaseRun json id start events).world = start := by
  have hits :
      (detailPhaseRun json id start events).world = start ∧
        (detailPhaseRun json id start events).All fun phase =>
          phase = .looking ∨ ∃ outcome, phase = .served outcome := by
    refine run_invariant
      (fun pool : Pool DetailPhase World =>
        pool.world = start ∧
          pool.All fun phase =>
            phase = .looking ∨ ∃ outcome, phase = .served outcome)
      ?_ events ⟨rfl, Pool.all_empty _ _⟩
    rintro pool event ⟨same, all⟩
    have quiet {phase : DetailPhase}
        (kind : phase = .looking ∨ ∃ outcome, phase = .served outcome) :
        (phase.move json id pool.world).2 = start ∧
          ((phase.move json id pool.world).1 = .looking ∨
            ∃ outcome,
              (phase.move json id pool.world).1 = .served outcome) := by
      rcases kind with rfl | ⟨outcome, rfl⟩
      · simp only [DetailPhase.move, same, cached]
        exact ⟨trivial, Or.inr ⟨_, rfl⟩⟩
      · exact ⟨same, Or.inr ⟨outcome, rfl⟩⟩
    constructor
    · apply Pool.step_invariant
        (fun pool : Pool DetailPhase World => pool.world = start) same
      · intro arrival _
        exact same
      · intro index phase _ present
        exact (quiet (all index phase present)).1
    · apply all.step event
      · intro arrival _
        exact Or.inl rfl
      · intro phase kind
        exact (quiet kind).2
  exact hits.1

/-- A thread that has returned is finished, or was served. -/
theorem Completed.phase
    {events : List (PoolEvent Unit)}
    (completed : Completed (detailRun json id start events))
    {index : Nat} {phase : DetailPhase}
    (present :
      (detailPhaseRun json id start events).threads[index]? = some phase) :
    phase.call? json id = none := by
  rw [← DetailPhase.nextCall_code]
  apply completed.2
  rw [detailRun_eq_map, Pool.map]
  exact List.mem_map_of_mem (List.mem_of_getElem? present)

theorem one_le_total
    {calls : List (Nat × Call)} (ranked : Ranked start.redis)
    (counts : lastMaker isIncr calls ≠ none) :
    1 ≤ total id start calls := by
  have low := nonnegative_counted ranked (decimal id)
  have nonempty : 0 < (calls.filter fun made => isIncr made.2).length := by
    apply List.length_pos_iff.mpr
    intro empty
    rw [lastMaker, empty] at counts
    exact counts rfl
  rw [total]
  omega

/-- The view count inside a cached detail of the article. -/
theorem cachedViews_shown
    {redis : Redis} {article : Article} {views : Int}
    (fits : IsInt article.id ∧ IsInt article.viewCount)
    (stored :
      redis.get (articleCacheKey id) =
        some (json.dump
          (detailResponse (DetailPhase.shown article views)))) :
    cachedViews json id redis =
      some (max article.viewCount (toInt32 views)) := by
  have canonical :
      (detailResponse (DetailPhase.shown article views)).Canonical :=
    canonical_detailResponse
      ⟨fits.1, isInt_max fits.2 (isInt_toInt32 views)⟩
  rw [cachedViews, stored, Option.bind_some,
    json.parse_dump _ canonical]
  rfl

/-- What a finished thread carries was counted and published. -/
theorem Racing.carried
    {article : Article} {events : List (PoolEvent Unit)}
    {ledger : Ledger}
    (racing :
      Racing json id start article (detailPhaseRun json id start events)
        ledger)
    (completed : Completed (detailRun json id start events))
    {index : Nat} {views : Int}
    (carries :
      Carries (detailPhaseRun json id start events) index views) :
    ledger.Counted index views ∧ ledger.ranker ≠ none := by
  rcases carries with ⟨phase, present, holds⟩
  have done := completed.phase present
  have fits := racing.fits index phase present
  cases phase with
  | finished row carried =>
      cases holds
      exact ⟨fits.2.1, fits.2.2.1⟩
  | served outcome => cases holds
  | _ => cases done

/-- Some thread stored its detail. -/
theorem Racing.storer_ne_none
    {article : Article} {events : List (PoolEvent Unit)}
    {ledger : Ledger}
    (racing :
      Racing json id start article (detailPhaseRun json id start events)
        ledger)
    (completed : Completed (detailRun json id start events)) :
    ledger.storer ≠ none := by
  have nonempty :
      0 < (detailPhaseRun json id start events).threads.length := by
    have threads := completed.1
    rw [detailRun_eq_map, Pool.map, List.length_map] at threads
    exact threads
  have present := List.getElem?_eq_getElem nonempty
  have done := completed.phase present
  have fits := racing.fits 0 _ present
  cases isPhase : (detailPhaseRun json id start events).threads[0] with
  | finished row carried =>
      rw [isPhase] at fits
      exact fits.2.2.2
  | served outcome =>
      rw [isPhase] at fits
      exact fits
  | _ =>
      rw [isPhase] at done
      cases done

/-- Without a cached detail, by who published last. -/
theorem nothingLost_iff_of_uncached
    (ranked : Ranked start.redis) {article : Article}
    (found : start.database.getArticleById id = some article)
    (uncached : start.redis.get (articleCacheKey id) = none)
    {events : List (PoolEvent Unit)}
    (completed : Completed (detailRun json id start events)) :
    NothingLost json id article.viewCount
        (detailPhaseRun json id start events).world.redis ↔
      PublishedLast id start article.viewCount
        (detailCalls json id start events) := by
  have racing :
      Racing json id start article (detailPhaseRun json id start events)
        _ :=
    racing_detailRun ranked found uncached events
  have fits := start.database.articlesFit article
    (Database.getArticleById_eq_some found).1
  rcases Option.ne_none_iff_exists'.mp
    (racing.storer_ne_none completed) with ⟨storer, isStorer⟩
  rcases racing.stored storer isStorer with ⟨kept, keeps, stored⟩
  rcases racing.carried completed keeps with ⟨storerCounted, someRanker⟩
  rcases Option.ne_none_iff_exists'.mp someRanker with
    ⟨ranker, isRanker⟩
  rcases racing.score ranker isRanker with ⟨published, ranks, score⟩
  have rankerCounted := (racing.carried completed ranks).1
  have positive :
      1 ≤ total id start (detailCalls json id start events) :=
    one_le_total ranked storerCounted.some
  have counts := racing.counts
  simp only [Ledger.ofCalls] at isStorer isRanker counts
  have present := counter_of_counted_pos (show
    1 ≤ counted (detailPhaseRun json id start events).world.redis
      (decimal id) by omega)
  have bounds := isInt_max fits.2 (isInt_toInt32 kept)
  rw [NothingLost, score, present, cachedViews_shown fits stored,
    counts, PublishedLast, isStorer, isRanker]
  by_cases narrow : total id start (detailCalls json id start events) <
      2 ^ 31
  · have storerLast := storerCounted.last (by simp only [Ledger.ofCalls]; omega)
    have rankerLast := rankerCounted.last (by simp only [Ledger.ofCalls]; omega)
    have storerLow := storerCounted.nonnegative
    have rankerLow := rankerCounted.nonnegative
    simp only [Ledger.ofCalls] at storerLast rankerLast
    rw [toInt32_of_isInt ⟨by omega, by omega⟩,
      toDouble_of_lt rankerLow (by omega), @eq_comm _ (some ranker),
      @eq_comm _ (some storer), ← storerLast.2, ← rankerLast.2,
      Option.some.injEq, Option.some.injEq]
    constructor
    · rintro ⟨isScore, isCached⟩
      exact ⟨narrow, by omega, by omega⟩
    · rintro ⟨-, isScore, isCached⟩
      exact ⟨by omega, by omega⟩
  · -- the counter is wider than the number in the detail
    constructor
    · rintro ⟨-, isCached⟩
      rcases bounds with ⟨-, high⟩
      have equal := Option.some.inj isCached
      omega
    · rintro ⟨small, -⟩
      exact absurd small narrow

end Whole

/--
After a completed run, nothing is lost if and only if the request that counted
last published last, or, when the detail was cached from the start, nothing
was lost before.
-/
theorem nothingLost_iff
    (json : JsonLibrary) {id : Int} {start : World}
    (ranked : Ranked start.redis) {article : Article}
    (found : start.database.getArticleById id = some article)
    {events : List (PoolEvent Unit)}
    (completed : Completed (detailRun json id start events)) :
    NothingLost json id article.viewCount
        (detailRun json id start events).world.redis ↔
      if start.redis.get (articleCacheKey id) = none then
        PublishedLast id start article.viewCount
          (detailCalls json id start events)
      else NothingLost json id article.viewCount start.redis := by
  have sameWorld :
      (detailRun json id start events).world =
        (detailPhaseRun json id start events).world := by
    rw [detailRun_eq_map]
    rfl
  rw [sameWorld]
  cases cached : start.redis.get (articleCacheKey id) with
  | none =>
      rw [if_pos rfl]
      exact nothingLost_iff_of_uncached ranked found cached completed
  | some value =>
      rw [if_neg (Option.some_ne_none value),
        world_detailRun_of_cached cached]

/-! ## Two threads -/

/-- Two details arrive, and each makes its GET and its SELECT. -/
def bothReading : List (PoolEvent Unit) :=
  [.arrive (), .arrive (), .advance 0, .advance 1, .advance 0, .advance 1]

/-- The world before them, with an article that has no views. -/
def unopenedWorld : World :=
  .initial twoArticles (fun _ => []) fun _ => true

/-- The second thread counts last, and publishes last. -/
theorem nothingLost_in_order :
    NothingLost Json.compactLibrary 2 0
      (detailRun Json.compactLibrary 2 unopenedWorld
        (bothReading ++
          [.advance 0, .advance 1, .advance 0, .advance 1, .advance 0,
            .advance 1])).world.redis :=
  (nothingLost_iff Json.compactLibrary ranked_empty
    (show unopenedWorld.database.getArticleById 2 = some { id := 2 } by
      decide +kernel)
    (by decide +kernel)).mpr (by decide +kernel)

/-- The second thread counts last, but the first one publishes last. -/
theorem viewLost_out_of_order :
    Completed
        (detailRun Json.compactLibrary 2 unopenedWorld
          (bothReading ++
            [.advance 0, .advance 1, .advance 1, .advance 0, .advance 1,
              .advance 0])) ∧
      ¬ NothingLost Json.compactLibrary 2 0
        (detailRun Json.compactLibrary 2 unopenedWorld
          (bothReading ++
            [.advance 0, .advance 1, .advance 1, .advance 0, .advance 1,
              .advance 0])).world.redis := by
  decide +kernel

end LightningServer.Service
