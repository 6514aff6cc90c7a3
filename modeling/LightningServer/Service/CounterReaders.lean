import LightningServer.Service.HotRanking

/-!
# The readers of a view counter

A counter is a 64-bit number in Redis.  The detail narrows what INCR returns
with a cast, and the hot list and the sync read the text with `std::stoi`,
which throws beyond `int`.  The sync runs in the handler of a timer, which
sets the timer again after it.
-/

namespace LightningServer.Service

open LightningServer.Foundation
open LightningServer.Foundation.Numerals
open LightningServer.Store
open LightningServer.Service.ArticleService

/-! ## The timer of `main` -/

/-- The handler of `scheduleSync`: whether the timer is set again. -/
def onSyncTimer (failed running : Bool) : Service Bool := do
  if !failed && running then
    syncViewCounts
    return true
  else return false

/-! ## A sync whose counters may be wide -/

/-- `stoi` takes the counters of all members that a sync looks at. -/
def SyncCountersFit (redis : Redis) : Prop :=
  ∀ idStr ∈ redis.zrevrange hotKey 0 99, CounterFits redis idStr

instance (redis : Redis) : Decidable (SyncCountersFit redis) :=
  inferInstanceAs (Decidable (∀ idStr ∈ redis.zrevrange hotKey 0 99, _))

/-- The loop returns, unless a counter is too wide for `stoi`. -/
theorem result_syncLoop
    {redis : Redis} (ranked : Ranked redis) {hotIds : List Text}
    (members : ∀ idStr ∈ hotIds, ∃ id, IsInt id ∧ idStr = decimal id)
    {world : World} (same : world.redis = redis) :
    ((syncLoop hotIds).run exec world).1 =
      if ∀ idStr ∈ hotIds, CounterFits redis idStr then .ok ()
      else .error .outOfRange := by
  induction hotIds generalizing world with
  | nil => simp [syncLoop]
  | cons idStr rest induction =>
      rcases members idStr List.mem_cons_self with ⟨listed, fits, rfl⟩
      have later :=
        @induction fun other member =>
          members other (List.mem_cons_of_mem _ member)
      rcases ranked.get_counter (decimal listed) with
        ⟨absent, noCounter⟩ | ⟨number, value, present⟩
      · have taken : CounterFits redis (decimal listed) := by
          simp [CounterFits, noCounter]
        rw [run_syncLoop_absent (by rw [same, absent]), later same]
        simp only [List.forall_mem_cons, taken, true_and]
      · have taken :
            CounterFits redis (decimal listed) ↔ IsInt number := by
          simp [CounterFits, present]
        by_cases narrow : IsInt number
        · rw [run_syncLoop_written fits narrow (by rw [same, value]),
            later (by exact same)]
          simp only [List.forall_mem_cons, taken, narrow, true_and]
        · rw [run_syncLoop_misfit fits narrow (by rw [same, value])]
          simp only [List.forall_mem_cons, taken, narrow, false_and,
            if_false]

theorem result_onSyncTimer
    {world : World} (ranked : Ranked world.redis) :
    ((onSyncTimer false true).run exec world).1 =
      if SyncCountersFit world.redis then .ok true
      else .error .outOfRange := by
  have code :
      (onSyncTimer false true).run exec world =
        (syncLoop (world.redis.zrevrange hotKey 0 99) >>=
          fun _ => .ret true).run exec world :=
    rfl
  have loop :
      ((syncLoop (world.redis.zrevrange hotKey 0 99)).run exec world).1 =
        if SyncCountersFit world.redis then .ok ()
        else .error .outOfRange :=
    result_syncLoop ranked ranked.hotMembers.2 rfl
  rw [code, Program.run_bind]
  generalize (syncLoop (world.redis.zrevrange hotKey 0 99)).run exec world =
    outcome at loop ⊢
  rcases outcome with ⟨result, later⟩
  cases (show result = _ from loop)
  by_cases fit : SyncCountersFit world.redis
  · rw [if_pos fit, if_pos fit]
    rfl
  · rw [if_neg fit, if_neg fit]

/-- Then every listed article gets its counter. -/
theorem storedViews_of_fit
    {world : World} (ranked : Ranked world.redis)
    (fit : SyncCountersFit world.redis) {id number : Int}
    (listed : decimal id ∈ world.redis.zrevrange hotKey 0 99)
    (present : counter world.redis (decimal id) = some number) :
    storedViews (syncViewCounts.run exec world).2.database id =
      (storedViews world.database id).map fun _ => number := by
  have all :
      syncedMembers world.redis = world.redis.zrevrange hotKey 0 99 := by
    rw [syncedMembers, List.takeWhile_eq_self_iff]
    intro idStr member
    exact decide_eq_true (fit idStr member)
  rw [storedViews_syncViewCounts ranked, all, if_pos listed, present]
  rfl

/-! ## Whether the readers agree -/

/-- The view count of a detail. -/
def detailViews? (response : Json) : Option Int :=
  (response.field? (text "data")).bind itemViews?

@[simp]
theorem detailViews?_detailResponse (article : Article) :
    detailViews? (detailResponse article) = some article.viewCount := by
  rfl

/-- The world after the detail of an article. -/
def afterDetail (json : JsonLibrary) (world : World) (article : Article) :
    World :=
  ((getArticleDetail json article.id).run exec world).2

/--
The hot list after a detail shows what the detail shows, and a sync after it
writes what is counted and lets the timer be set again.
-/
structure ReadersAgree (json : JsonLibrary) (world : World)
    (article : Article) : Prop where
  hot :
    ∃ response views,
      ((getArticleDetail json article.id).run exec world).1 =
          .ok response ∧
        detailViews? response = some views ∧ article.viewCount ≤ views ∧
          ∀ limit, ∃ list,
            ((getHotArticles limit).run exec
                (afterDetail json world article)).1 = .ok list ∧
              ∀ item ∈ hotItems list, itemId? item = some article.id →
                itemViews? item = some views
  writes :
    ∀ id number, id ≠ article.id →
      decimal id ∈
          (afterDetail json world article).redis.zrevrange hotKey 0 99 →
        counter (afterDetail json world article).redis (decimal id) =
            some number →
          storedViews
              (syncViewCounts.run exec
                (afterDetail json world article)).2.database id =
            (storedViews
              (afterDetail json world article).database id).map
                fun _ => number
  rearms :
    ((onSyncTimer false true).run exec
      (afterDetail json world article)).1 = .ok true

section Agreement

variable (json : JsonLibrary) {world : World} {article : Article}

theorem afterDetail_eq
    (found : world.database.getArticleById article.id = some article)
    (uncached : world.redis.get (articleCacheKey article.id) = none) :
    afterDetail json world article =
      { world with redis := visit json article world.redis } := by
  rw [afterDetail, run_getArticleDetail_miss json uncached found]

/-- What INCR returns is the counter, while that is an `int`. -/
theorem toInt32_incr_of_fit
    {redis : Redis} (ranked : Ranked redis) {idStr : Text} {number : Int}
    (present :
      counter (redis.incr (articleViewKey idStr)).2 idStr = some number)
    (narrow : IsInt number) :
    toInt32 (redis.incr (articleViewKey idStr)).1 = number := by
  rcases ranked.counter_incr idStr with
    ⟨-, reply, now⟩ | ⟨last, -, now⟩
  · rw [now] at present
    cases present
    rw [reply]
    exact toInt32_of_isInt narrow
  · rw [now] at present
    cases present
    rw [IsInt] at narrow
    omega

/-- In the hot list after the detail, the article has the detail's count. -/
theorem hot_agrees
    (ranked : Ranked world.redis)
    (found : world.database.getArticleById article.id = some article)
    (fit : SyncCountersFit (visit json article world.redis))
    (limit : Int) :
    ∃ list,
      ((getHotArticles limit).run exec
          { world with redis := visit json article world.redis }).1 =
          .ok list ∧
        ∀ item ∈ hotItems list, itemId? item = some article.id →
          itemViews? item =
            some (max article.viewCount
              (toInt32 (world.redis.incr
                (articleViewKey (decimal article.id))).1)) := by
  have inTable := (Database.getArticleById_eq_some found).1
  have rankedLater : Ranked (visit json article world.redis) :=
    ranked.visit json (world.database.articlesFit article inTable).1
  have looked := hotMembers_subset (visit json article world.redis) limit
  have something :
      hotMembers (visit json article world.redis) limit ≠ [] := by
    rw [Ne, hotMembers_eq_nil_iff, hotEntries_visit ranked]
    exact List.cons_ne_nil _ _
  let later : World :=
    { world with redis := visit json article world.redis }
  have ran : (getHotArticles limit).run exec later = _ :=
    run_getHotArticles_of_ranking rankedLater something
  rw [if_pos fun idStr member => Or.inr (fit idStr (looked member))] at ran
  refine ⟨_, congrArg Prod.fst ran, ?_⟩
  rw [hotItems_hotResponse]
  intro item listed isArticle
  rcases List.mem_map.mp listed with ⟨row, isRow, rfl⟩
  rcases mem_rankedRows isRow with ⟨rowInTable, member⟩
  rw [itemId?_listItem, id_readCounter, Option.some_inj] at isArticle
  have same : row = article :=
    List.inj_on_of_nodup_map world.database.articleIds rowInTable inTable
      isArticle
  subst same
  rcases counter_incr_some ranked (decimal row.id) with
    ⟨number, -, present⟩
  have shown :
      counter (visit json row world.redis) (decimal row.id) =
        some number :=
    (counter_visit json row _).trans present
  have narrow : IsInt number := fit _ (looked member) number shown
  have isRead :
      readCounter (visit json row world.redis) row =
        { row with viewCount := max row.viewCount number } := by
    rw [readCounter, shown]
  rw [toInt32_incr_of_fit ranked present narrow, itemViews?_listItem]
  exact congrArg (fun read => some read.viewCount) isRead

/--
The readers of a counter agree after a detail exactly when the counters of
the members that a sync looks at are then within `int`.
-/
theorem readers_agree_iff
    (ranked : Ranked world.redis)
    (found : world.database.getArticleById article.id = some article)
    (uncached : world.redis.get (articleCacheKey article.id) = none) :
    ReadersAgree json world article ↔
      SyncCountersFit (visit json article world.redis) := by
  have inTable := (Database.getArticleById_eq_some found).1
  have rankedLater : Ranked (visit json article world.redis) :=
    ranked.visit json (world.database.articlesFit article inTable).1
  have after := afterDetail_eq json found uncached
  let later : World :=
    { world with redis := visit json article world.redis }
  have timer :
      ((onSyncTimer false true).run exec later).1 =
        if SyncCountersFit later.redis then .ok true
        else .error .outOfRange :=
    result_onSyncTimer rankedLater
  constructor
  · intro agree
    have rearms := agree.rearms
    rw [after, timer] at rearms
    by_contra wide
    rw [if_neg wide] at rearms
    cases rearms
  · intro fit
    constructor
    · refine ⟨_, _,
        congrArg Prod.fst (run_getArticleDetail_miss json uncached found),
        detailViews?_detailResponse _, le_max_left _ _, ?_⟩
      intro limit
      rw [after]
      exact hot_agrees json ranked found fit limit
    · intro id number _ listed present
      rw [after] at listed present ⊢
      exact storedViews_of_fit rankedLater fit listed present
    · rw [after, timer, if_pos fit]

end Agreement

/-- One visit, and then the cached detail has expired. -/
def expiredWorld : World :=
  runFrom Json.compactLibrary seededDatabase (fun _ => [])
    (fun _ => true)
    [.request (.getArticleDetail 1), .timeOut (articleCacheKey 1)]

theorem readers_agree_second_visit :
    ReadersAgree Json.compactLibrary expiredWorld
      { id := 1, viewCount := 1280 } :=
  (readers_agree_iff Json.compactLibrary
    (ranked_runFrom Json.compactLibrary seededDatabase (fun _ => [])
      (fun _ => true)
      [.request (.getArticleDetail 1), .timeOut (articleCacheKey 1)])
    (by decide +kernel) (by decide +kernel)).mpr (by decide +kernel)

/-- A counter that has reached the last `int`. -/
def fullWorld : World :=
  { expiredWorld with
    redis :=
      (expiredWorld.redis.set (articleViewKey (decimal 1))
        (decimal 2147483647) 0).2 }

/-- The next visit counts 2^31; the sync throws, and the timer is not set. -/
theorem readers_disagree_beyond_int :
    (fullWorld.redis.incr (articleViewKey (decimal 1))).1 = 2147483648 ∧
      ¬ ReadersAgree Json.compactLibrary fullWorld
        { id := 1, viewCount := 1280 } := by
  refine ⟨by decide +kernel, ?_⟩
  intro agree
  have throws :
      ((onSyncTimer false true).run exec
          (afterDetail Json.compactLibrary fullWorld
            { id := 1, viewCount := 1280 })).1.toOption = none := by
    decide +kernel
  rw [agree.rearms] at throws
  cases throws

end LightningServer.Service
