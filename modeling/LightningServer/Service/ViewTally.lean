import LightningServer.Service.CommentCache
import LightningServer.Service.ViewSync

/-!
# Counters, ranking and columns of a run

In every state reached from an empty Redis, the members of the ranking are the
articles that have a counter; the score of a member is its counter, as long as
the counter has not reached the last 64-bit number.  A column holds the view
count it had at the start, or an earlier value of the counter, so it never
exceeds both.
-/

namespace LightningServer.Service

open LightningServer.Foundation
open LightningServer.Foundation.Numerals
open LightningServer.Foundation.Transition
open LightningServer.Store
open LightningServer.Service.ArticleService
open LightningServer.Service.CommentService

/-! ## What is read of Redis -/

/-- The members of the ranking with their scores. -/
def hotEntries (redis : Redis) : List (Text × Int) :=
  match redis.entries hotKey with
  | some ⟨.sortedSet set, _⟩ => set.entries
  | _ => []

/-- The counter of an article, nothing counted being zero. -/
def counted (redis : Redis) (idStr : Text) : Int :=
  (counter redis idStr).getD 0

theorem hotEntries_congr
    {redis later : Redis}
    (same : later.entries hotKey = redis.entries hotKey) :
    hotEntries later = hotEntries redis := by
  rw [hotEntries, hotEntries, same]

theorem counter_congr
    {redis later : Redis} {idStr : Text}
    (same :
      later.entries (articleViewKey idStr) =
        redis.entries (articleViewKey idStr)) :
    counter later idStr = counter redis idStr := by
  rw [counter, counter, Redis.get, Redis.get, same]

theorem counter_of_counted_pos
    {redis : Redis} {idStr : Text} (positive : 1 ≤ counted redis idStr) :
    counter redis idStr = some (counted redis idStr) := by
  cases present : counter redis idStr with
  | none =>
      rw [counted, present] at positive
      exact absurd positive (by decide)
  | some number =>
      rw [counted, present]
      rfl

theorem counted_of_some
    {redis : Redis} {idStr : Text} {number : Int}
    (present : counter redis idStr = some number) :
    counted redis idStr = number := by
  rw [counted, present]
  rfl

/-! ## What the two commands do to it -/

theorem Ranked.counter_range
    {redis : Redis} (ranked : Ranked redis) {idStr : Text} {number : Int}
    (present : counter redis idStr = some number) :
    0 ≤ number ∧ number < 2 ^ 63 := by
  rcases ranked.counter_cases idStr with
    absent | ⟨held, found, low, high⟩
  · simp [counter, Redis.get, absent] at present
  · have read : strictInteger (decimal held) = some held :=
      strictInteger_decimal (by omega) high
    simp only [counter, Redis.get, found, Option.bind_some, read,
      Option.some.injEq] at present
    subst present
    exact ⟨low, high⟩

theorem counted_range
    {redis : Redis} (ranked : Ranked redis) (idStr : Text) :
    0 ≤ counted redis idStr ∧ counted redis idStr < 2 ^ 63 := by
  cases present : counter redis idStr with
  | none =>
      rw [counted, present]
      decide
  | some number =>
      rw [counted_of_some present]
      exact ranked.counter_range present

theorem nonnegative_counted
    {redis : Redis} (ranked : Ranked redis) (idStr : Text) :
    0 ≤ counted redis idStr :=
  (counted_range ranked idStr).1

/-- INCR counts one more, unless the counter is at the last number. -/
theorem Ranked.counter_incr
    {redis : Redis} (ranked : Ranked redis) (idStr : Text) :
    (counted redis idStr + 1 < 2 ^ 63 ∧
        (redis.incr (articleViewKey idStr)).1 =
          counted redis idStr + 1 ∧
        counter (redis.incr (articleViewKey idStr)).2 idStr =
          some (counted redis idStr + 1)) ∨
      counted redis idStr + 1 = 2 ^ 63 ∧
        (redis.incr (articleViewKey idStr)).1 = 0 ∧
        counter (redis.incr (articleViewKey idStr)).2 idStr =
          some (counted redis idStr) := by
  rcases ranked.counter_cases idStr with
    absent | ⟨number, present, low, high⟩
  · have nothing : counter redis idStr = none := by
      simp [counter, Redis.get, absent]
    have first : strictInteger (decimal 1) = some 1 :=
      strictInteger_decimal (by decide) (by decide)
    left
    rw [counted, nothing]
    refine ⟨by decide, ?_, ?_⟩
    · simp [Redis.incr, absent]
    · simp [counter, Redis.incr, absent, Redis.get, first]
  · have read : strictInteger (decimal number) = some number :=
      strictInteger_decimal (by omega) high
    have now : counter redis idStr = some number := by
      simp [counter, Redis.get, present, read]
    rw [counted_of_some now]
    by_cases room : number + 1 < 2 ^ 63
    · left
      have next :
          strictInteger (decimal (number + 1)) = some (number + 1) :=
        strictInteger_decimal (by omega) room
      refine ⟨room, ?_, ?_⟩
      · simp only [Redis.incr, present, read, room, if_true]
      · simp only [counter, Redis.incr, present, read, room, if_true,
          Redis.get, Redis.entries_put_self, Option.bind_some, next]
    · right
      refine ⟨by omega, ?_, ?_⟩
      · simp only [Redis.incr, present, read, room, if_false]
      · simp only [Redis.incr, present, read, room, if_false]
        exact now

theorem hotEntries_zadd
    {redis : Redis} (ranked : Ranked redis) (score : Int)
    (member : Text) :
    hotEntries (redis.zadd hotKey score member).2 =
      (member, score) ::
        (hotEntries redis).filter fun entry => entry.1 ≠ member := by
  rcases ranked.ranking_cases with absent | ⟨set, present, -⟩
  · simp [hotEntries, Redis.zadd, absent, SortedSet.add, SortedSet.empty]
  · simp [hotEntries, Redis.zadd, present, SortedSet.add]

/-- The members of a slice of the ranking. -/
theorem zrevrange_hotKey
    {redis : Redis} {limit : Int} (positive : 1 ≤ limit) :
    redis.zrevrange hotKey 0 (limit - 1) =
      (((hotEntries redis).insertionSort SortedSet.Before).map
        Prod.fst).take limit.toNat := by
  cases present : redis.entries hotKey with
  | none => simp [Redis.zrevrange, hotEntries, present]
  | some entry =>
      rcases entry with ⟨content, volatile⟩
      cases content with
      | sortedSet set =>
          simp only [Redis.zrevrange, hotEntries, present]
          exact Redis.slice_zero positive set.descending
      | string value => simp [Redis.zrevrange, hotEntries, present]
      | list elements => simp [Redis.zrevrange, hotEntries, present]

theorem nodup_hotEntries (redis : Redis) :
    ((hotEntries redis).map Prod.fst).Nodup := by
  unfold hotEntries
  split
  · next set volatile found => exact set.distinct
  · exact List.nodup_nil

/-! ## A visit -/

/-- What a visit leaves of the counters. -/
theorem counter_visit
    {redis : Redis} (json : JsonLibrary) (article : Article)
    (idStr : Text) :
    counter (visit json article redis) idStr =
      counter (redis.incr (articleViewKey (decimal article.id))).2
        idStr := by
  apply counter_congr
  unfold visit
  rw [Redis.entries_set_of_ne _ _ _
      (articleCacheKey_ne_articleViewKey article.id idStr).symm,
    Redis.entries_zadd_of_ne _ _ _ (articleViewKey_ne_hotKey idStr)]

theorem counter_visit_of_ne
    {redis : Redis} (json : JsonLibrary) (article : Article)
    {idStr : Text} (different : idStr ≠ decimal article.id) :
    counter (visit json article redis) idStr = counter redis idStr := by
  rw [counter_visit]
  apply counter_congr
  exact Redis.entries_incr_of_ne _ fun equal =>
    different (articleViewKey_injective equal)

/-- What a visit leaves of the ranking. -/
theorem hotEntries_visit
    {redis : Redis} (ranked : Ranked redis) (json : JsonLibrary)
    (article : Article) :
    hotEntries (visit json article redis) =
      (decimal article.id,
        toDouble
          (redis.incr (articleViewKey (decimal article.id))).1) ::
        (hotEntries redis).filter
          fun entry => entry.1 ≠ decimal article.id := by
  have kept :
      hotEntries (visit json article redis) =
        hotEntries
          ((redis.incr (articleViewKey (decimal article.id))).2.zadd
            hotKey
            (toDouble
              (redis.incr (articleViewKey (decimal article.id))).1)
            (decimal article.id)).2 := by
    apply hotEntries_congr
    exact Redis.entries_set_of_ne _ _ _
      (articleCacheKey_ne_hotKey article.id).symm
  rw [kept, hotEntries_zadd (ranked.incr _)]
  have same :
      hotEntries (redis.incr
        (articleViewKey (decimal article.id))).2 = hotEntries redis :=
    hotEntries_congr
      (Redis.entries_incr_of_ne _ (articleViewKey_ne_hotKey _).symm)
  rw [same]

/-- Only a detail of the article moves its counter. -/
theorem counter_step
    {world : World} (ranked : Ranked world.redis) (json : JsonLibrary)
    {event : Event} {id : Int} (other : event.opens id = false) :
    counter (step json world event).redis (decimal id) =
      counter world.redis (decimal id) := by
  apply counter_congr
  have ofComments {Value : Type} {program : Service Value}
      {articleId : Int}
      (only : program.Asks
        (Call.WritesOnly (commentListKey articleId))) :
      (program.run exec world).2.redis.entries
          (articleViewKey (decimal id)) =
        world.redis.entries (articleViewKey (decimal id)) := by
    exact entries_run only
      (articleViewKey_ne_commentListKey _ articleId) world
  cases event with
  | timeOut key => exact (ranked.entries_timeOut key).2 (decimal id)
  | request request =>
      cases request with
      | listArticles page pageSize =>
          exact congrFun (congrArg Redis.entries
            (run_readOnly (listArticles_readOnly page pageSize)
              world).1) _
      | getHotArticles limit =>
          exact congrFun (congrArg Redis.entries
            (run_readOnly (getHotArticles_readOnly limit) world).1) _
      | syncViewCounts =>
          exact congrFun (congrArg Redis.entries
            (run_keepsComments syncViewCounts_keepsComments world).1) _
      | getComments articleId limit =>
          exact ofComments (getComments_writesOnly json articleId limit)
      | createComment articleId content commenter =>
          exact ofComments
            (createComment_writesOnly articleId content commenter)
      | getArticleDetail opened =>
          have different : opened ≠ id := by
            simpa [Event.opens] using other
          show (serve json world (.getArticleDetail opened)).redis.entries
            _ = _
          rw [serve]
          rcases getArticleDetail_effect json opened world with
            kept | ⟨article, found, visited⟩
          · rw [kept]
          · have same := (Database.getArticleById_eq_some found).2
            rw [visited]
            apply entries_visit
            · intro equal
              apply different
              rw [← same]
              exact (decimal_injective
                (articleViewKey_injective equal)).symm
            · exact articleViewKey_ne_hotKey _
            · exact (articleCacheKey_ne_articleViewKey _ _).symm

/-! ## The invariant -/

/-- How the views stand, in a run that began with this database. -/
structure Tallied (initial : Database) (world : World) : Prop where
  ranked : Ranked world.redis
  rows :
    world.database.articles.map Article.fixed =
      initial.articles.map Article.fixed
  /-- a member of the ranking is an article with a counter, its score -/
  members :
    ∀ entry ∈ hotEntries world.redis,
      ∃ id number, entry.1 = decimal id ∧
        initial.getArticleById id ≠ none ∧
        counter world.redis entry.1 = some number ∧
        (number + 1 < 2 ^ 63 → entry.2 = toDouble number)
  /-- a counter has counted something, and its article is ranked -/
  counters :
    ∀ idStr number, counter world.redis idStr = some number →
      1 ≤ number ∧ ∃ score, (idStr, score) ∈ hotEntries world.redis
  /-- a column is as at the start, or an earlier counter -/
  columns :
    ∀ id start stored, storedViews initial id = some start →
      storedViews world.database id = some stored →
        stored ≤ max start (counted world.redis (decimal id)) ∧
          (counter world.redis (decimal id) = none → stored = start)

theorem tallied_initial
    (database : Database) (clock : Nat → Text) (accepts : Nat → Bool) :
    Tallied database (.initial database clock accepts) where
  ranked := ranked_empty
  rows := rfl
  members := by
    intro entry listed
    cases listed
  counters := by
    intro idStr number present
    cases present
  columns := by
    intro id start stored isStart isStored
    have same : some stored = some start := isStored.symm.trans isStart
    cases same
    exact ⟨le_max_left _ _, fun _ => rfl⟩

/-- Only two kinds of keys matter, and the articles. -/
theorem Tallied.congr
    {initial : Database} {world later : World}
    (tallied : Tallied initial world)
    (sameRanking :
      later.redis.entries hotKey = world.redis.entries hotKey)
    (sameCounters :
      ∀ idStr, later.redis.entries (articleViewKey idStr) =
        world.redis.entries (articleViewKey idStr))
    (sameArticles : later.database.articles = world.database.articles) :
    Tallied initial later where
  ranked := tallied.ranked.congr sameRanking sameCounters
  rows := by
    rw [sameArticles]
    exact tallied.rows
  members := by
    intro entry listed
    rw [hotEntries_congr sameRanking] at listed
    rw [counter_congr (sameCounters entry.1)]
    exact tallied.members entry listed
  counters := by
    intro idStr number present
    rw [counter_congr (sameCounters idStr)] at present
    rw [hotEntries_congr sameRanking]
    exact tallied.counters idStr number present
  columns := by
    intro id start stored isStart isStored
    rw [counted, counter_congr (sameCounters (decimal id)), ← counted]
    apply tallied.columns id start stored isStart
    rw [← isStored, storedViews, storedViews, Database.getArticleById,
      Database.getArticleById, sameArticles]

theorem Tallied.readOnly
    {initial : Database} {world : World}
    (tallied : Tallied initial world) {Value : Type}
    {program : Service Value} (readOnly : program.Asks Call.ReadOnly) :
    Tallied initial (program.run exec world).2 := by
  have kept := run_readOnly readOnly world
  apply tallied.congr
  · rw [kept.1]
  · intro idStr
    rw [kept.1]
  · rw [kept.2]

theorem Tallied.timeOut
    {initial : Database} {world : World}
    (tallied : Tallied initial world) (key : Text) :
    Tallied initial (world.timeOut key) :=
  tallied.congr (tallied.ranked.entries_timeOut key).1
    (tallied.ranked.entries_timeOut key).2 rfl

/-- A counter only grows. -/
theorem counted_incr_le
    {redis : Redis} (ranked : Ranked redis) (idStr : Text) :
    counted redis idStr ≤
      counted (redis.incr (articleViewKey idStr)).2 idStr := by
  rcases ranked.counter_incr idStr with
    ⟨-, -, present⟩ | ⟨-, -, present⟩
  · rw [counted_of_some present]
    exact Int.le_of_lt (Int.lt_succ _)
  · rw [counted_of_some present]

/-- After an INCR there is a counter, and it has counted. -/
theorem counter_incr_some
    {redis : Redis} (ranked : Ranked redis) (idStr : Text) :
    ∃ number, 1 ≤ number ∧
      counter (redis.incr (articleViewKey idStr)).2 idStr =
        some number := by
  have low := nonnegative_counted ranked idStr
  rcases ranked.counter_incr idStr with
    ⟨-, -, present⟩ | ⟨last, -, present⟩
  · exact ⟨_, Int.le_add_of_nonneg_left low, present⟩
  · refine ⟨_, ?_, present⟩
    omega

theorem Tallied.visit
    {initial : Database} {world : World}
    (tallied : Tallied initial world) (json : JsonLibrary)
    {article : Article} (fits : IsInt article.id)
    (row : initial.getArticleById article.id ≠ none) :
    Tallied initial
      { world with redis := visit json article world.redis } where
  ranked := tallied.ranked.visit json fits
  rows := tallied.rows
  members := by
    intro entry listed
    simp only [hotEntries_visit tallied.ranked] at listed
    rcases List.mem_cons.mp listed with rfl | old
    · -- the member that was visited
      simp only [counter_visit]
      rcases tallied.ranked.counter_incr (decimal article.id) with
        ⟨-, reply, present⟩ | ⟨last, -, present⟩
      · refine ⟨article.id, _, rfl, row, present, fun _ => ?_⟩
        rw [reply]
      · refine ⟨article.id, _, rfl, row, present, fun room => ?_⟩
        omega
    · rcases List.mem_filter.mp old with ⟨member, other⟩
      have different : entry.1 ≠ decimal article.id := by
        simpa using other
      simp only [counter_visit_of_ne json article different]
      exact tallied.members entry member
  counters := by
    intro idStr number present
    simp only [hotEntries_visit tallied.ranked]
    by_cases same : idStr = decimal article.id
    · subst same
      simp only [counter_visit] at present
      rcases counter_incr_some tallied.ranked (decimal article.id) with
        ⟨counts, positive, now⟩
      rw [now] at present
      cases present
      exact ⟨positive, _, List.mem_cons_self⟩
    · simp only [counter_visit_of_ne json article same] at present
      rcases tallied.counters idStr number present with
        ⟨positive, score, member⟩
      refine ⟨positive, score, List.mem_cons_of_mem _ ?_⟩
      exact List.mem_filter.mpr ⟨member, by simpa using same⟩
  columns := by
    intro id start stored isStart isStored
    rcases tallied.columns id start stored isStart isStored with
      ⟨bound, untouched⟩
    by_cases same : decimal id = decimal article.id
    · simp only [same, counted, counter_visit] at bound ⊢
      constructor
      · exact bound.trans (max_le_max_left start
          (counted_incr_le tallied.ranked (decimal article.id)))
      · intro absent
        rcases counter_incr_some tallied.ranked (decimal article.id) with
          ⟨counts, -, now⟩
        rw [now] at absent
        cases absent
    · simp only [counted, counter_visit_of_ne json article same]
      exact ⟨bound, untouched⟩

/-- A sync puts a counter into a column, or leaves the column. -/
theorem Tallied.syncViewCounts
    {initial : Database} {world : World}
    (tallied : Tallied initial world) :
    Tallied initial (syncViewCounts.run exec world).2 := by
  have kept :=
    (run_keepsComments syncViewCounts_keepsComments world).1
  constructor
  · rw [kept]
    exact tallied.ranked
  · exact (fixed_run ArticleService.syncViewCounts world).trans
      tallied.rows
  · rw [kept]
    exact tallied.members
  · rw [kept]
    exact tallied.counters
  · intro id start stored isStart isStored
    rw [kept]
    rw [storedViews_syncViewCounts tallied.ranked] at isStored
    cases before : storedViews world.database id with
    | none => simp [before] at isStored
    | some old =>
        have known := tallied.columns id start old isStart before
        rw [before] at isStored
        by_cases listed : decimal id ∈ syncedMembers world.redis
        · rw [if_pos listed, Option.map_some,
            Option.some.injEq] at isStored
          subst isStored
          cases present : counter world.redis (decimal id) with
          | none =>
              rw [present] at known
              exact ⟨known.1, known.2⟩
          | some number =>
              rw [counted_of_some present]
              refine ⟨le_max_right _ _, ?_⟩
              intro absent
              cases absent
        · rw [if_neg listed, Option.some.injEq] at isStored
          exact isStored ▸ known

theorem Tallied.of_comments
    {initial : Database} {world later : World} {articleId : Int}
    (tallied : Tallied initial world)
    (only :
      ∀ key, key ≠ commentListKey articleId →
        later.redis.entries key = world.redis.entries key)
    (sameArticles : later.database.articles = world.database.articles) :
    Tallied initial later := by
  apply tallied.congr
  · exact only _ (hotKey_ne_commentListKey articleId)
  · intro idStr
    exact only _ (articleViewKey_ne_commentListKey idStr articleId)
  · exact sameArticles

theorem Tallied.step
    {initial : Database} {world : World}
    (tallied : Tallied initial world) (json : JsonLibrary)
    (event : Event) :
    Tallied initial (step json world event) := by
  cases event with
  | timeOut key => exact tallied.timeOut key
  | request request =>
      cases request with
      | listArticles page pageSize =>
          exact tallied.readOnly (listArticles_readOnly page pageSize)
      | getHotArticles limit =>
          exact tallied.readOnly (getHotArticles_readOnly limit)
      | syncViewCounts => exact tallied.syncViewCounts
      | getArticleDetail id =>
          rcases getArticleDetail_effect json id world with
            kept | ⟨article, found, visited⟩
          · exact (congrArg (Tallied initial) kept).mpr tallied
          · rcases Database.getArticleById_eq_some found with
              ⟨inTable, sameId⟩
            have row : initial.getArticleById article.id ≠ none := by
              have same := Database.getArticleById_fixed tallied.rows id
              rw [found] at same
              rw [sameId]
              intro missing
              rw [missing] at same
              cases same
            exact (congrArg (Tallied initial) visited).mpr
              (tallied.visit json
                (world.database.articlesFit article inTable).1 row)
      | getComments articleId limit =>
          apply tallied.of_comments
          · intro key different
            exact entries_run
              (getComments_writesOnly json articleId limit) different world
          · by_cases miss :
                cachedItems json world.redis articleId limit = []
            · exact congrArg (fun later => later.2.database.articles)
                (run_getComments_miss json miss)
            · exact congrArg (fun later => later.2.database.articles)
                (run_getComments_hit json miss)
      | createComment articleId content commenter =>
          apply tallied.of_comments
          · intro key different
            exact entries_run
              (createComment_writesOnly articleId content commenter)
              different world
          · rcases createComment_effect articleId content commenter
                world with ⟨-, same⟩ | ⟨-, inserted⟩
            · exact congrArg Database.articles same
            · exact (congrArg Database.articles inserted).trans
                (Database.articles_createComment _ _ _ _)

theorem tallied_runFrom
    (json : JsonLibrary) (database : Database) (clock : Nat → Text)
    (accepts : Nat → Bool) (events : List Event) :
    Tallied database (runFrom json database clock accepts events) :=
  run_invariant (Tallied database)
    (fun _ event tallied => tallied.step json event)
    events (tallied_initial database clock accepts)

end LightningServer.Service
