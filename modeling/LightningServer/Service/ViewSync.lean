import LightningServer.Foundation.JsonParser
import LightningServer.Service.Forum

/-!
# What the periodic sync does to the view counts

In every reachable state the ranking holds ids in decimal, and the counters
are decimal numbers without a time to live.  `syncViewCounts` then writes the
counter of each of the first hundred members into its row, and stops at the
first counter that `stoi` refuses.  It never compares a counter with the
column: a counter starts at one, whatever the column holds.
-/

namespace LightningServer.Service

open LightningServer.Foundation
open LightningServer.Foundation.Numerals
open LightningServer.Foundation.Transition
open LightningServer.Store
open LightningServer.Service.ArticleService
open LightningServer.Service.CommentService

/-! ## Counters and ranking in reachable states -/

/-- What the article keys of Redis hold. -/
structure Ranked (redis : Redis) : Prop where
  ranking :
    ∀ entry, redis.entries hotKey = some entry →
      entry.volatile = false ∧
        ∃ set, entry.value = .sortedSet set ∧
          ∀ member ∈ set.descending,
            ∃ id, IsInt id ∧ member = decimal id
  counters :
    ∀ idStr entry, redis.entries (articleViewKey idStr) = some entry →
      entry.volatile = false ∧
        ∃ number : Int, entry.value = .string (decimal number) ∧
          0 ≤ number ∧ number < 2 ^ 63

theorem ranked_empty : Ranked Redis.empty where
  ranking := by
    intro entry found
    cases found
  counters := by
    intro idStr entry found
    cases found

/-- Other keys do not matter. -/
theorem Ranked.congr
    {redis later : Redis} (ranked : Ranked redis)
    (sameRanking : later.entries hotKey = redis.entries hotKey)
    (sameCounters :
      ∀ idStr, later.entries (articleViewKey idStr) =
        redis.entries (articleViewKey idStr)) :
    Ranked later where
  ranking := by
    rw [sameRanking]
    exact ranked.ranking
  counters := by
    intro idStr
    rw [sameCounters idStr]
    exact ranked.counters idStr

/-- The ranking is absent, or a sorted set of ids. -/
theorem Ranked.ranking_cases
    {redis : Redis} (ranked : Ranked redis) :
    redis.entries hotKey = none ∨
      ∃ set, redis.entries hotKey = some ⟨.sortedSet set, false⟩ ∧
        ∀ member ∈ set.descending,
          ∃ id, IsInt id ∧ member = decimal id := by
  cases present : redis.entries hotKey with
  | none => exact Or.inl rfl
  | some entry =>
      rcases ranked.ranking entry present with
        ⟨lasting, set, value, members⟩
      rcases entry with ⟨content, volatile⟩
      simp only at lasting value
      subst lasting value
      exact Or.inr ⟨set, rfl, members⟩

/-- A counter is absent, or a 64-bit number that is not negative. -/
theorem Ranked.counter_cases
    {redis : Redis} (ranked : Ranked redis) (idStr : Text) :
    redis.entries (articleViewKey idStr) = none ∨
      ∃ number : Int,
        redis.entries (articleViewKey idStr) =
            some ⟨.string (decimal number), false⟩ ∧
          0 ≤ number ∧ number < 2 ^ 63 := by
  cases present : redis.entries (articleViewKey idStr) with
  | none => exact Or.inl rfl
  | some entry =>
      rcases ranked.counters idStr entry present with
        ⟨lasting, number, value, low, high⟩
      rcases entry with ⟨content, volatile⟩
      simp only at lasting value
      subst lasting value
      exact Or.inr ⟨number, rfl, low, high⟩

/-- Neither the ranking nor a counter has a time to live. -/
theorem Ranked.entries_timeOut
    {redis : Redis} (ranked : Ranked redis) (key : Text) :
    (redis.timeOut key).entries hotKey = redis.entries hotKey ∧
      ∀ idStr,
        (redis.timeOut key).entries (articleViewKey idStr) =
          redis.entries (articleViewKey idStr) := by
  constructor
  · rcases redis.entries_timeOut key hotKey with
      same | ⟨-, entry, found, volatile⟩
    · exact same
    · have lasting := (ranked.ranking entry found).1
      rw [volatile] at lasting
      cases lasting
  · intro idStr
    rcases redis.entries_timeOut key (articleViewKey idStr) with
      same | ⟨-, entry, found, volatile⟩
    · exact same
    · have lasting := (ranked.counters idStr entry found).1
      rw [volatile] at lasting
      cases lasting

theorem Ranked.timeOut
    {redis : Redis} (ranked : Ranked redis) (key : Text) :
    Ranked (redis.timeOut key) :=
  ranked.congr (ranked.entries_timeOut key).1
    (ranked.entries_timeOut key).2

theorem Ranked.incr
    {redis : Redis} (ranked : Ranked redis) (idStr : Text) :
    Ranked (redis.incr (articleViewKey idStr)).2 where
  ranking := by
    rw [Redis.entries_incr_of_ne _
      (articleViewKey_ne_hotKey idStr).symm]
    exact ranked.ranking
  counters := by
    intro other entry found
    by_cases same : other = idStr
    · subst same
      unfold Redis.incr at found
      rcases ranked.counter_cases other with
        absent | ⟨number, present, low, high⟩
      · simp only [absent, Redis.entries_put_self,
          Option.some.injEq] at found
        subst found
        exact ⟨rfl, 1, rfl, by decide, by decide⟩
      · simp only [present,
          strictInteger_decimal (by omega) high] at found
        by_cases room : number + 1 < 2 ^ 63
        · rw [if_pos room, Redis.entries_put_self] at found
          cases found
          exact ⟨rfl, number + 1, rfl, by omega, room⟩
        · rw [if_neg room, present] at found
          cases found
          exact ⟨rfl, number, rfl, low, high⟩
    · rw [Redis.entries_incr_of_ne _
        (fun equal => same (articleViewKey_injective equal))] at found
      exact ranked.counters other entry found

theorem Ranked.zadd
    {redis : Redis} (ranked : Ranked redis) (score : Int)
    {id : Int} (fits : IsInt id) :
    Ranked (redis.zadd hotKey score (decimal id)).2 where
  ranking := by
    intro entry found
    unfold Redis.zadd at found
    rcases ranked.ranking_cases with absent | ⟨set, present, members⟩
    · simp only [absent, Redis.entries_put_self,
        Option.some.injEq] at found
      subst found
      refine ⟨rfl, _, rfl, ?_⟩
      intro member listed
      rcases SortedSet.mem_descending_add listed with rfl | impossible
      · exact ⟨id, fits, rfl⟩
      · cases impossible
    · simp only [present, Redis.entries_put_self,
        Option.some.injEq] at found
      subst found
      refine ⟨rfl, _, rfl, ?_⟩
      intro member listed
      rcases SortedSet.mem_descending_add listed with rfl | known
      · exact ⟨id, fits, rfl⟩
      · exact members member known
  counters := by
    intro idStr
    rw [Redis.entries_zadd_of_ne _ _ _ (articleViewKey_ne_hotKey idStr)]
    exact ranked.counters idStr

theorem Ranked.visit
    {redis : Redis} (ranked : Ranked redis) (json : JsonLibrary)
    {article : Article} (fits : IsInt article.id) :
    Ranked (visit json article redis) := by
  have counted := ranked.incr (decimal article.id)
  apply (counted.zadd (toDouble _) fits).congr
  · exact Redis.entries_set_of_ne _ _ _
      (articleCacheKey_ne_hotKey article.id).symm
  · intro idStr
    exact Redis.entries_set_of_ne _ _ _
      (articleCacheKey_ne_articleViewKey article.id idStr).symm

/-- A program that writes one comment list does not touch these keys. -/
theorem Ranked.run_comments
    {world : World} (ranked : Ranked world.redis) {Value : Type}
    {program : Service Value} {articleId : Int}
    (only : program.Asks
      (Call.WritesOnly (commentListKey articleId))) :
    Ranked (program.run exec world).2.redis := by
  apply ranked.congr
  · exact entries_run only (hotKey_ne_commentListKey articleId) world
  · intro idStr
    exact entries_run only
      (articleViewKey_ne_commentListKey idStr articleId) world

theorem Ranked.step
    (json : JsonLibrary) (world : World) (event : Event)
    (ranked : Ranked world.redis) :
    Ranked (step json world event).redis := by
  cases event with
  | timeOut key => exact ranked.timeOut key
  | request request =>
      cases request with
      | listArticles page pageSize =>
          have kept :=
            run_readOnly (listArticles_readOnly page pageSize) world
          exact kept.1.symm ▸ ranked
      | getArticleDetail id =>
          rcases getArticleDetail_effect json id world with
            kept | ⟨article, found, visited⟩
          · exact (congrArg World.redis kept).symm ▸ ranked
          · have inTable := (Database.getArticleById_eq_some found).1
            have fits := (world.database.articlesFit article inTable).1
            exact (congrArg World.redis visited).symm ▸
              ranked.visit json fits
      | getHotArticles limit =>
          have kept := run_readOnly (getHotArticles_readOnly limit) world
          exact kept.1.symm ▸ ranked
      | syncViewCounts =>
          have kept :=
            run_keepsComments syncViewCounts_keepsComments world
          exact kept.1.symm ▸ ranked
      | getComments articleId limit =>
          exact ranked.run_comments
            (getComments_writesOnly json articleId limit)
      | createComment articleId content commenter =>
          exact ranked.run_comments
            (createComment_writesOnly articleId content commenter)

theorem ranked_runFrom
    (json : JsonLibrary) (database : Database) (clock : Nat → Text)
    (accepts : Nat → Bool) (events : List Event) :
    Ranked (runFrom json database clock accepts events).redis :=
  run_invariant (fun world => Ranked world.redis)
    (fun world event ranked => ranked.step json world event)
    events ranked_empty

/-! ## The effect of the loop -/

/-- The counter of an article, from the text of its id. -/
def counter (redis : Redis) (idStr : Text) : Option Int :=
  (redis.get (articleViewKey idStr)).bind strictInteger

/-- `stoi` takes the counter, if there is one. -/
def CounterFits (redis : Redis) (idStr : Text) : Prop :=
  ∀ number ∈ counter redis idStr, IsInt number

instance (redis : Redis) (idStr : Text) :
    Decidable (CounterFits redis idStr) :=
  inferInstanceAs
    (Decidable (∀ number ∈ counter redis idStr, IsInt number))

/-- The stored view count of an article. -/
def storedViews (database : Database) (id : Int) : Option Int :=
  (database.getArticleById id).map Article.viewCount

theorem Ranked.get_counter
    {redis : Redis} (ranked : Ranked redis) (idStr : Text) :
    redis.get (articleViewKey idStr) = none ∧
        counter redis idStr = none ∨
      ∃ number, redis.get (articleViewKey idStr) =
          some (decimal number) ∧ counter redis idStr = some number := by
  unfold counter
  rcases ranked.counter_cases idStr with
    absent | ⟨number, present, low, high⟩
  · left
    simp [Redis.get, absent]
  · right
    refine ⟨number, ?_, ?_⟩
    · simp [Redis.get, present]
    · have narrow : -2 ^ 63 ≤ number := by omega
      simp [Redis.get, present, strictInteger_decimal narrow high]

theorem storedViews_setViewCount
    (database : Database) (id other count : Int) (now : Text)
    (fits : IsInt count) :
    storedViews (database.setViewCount id count now).2 other =
      if other = id then (storedViews database other).map fun _ => count
      else storedViews database other := by
  have sameRow :
      (fun article : Article => decide (article.id = other)) ∘
          Database.withViewCount id count now =
        fun article => decide (article.id = other) := by
    funext article
    simp
  simp only [storedViews, Database.getArticleById,
    Database.articles_setViewCount fits, List.find?_map, sameRow,
    Option.map_map]
  cases found :
      database.articles.find? fun article => article.id = other with
  | none => simp
  | some article =>
      have isOther : article.id = other := by
        simpa using List.find?_some found
      simp only [Option.map_some, Function.comp_apply,
        Database.withViewCount_viewCount, isOther]
      by_cases same : other = id
      · simp [same]
      · simp [same]

/-- A member without a counter is skipped. -/
theorem run_syncLoop_absent
    {world : World} {idStr : Text} {rest : List Text}
    (absent : world.redis.get (articleViewKey idStr) = none) :
    (syncLoop (idStr :: rest)).run exec world =
      (syncLoop rest).run exec world := by
  simp only [syncLoop, Program.perform_bind, Program.run_call, exec,
    absent]

/-- A counter that is an `int` is written. -/
theorem run_syncLoop_written
    {world : World} {id number : Int} {rest : List Text}
    (fits : IsInt id) (taken : IsInt number)
    (value :
      world.redis.get (articleViewKey (decimal id)) =
        some (decimal number)) :
    (syncLoop (decimal id :: rest)).run exec world =
      (syncLoop rest).run exec
        (world.onDatabase
          (world.database.setViewCount id number world.now)).2 := by
  simp only [syncLoop, Program.perform_bind, Program.run_call, exec,
    value, stoi_decimal, fits, taken, if_true, Program.ofExcept_ok,
    Program.ret_bind]

/-- On any other, `stoi` throws and the loop ends. -/
theorem run_syncLoop_misfit
    {world : World} {id number : Int} {rest : List Text}
    (fits : IsInt id) (misfit : ¬ IsInt number)
    (value :
      world.redis.get (articleViewKey (decimal id)) =
        some (decimal number)) :
    (syncLoop (decimal id :: rest)).run exec world =
      (.error .outOfRange, world) := by
  simp only [syncLoop, Program.perform_bind, Program.run_call, exec,
    value, stoi_decimal, fits, misfit, if_true, if_false,
    Program.ofExcept_ok, Program.ret_bind, Program.ofExcept_error,
    Program.throw_bind, Program.run_throw]

/-- The loop writes the counters of the members before the first misfit. -/
theorem storedViews_syncLoop
    {redis : Redis} (ranked : Ranked redis) {hotIds : List Text}
    (distinct : hotIds.Nodup)
    (members : ∀ idStr ∈ hotIds, ∃ id, IsInt id ∧ idStr = decimal id)
    {world : World} (same : world.redis = redis) (id : Int) :
    storedViews ((syncLoop hotIds).run exec world).2.database id =
      if decimal id ∈ hotIds.takeWhile
          (fun idStr => decide (CounterFits redis idStr)) then
        (storedViews world.database id).map
          fun stored => (counter redis (decimal id)).getD stored
      else storedViews world.database id := by
  induction hotIds generalizing world with
  | nil => simp [syncLoop]
  | cons idStr rest induction =>
      rw [List.nodup_cons] at distinct
      rcases distinct with ⟨notLater, distinct⟩
      rcases members idStr List.mem_cons_self with ⟨listed, fits, rfl⟩
      have later :=
        @induction distinct fun other member =>
          members other (List.mem_cons_of_mem _ member)
      have notTaken :
          decimal listed ∉ rest.takeWhile
            (fun idStr => decide (CounterFits redis idStr)) := fun taken =>
        notLater (List.takeWhile_subset _ taken)
      rcases ranked.get_counter (decimal listed) with
        ⟨absent, noCounter⟩ | ⟨number, value, present⟩
      · -- no counter: the member is skipped
        have taken : CounterFits redis (decimal listed) := by
          simp [CounterFits, noCounter]
        rw [run_syncLoop_absent (by rw [same, absent]), later same,
          List.takeWhile_cons_of_pos (by simpa)]
        by_cases here : id = listed
        · subst here
          simp [notTaken, noCounter]
        · have different : decimal id ≠ decimal listed := fun equal =>
            here (decimal_injective equal)
          simp [different]
      · by_cases taken : IsInt number
        · -- the counter is written
          have counted : CounterFits redis (decimal listed) := by
            simpa [CounterFits, present] using taken
          rw [run_syncLoop_written fits taken (by rw [same, value]),
            later (by exact same), List.takeWhile_cons_of_pos (by simpa)]
          simp only [World.onDatabase]
          rw [storedViews_setViewCount _ _ _ _ _ taken]
          by_cases here : id = listed
          · subst here
            simp [notTaken, present]
          · have different : decimal id ≠ decimal listed := fun equal =>
              here (decimal_injective equal)
            simp [different, here]
        · -- `stoi` throws: the loop ends
          have misfit : ¬ CounterFits redis (decimal listed) := by
            simpa [CounterFits, present] using taken
          rw [run_syncLoop_misfit fits taken (by rw [same, value]),
            List.takeWhile_cons_of_neg (by simpa)]
          simp

/-! ## Whether a sync keeps the view counts -/

/-- No stored view count gets smaller. -/
def KeepsViews (before after : Database) : Prop :=
  ∀ id stored, storedViews before id = some stored →
    ∃ later, storedViews after id = some later ∧ stored ≤ later

/--
The members that a sync gets to: the first hundred, up to the first one
whose counter is wider than an `int`.
-/
def syncedMembers (redis : Redis) : List Text :=
  (redis.zrevrange hotKey 0 99).takeWhile fun idStr =>
    decide (CounterFits redis idStr)

/-- Each counter that is written has caught up with its column. -/
def Covered (world : World) : Prop :=
  ∀ id stored, storedViews world.database id = some stored →
    decimal id ∈ syncedMembers world.redis →
      ∀ number ∈ counter world.redis (decimal id), stored ≤ number

theorem Ranked.hotMembers
    {redis : Redis} (ranked : Ranked redis) :
    (redis.zrevrange hotKey 0 99).Nodup ∧
      ∀ idStr ∈ redis.zrevrange hotKey 0 99,
        ∃ id, IsInt id ∧ idStr = decimal id := by
  unfold Redis.zrevrange
  rcases ranked.ranking_cases with absent | ⟨set, present, members⟩
  · simp [absent]
  · have taken :=
      Redis.slice_zero (show (1 : Int) ≤ 100 by decide) set.descending
    rw [show (100 : Int) - 1 = 99 from rfl] at taken
    simp only [present, taken]
    constructor
    · exact set.nodup_descending.sublist (List.take_sublist 100 _)
    · intro idStr listed
      exact members idStr (List.mem_of_mem_take listed)

theorem storedViews_syncViewCounts
    {world : World} (ranked : Ranked world.redis) (id : Int) :
    storedViews (syncViewCounts.run exec world).2.database id =
      if decimal id ∈ syncedMembers world.redis then
        (storedViews world.database id).map
          fun stored =>
            (counter world.redis (decimal id)).getD stored
      else storedViews world.database id := by
  rcases ranked.hotMembers with ⟨distinct, members⟩
  exact storedViews_syncLoop ranked distinct members rfl id

/--
In every reachable state, a sync keeps every stored view count if and only if
each counter it writes is at least the column it overwrites.
-/
theorem syncViewCounts_keepsViews_iff
    (json : JsonLibrary) (database : Database) (clock : Nat → Text)
    (accepts : Nat → Bool) (events : List Event) :
    let world := runFrom json database clock accepts events
    KeepsViews world.database
        (syncViewCounts.run exec world).2.database ↔
      Covered world := by
  intro world
  have ranked : Ranked world.redis :=
    ranked_runFrom json database clock accepts events
  have after := storedViews_syncViewCounts ranked
  constructor
  · intro keeps id stored isStored listed number counted
    rcases keeps id stored isStored with ⟨later, isLater, atLeast⟩
    rw [after id, if_pos listed, isStored, counted] at isLater
    cases isLater
    exact atLeast
  · intro covered id stored isStored
    rw [after id]
    by_cases listed : decimal id ∈ syncedMembers world.redis
    · rw [if_pos listed, isStored]
      refine ⟨_, rfl, ?_⟩
      cases counted : counter world.redis (decimal id) with
      | none => exact Int.le_refl stored
      | some number =>
          exact covered id stored isStored listed number counted
    · rw [if_neg listed]
      exact ⟨stored, isStored, Int.le_refl stored⟩

/-! ## A seeded article -/

/-- One article that starts with views, as the seed rows do. -/
def seededDatabase : Database where
  storedArticles := [{ id := 1, viewCount := 1280 }]
  storedComments := []
  nextCommentId := 1
  tieRank := fun id => id
  storedArticleIds := by decide
  storedArticlesFit := by decide
  storedCommentIds := by decide
  storedCommentsFit := by decide
  storedCommentsBelow := by decide

/-- The article after one visit. -/
def visitedWorld : World :=
  runFrom Json.compactLibrary seededDatabase (fun _ => [])
    (fun _ => true) [.request (.getArticleDetail 1)]

/-- One visit, then a sync: 1280 stored views become one. -/
theorem syncViewCounts_loses_seeded_views :
    ¬ KeepsViews visitedWorld.database
      (syncViewCounts.run exec visitedWorld).2.database := by
  have before : storedViews visitedWorld.database 1 = some 1280 := by
    decide +kernel
  have after :
      storedViews
          (syncViewCounts.run exec visitedWorld).2.database 1 =
        some 1 := by
    decide +kernel
  intro keeps
  rcases keeps 1 1280 before with ⟨later, isLater, atLeast⟩
  rw [after] at isLater
  cases isLater
  exact absurd atLeast (by decide)

end LightningServer.Service
