import LightningServer.Service.CommentOrder
import LightningServer.Service.HotRanking
import LightningServer.Service.VisitCount
import Mathlib.Data.List.Infix

/-!
# The view counts that are shown

Three endpoints show the view count of an article: a page shows the column, a
detail the larger of column and counter when it was cached, the hot list the
larger of the two now.  Neither number alone is monotone, since a sync puts
the counter into the column; what never decreases is the larger of the counter
and of the column at the start.  A run shows no view count that goes back
exactly when each response shows that number.
-/

namespace LightningServer.Service

open LightningServer.Foundation
open LightningServer.Foundation.Numerals
open LightningServer.Foundation.Transition
open LightningServer.Store
open LightningServer.Service.ArticleService

/-! ## What a run shows -/

/-- The articles of an answer. -/
def Answer.items (answer : Answer) : List Json :=
  match answer.request, answer.result with
  | .listArticles _ _, .ok response => responseList response
  | .getArticleDetail _, .ok response =>
      (response.field? (text "data")).toList
  | .getHotArticles _, .ok response => hotItems response
  | _, _ => []

/-- The id and the view count of an article in a response. -/
def itemShows? (item : Json) : Option (Int × Int) :=
  (itemId? item).bind fun id =>
    (itemViews? item).map fun views => (id, views)

/-- The ids and view counts of an answer. -/
def Answer.shows (answer : Answer) : List (Int × Int) :=
  answer.items.filterMap itemShows?

/-- All that is shown, in its order. -/
def shownIn (answers : List Answer) : List (Int × Int) :=
  answers.flatMap Answer.shows

/-- No article is shown with fewer views than before. -/
def NeverBack (shown : List (Int × Int)) : Prop :=
  shown.Pairwise fun earlier later =>
    earlier.1 = later.1 → earlier.2 ≤ later.2

instance (shown : List (Int × Int)) : Decidable (NeverBack shown) :=
  inferInstanceAs (Decidable (List.Pairwise _ _))

/-! ## The number that does not decrease -/

/-- The column at the start. -/
def startViews (initial : Database) (id : Int) : Int :=
  (storedViews initial id).getD 0

/-- The larger of the column at the start and of the counter. -/
def bestViews (initial : Database) (redis : Redis) (id : Int) : Int :=
  match counter redis (decimal id) with
  | none => startViews initial id
  | some number => max (startViews initial id) number

theorem startViews_le_bestViews
    (initial : Database) (redis : Redis) (id : Int) :
    startViews initial id ≤ bestViews initial redis id := by
  rw [bestViews]
  cases counter redis (decimal id) with
  | none => exact Int.le_refl _
  | some number => exact le_max_left _ _

/-- The rows of a page. -/
def pageRows (database : Database) (page pageSize : Int) :
    List Article :=
  (database.getArticles (if page < 1 then 1 else page)
    (if pageSize < 1 ∨ 50 < pageSize then 10 else pageSize)).1

/--
What the response will be made of has not fallen behind: on a page, each
column is at least the counter and the column at the start; elsewhere, the
larger of column and counter is at least the column at the start.
-/
def UpToDate (initial : Database) (world : World) : Event → Prop
  | .request (.listArticles page pageSize) =>
      ∀ row ∈ pageRows world.database page pageSize,
        bestViews initial world.redis row.id ≤ row.viewCount
  | .request (.getHotArticles limit) =>
      ∀ row ∈ rankedRows world limit,
        startViews initial row.id ≤
          max row.viewCount (counted world.redis (decimal row.id))
  | .request (.getArticleDetail id) =>
      world.redis.get (articleCacheKey id) = none →
        ∀ row ∈ world.database.getArticleById id,
          startViews initial id ≤
            max row.viewCount (counted world.redis (decimal id) + 1)
  | _ => True

instance (initial : Database) (world : World) :
    ∀ event, Decidable (UpToDate initial world event)
  | .request (.listArticles page pageSize) =>
      inferInstanceAs
        (Decidable (∀ row ∈ pageRows world.database page pageSize, _))
  | .request (.getHotArticles limit) =>
      inferInstanceAs (Decidable (∀ row ∈ rankedRows world limit, _))
  | .request (.getArticleDetail _) =>
      inferInstanceAs (Decidable (_ → ∀ row ∈ _, _))
  | .request (.getComments _ _) => .isTrue trivial
  | .request (.createComment _ _ _) => .isTrue trivial
  | .request .syncViewCounts => .isTrue trivial
  | .timeOut _ => .isTrue trivial

section Rows

variable {initial : Database} {world : World}

theorem storedViews_of_mem
    {row : Article} (inTable : row ∈ world.database.articles) :
    storedViews world.database row.id = some row.viewCount := by
  rw [storedViews, Database.getArticleById_of_mem inTable,
    Option.map_some]

/-- The article was there at the start, with its column of then. -/
theorem storedViews_start
    (tallied : Tallied initial world) {row : Article}
    (inTable : row ∈ world.database.articles) :
    storedViews initial row.id = some (startViews initial row.id) := by
  have same := Database.getArticleById_fixed tallied.rows row.id
  rw [Database.getArticleById_of_mem inTable] at same
  cases found : initial.getArticleById row.id with
  | none =>
      rw [found] at same
      cases same
  | some start =>
      rw [startViews, storedViews, found]
      rfl

/-- A column never exceeds that number, and is it when nothing is counted. -/
theorem viewCount_le_bestViews
    (tallied : Tallied initial world) {row : Article}
    (inTable : row ∈ world.database.articles) :
    row.viewCount ≤ bestViews initial world.redis row.id ∧
      (counter world.redis (decimal row.id) = none →
        row.viewCount = bestViews initial world.redis row.id) := by
  rcases tallied.columns row.id _ _ (storedViews_start tallied inTable)
    (storedViews_of_mem inTable) with ⟨bound, untouched⟩
  rw [bestViews]
  cases present : counter world.redis (decimal row.id) with
  | none =>
      have same := untouched present
      exact ⟨Int.le_of_eq same, fun _ => same⟩
  | some number =>
      rw [counted_of_some present] at bound
      refine ⟨bound, ?_⟩
      intro absent
      cases absent

/-- The larger of column and counter, against that number. -/
theorem max_counted_cases
    (tallied : Tallied initial world) {row : Article}
    (inTable : row ∈ world.database.articles) {number : Int}
    (present : counter world.redis (decimal row.id) = some number) :
    max row.viewCount number ≤ bestViews initial world.redis row.id ∧
      (startViews initial row.id ≤ max row.viewCount number ↔
        bestViews initial world.redis row.id ≤
          max row.viewCount number) := by
  have bound := (viewCount_le_bestViews tallied inTable).1
  have best :
      bestViews initial world.redis row.id =
        max (startViews initial row.id) number := by
    rw [bestViews, present]
  rw [best] at bound ⊢
  constructor
  · exact max_le bound (le_max_right _ _)
  · constructor
    · intro enough
      exact max_le enough (le_max_right _ _)
    · intro enough
      exact (le_max_left _ _).trans enough

end Rows

/-! ## What each kind of answer shows -/

section Answers

variable {initial : Database} {world : World} {json : JsonLibrary}

@[simp]
theorem itemShows?_listItem (article : Article) :
    itemShows? (listItem article) =
      some (article.id, article.viewCount) := by
  rfl

@[simp]
theorem itemShows?_articleToJson (article : Article) :
    itemShows? (articleToJson article) =
      some (article.id, article.viewCount) := by
  rfl

theorem filterMap_itemShows?_listItem (articles : List Article) :
    (articles.map listItem).filterMap itemShows? =
      articles.map fun article => (article.id, article.viewCount) := by
  rw [List.filterMap_map]
  have each :
      itemShows? ∘ listItem =
        some ∘ fun article => (article.id, article.viewCount) := by
    ext article : 1
    exact itemShows?_listItem article
  rw [each, List.filterMap_eq_map]

theorem shownIn_listArticles (page pageSize : Int) :
    shownIn (answersTo json world
        (.request (.listArticles page pageSize))) =
      (pageRows world.database page pageSize).map
        fun row => (row.id, row.viewCount) := by
  rw [← filterMap_itemShows?_listItem]
  exact List.append_nil _

theorem shownIn_getHotArticles
    (tallied : Tallied initial world) (narrow : CountersNarrow world)
    (limit : Int) :
    shownIn (answersTo json world (.request (.getHotArticles limit))) =
      (hotArticles world limit).map
        fun row => (row.id, row.viewCount) := by
  rw [← filterMap_itemShows?_listItem, answersTo, requestCode,
    run_getHotArticles tallied, if_pos (narrow.fit tallied limit)]
  exact List.append_nil _

theorem shownIn_of_detailResponse
    {id : Int} {article : Article} {later : World}
    (shown :
      (getArticleDetail json id).run exec world =
        (.ok (detailResponse article), later)) :
    shownIn (answersTo json world (.request (.getArticleDetail id))) =
      [(article.id, article.viewCount)] := by
  rw [answersTo, requestCode, shown]
  rfl

theorem shownIn_of_absent
    {id : Int} {later : World}
    (absent :
      (getArticleDetail json id).run exec world =
        (.ok (failure 404 (text "Article not found")), later)) :
    shownIn (answersTo json world (.request (.getArticleDetail id))) =
      [] := by
  rw [answersTo, requestCode, absent]
  rfl

end Answers

/-- A page or a hot list that is up to date shows that number. -/
theorem shownIn_best
    {initial : Database} {world : World} {json : JsonLibrary}
    (tallied : Tallied initial world) (narrow : CountersNarrow world)
    {request : Request} (noDetail : ∀ id, request ≠ .getArticleDetail id)
    (upToDate : UpToDate initial world (.request request)) :
    ∀ pair ∈ shownIn (answersTo json world (.request request)),
      pair.2 = bestViews initial world.redis pair.1 := by
  intro pair member
  cases request with
  | getArticleDetail id => exact absurd rfl (noDetail id)
  | syncViewCounts => cases member
  | getComments articleId limit => cases member
  | createComment articleId content commenter => cases member
  | listArticles page pageSize =>
      rw [shownIn_listArticles] at member
      rcases List.mem_map.mp member with ⟨row, onPage, rfl⟩
      have inTable := Database.mem_of_mem_getArticles onPage
      exact le_antisymm (viewCount_le_bestViews tallied inTable).1
        (upToDate row onPage)
  | getHotArticles limit =>
      rw [shownIn_getHotArticles tallied narrow, hotArticles] at member
      by_cases empty : hotMembers world.redis limit = []
      · rw [if_neg (not_not.mpr empty)] at member
        rcases List.mem_map.mp member with ⟨row, listed, rfl⟩
        have inTable : row ∈ world.database.articles :=
          mem_orderBy.mp (List.mem_of_mem_take listed)
        have nothing :=
          (hotMembers_eq_nil_iff world.redis limit).mp empty
        exact (viewCount_le_bestViews tallied inTable).2
          (tallied.counter_eq_none_of_nil nothing _)
      · rw [if_pos empty, List.map_map] at member
        rcases List.mem_map.mp member with ⟨row, listed, rfl⟩
        rcases tallied.counter_of_mem_rankedRows listed with
          ⟨inTable, number, present⟩
        have enough := upToDate row listed
        simp only [Function.comp_apply, withCounter]
        rw [counted_of_some present] at enough ⊢
        have both := max_counted_cases tallied inTable present
        exact le_antisymm both.1 (both.2.mp enough)

/-- One that is not shows less than it for an article that is counted. -/
theorem shownIn_behind
    {initial : Database} {world : World} {json : JsonLibrary}
    (tallied : Tallied initial world) (narrow : CountersNarrow world)
    {request : Request} (noDetail : ∀ id, request ≠ .getArticleDetail id)
    (behind : ¬ UpToDate initial world (.request request)) :
    ∃ pair ∈ shownIn (answersTo json world (.request request)),
      counter world.redis (decimal pair.1) ≠ none ∧
        pair.2 < bestViews initial world.redis pair.1 := by
  cases request with
  | getArticleDetail id => exact absurd rfl (noDetail id)
  | syncViewCounts => exact absurd trivial behind
  | getComments articleId limit => exact absurd trivial behind
  | createComment articleId content commenter =>
      exact absurd trivial behind
  | listArticles page pageSize =>
      rw [UpToDate] at behind
      push Not at behind
      rcases behind with ⟨row, onPage, less⟩
      have inTable := Database.mem_of_mem_getArticles onPage
      rw [shownIn_listArticles]
      refine ⟨_, List.mem_map_of_mem onPage, ?_, less⟩
      intro absent
      have same := (viewCount_le_bestViews tallied inTable).2 absent
      omega
  | getHotArticles limit =>
      rw [UpToDate] at behind
      push Not at behind
      rcases behind with ⟨row, listed, less⟩
      rcases tallied.counter_of_mem_rankedRows listed with
        ⟨inTable, number, present⟩
      have something : hotMembers world.redis limit ≠ [] := by
        have member := (mem_rankedRows listed).2
        exact List.ne_nil_of_mem member
      rw [shownIn_getHotArticles tallied narrow, hotArticles,
        if_pos something, List.map_map]
      refine ⟨_, List.mem_map_of_mem listed, ?_, ?_⟩
      · simp only [Function.comp_apply, withCounter, present]
        exact Option.some_ne_none number
      · simp only [Function.comp_apply, withCounter]
        rw [counted_of_some present] at less ⊢
        have both := max_counted_cases tallied inTable present
        exact lt_of_not_ge fun enough =>
          absurd (both.2.mpr enough) (not_le.mpr less)

/-! ## The invariant -/

/-- Where a run stands that has only shown that number so far. -/
structure Displayed (json : JsonLibrary) (initial : Database)
    (world : World) (shown : List (Int × Int)) : Prop where
  tallied : Tallied initial world
  atMost :
    ∀ pair ∈ shown, pair.2 ≤ bestViews initial world.redis pair.1
  /-- an article that is counted has been shown with that number -/
  seen :
    ∀ id, counter world.redis (decimal id) ≠ none →
      ∃ pair ∈ shown, pair.1 = id ∧
        bestViews initial world.redis id ≤ pair.2
  cached :
    ∀ id value, world.redis.get (articleCacheKey id) = some value →
      ∃ article, IsCopy initial id article ∧
        value = json.dump (detailResponse article) ∧
        article.viewCount = bestViews initial world.redis id
  ordered : NeverBack shown

section Steps

variable {json : JsonLibrary} {initial : Database} {world : World}
variable {shown : List (Int × Int)}

theorem displayed_initial
    (database : Database) (clock : Nat → Text) (accepts : Nat → Bool) :
    Displayed json database (.initial database clock accepts) [] where
  tallied := tallied_initial database clock accepts
  atMost := by
    intro pair member
    cases member
  seen := by
    intro id present
    exact absurd rfl present
  cached := by
    intro id value hit
    cases hit
  ordered := List.Pairwise.nil

theorem bestViews_congr
    {redis later : Redis} {id : Int}
    (same : counter later (decimal id) = counter redis (decimal id)) :
    bestViews initial later id = bestViews initial redis id := by
  rw [bestViews, bestViews, same]

/-- A step that moves no counter and caches nothing. -/
theorem Displayed.quiet
    (displayed : Displayed json initial world shown) {later : World}
    (tallied : Tallied initial later)
    (sameCounters :
      ∀ id, counter later.redis (decimal id) =
        counter world.redis (decimal id))
    (cachedBefore :
      ∀ id value, later.redis.get (articleCacheKey id) = some value →
        world.redis.get (articleCacheKey id) = some value) :
    Displayed json initial later shown where
  tallied := tallied
  atMost := by
    intro pair member
    rw [bestViews_congr (sameCounters pair.1)]
    exact displayed.atMost pair member
  seen := by
    intro id present
    rw [sameCounters id] at present
    rw [bestViews_congr (sameCounters id)]
    exact displayed.seen id present
  cached := by
    intro id value hit
    rw [bestViews_congr (sameCounters id)]
    exact displayed.cached id value (cachedBefore id value hit)
  ordered := displayed.ordered

/-- Showing that number keeps the order. -/
theorem Displayed.append
    (displayed : Displayed json initial world shown)
    {more : List (Int × Int)}
    (best :
      ∀ pair ∈ more, pair.2 = bestViews initial world.redis pair.1) :
    Displayed json initial world (shown ++ more) where
  tallied := displayed.tallied
  atMost := by
    intro pair member
    rcases List.mem_append.mp member with old | new
    · exact displayed.atMost pair old
    · exact Int.le_of_eq (best pair new)
  seen := by
    intro id present
    rcases displayed.seen id present with ⟨pair, member, isId, enough⟩
    exact ⟨pair, List.mem_append_left more member, isId, enough⟩
  cached := displayed.cached
  ordered := by
    rw [NeverBack, List.pairwise_append]
    refine ⟨displayed.ordered, ?_, ?_⟩
    · apply List.pairwise_of_forall_mem_list
      intro earlier first later second sameId
      rw [best earlier first, best later second, sameId]
    · intro earlier old later new sameId
      rw [best later new, ← sameId]
      exact displayed.atMost earlier old

/-- Showing less than what was shown breaks it. -/
theorem Displayed.not_neverBack
    (displayed : Displayed json initial world shown)
    {more : List (Int × Int)} {pair : Int × Int} (member : pair ∈ more)
    (present : counter world.redis (decimal pair.1) ≠ none)
    (less : pair.2 < bestViews initial world.redis pair.1) :
    ¬ NeverBack (shown ++ more) := by
  intro ordered
  rcases displayed.seen pair.1 present with
    ⟨earlier, old, sameId, enough⟩
  have atLeast :=
    (List.pairwise_append.mp ordered).2.2 earlier old pair member sameId
  omega

/-- What a visit shows, and what it leaves of that number. -/
theorem bestViews_visit
    (displayed : Displayed json initial world shown) {id : Int}
    {article : Article}
    (found : world.database.getArticleById id = some article)
    (narrow :
      CountersNarrow
        { world with redis := visit json article world.redis }) :
    counter (visit json article world.redis) (decimal id) =
        some (counted world.redis (decimal id) + 1) ∧
      max article.viewCount
          (toInt32
            (world.redis.incr (articleViewKey (decimal id))).1) =
        max article.viewCount (counted world.redis (decimal id) + 1) := by
  rcases Database.getArticleById_eq_some found with ⟨inTable, rfl⟩
  have bound := narrow article inTable
  have positive := nonnegative_counted displayed.tallied.ranked
    (decimal article.id)
  simp only [counted, counter_visit] at bound
  rcases displayed.tallied.ranked.counter_incr (decimal article.id) with
    ⟨-, reply, present⟩ | ⟨last, -, present⟩
  · rw [present, Option.getD_some] at bound
    have fits : IsInt (counted world.redis (decimal article.id) + 1) :=
      ⟨by omega, bound⟩
    rw [counter_visit, reply, toInt32_of_isInt fits]
    exact ⟨present, rfl⟩
  · rw [present, Option.getD_some] at bound
    omega

/-- A visit shows that number, unless column and counter lag behind. -/
theorem max_counted_visit
    (tallied : Tallied initial world) {article : Article}
    (inTable : article ∈ world.database.articles)
    (counts :
      counter (ArticleService.visit json article world.redis)
          (decimal article.id) =
        some (counted world.redis (decimal article.id) + 1))
    (upToDate :
      startViews initial article.id ≤
        max article.viewCount
          (counted world.redis (decimal article.id) + 1)) :
    max article.viewCount
        (counted world.redis (decimal article.id) + 1) =
      bestViews initial (ArticleService.visit json article world.redis)
        article.id := by
  have bound :=
    (tallied.columns article.id _ _ (storedViews_start tallied inTable)
      (storedViews_of_mem inTable)).1
  have best :
      bestViews initial (ArticleService.visit json article world.redis)
          article.id =
        max (startViews initial article.id)
          (counted world.redis (decimal article.id) + 1) := by
    rw [bestViews, counts]
  omega

/-- A visit moves no other counter. -/
theorem counter_visit_of_id_ne
    (json : JsonLibrary) {article : Article} (redis : Redis) {id : Int}
    (different : id ≠ article.id) :
    counter (ArticleService.visit json article redis) (decimal id) =
      counter redis (decimal id) :=
  counter_visit_of_ne json article fun equal =>
    different (decimal_injective equal)

/-- A visit does not lower that number. -/
theorem bestViews_le_visit
    {article : Article}
    (counts :
      counter (ArticleService.visit json article world.redis)
          (decimal article.id) =
        some (counted world.redis (decimal article.id) + 1))
    (id : Int) :
    bestViews initial world.redis id ≤
      bestViews initial (ArticleService.visit json article world.redis)
        id := by
  by_cases same : id = article.id
  · subst same
    rw [bestViews, bestViews, counts]
    cases present : counter world.redis (decimal article.id) with
    | none => exact le_max_left _ _
    | some number =>
        rw [counted_of_some present]
        exact max_le_max_left _ (Int.le_of_lt (Int.lt_succ number))
  · rw [bestViews_congr (counter_visit_of_id_ne json world.redis same)]

/-- A visit caches no other detail. -/
theorem get_visit_of_id_ne
    (json : JsonLibrary) {article : Article} (redis : Redis) {id : Int}
    (different : id ≠ article.id) :
    (ArticleService.visit json article redis).get (articleCacheKey id) =
      redis.get (articleCacheKey id) := by
  rw [Redis.get, Redis.get,
    entries_visit json article redis
      (articleCacheKey_ne_articleViewKey id _)
      (articleCacheKey_ne_hotKey id)
      fun equal => different (articleCacheKey_injective equal)]

/-- A visit that shows that number keeps the invariant. -/
theorem Displayed.visit
    (displayed : Displayed json initial world shown) {id : Int}
    {article : Article}
    (found : world.database.getArticleById id = some article)
    (copy : IsCopy initial id article)
    (narrow :
      CountersNarrow
        { world with redis := ArticleService.visit json article world.redis })
    (upToDate :
      startViews initial id ≤
        max article.viewCount (counted world.redis (decimal id) + 1)) :
    Displayed json initial
      { world with redis := ArticleService.visit json article world.redis }
      (shown ++
        [(id,
          max article.viewCount
            (counted world.redis (decimal id) + 1))]) := by
  rcases bestViews_visit displayed found narrow with ⟨counts, views⟩
  rcases Database.getArticleById_eq_some found with ⟨inTable, rfl⟩
  have others {other : Int} (different : other ≠ article.id) :
      bestViews initial (ArticleService.visit json article world.redis)
          other =
        bestViews initial world.redis other :=
    bestViews_congr (counter_visit_of_id_ne json world.redis different)
  have known : initial.getArticleById article.id ≠ none := by
    intro missing
    have same := copy.1
    rw [missing] at same
    cases same
  have now :=
    max_counted_visit displayed.tallied inTable counts upToDate
  have grows (other : Int) :
      bestViews initial world.redis other ≤
        bestViews initial (ArticleService.visit json article world.redis)
          other :=
    bestViews_le_visit counts other
  constructor
  · exact displayed.tallied.visit json
      (world.database.articlesFit article inTable).1 known
  · intro pair member
    rcases List.mem_append.mp member with old | new
    · exact (displayed.atMost pair old).trans (grows pair.1)
    · rw [List.mem_singleton.mp new]
      exact Int.le_of_eq now
  · intro other present
    by_cases same : other = article.id
    · subst same
      exact ⟨_, List.mem_append_right _ (List.mem_singleton_self _), rfl,
        Int.le_of_eq now.symm⟩
    · simp only [counter_visit_of_id_ne json world.redis same] at present
      rcases displayed.seen other present with
        ⟨pair, member, isOther, enough⟩
      refine ⟨pair, List.mem_append_left _ member, isOther, ?_⟩
      rw [others same]
      exact enough
  · intro other value hit
    by_cases same : other = article.id
    · subst same
      refine ⟨_, copy.withViews (isInt_max copy.2.2
        (isInt_toInt32 (world.redis.incr
          (articleViewKey (decimal article.id))).1)), ?_,
        views.trans now⟩
      simp only [ArticleService.visit, Redis.get, Redis.set,
        Redis.entries_put_self, Option.some.injEq] at hit
      exact hit.symm
    · rw [others same]
      apply displayed.cached other value
      rw [← get_visit_of_id_ne json world.redis same]
      exact hit
  · rw [NeverBack, List.pairwise_append]
    refine ⟨displayed.ordered, List.pairwise_singleton _ _, ?_⟩
    intro earlier old later new sameId
    rw [List.mem_singleton.mp new] at sameId ⊢
    simp only at sameId
    rw [now, ← sameId]
    exact (displayed.atMost earlier old).trans (grows earlier.1)

/-- An event that is no detail moves no counter. -/
theorem counter_step_of_noDetail
    (ranked : Ranked world.redis) (json : JsonLibrary) {event : Event}
    (noDetail : ∀ id, event ≠ .request (.getArticleDetail id))
    (id : Int) :
    counter (Service.step json world event).redis (decimal id) =
      counter world.redis (decimal id) := by
  apply counter_step ranked json
  cases opens : event.opens id with
  | false => rfl
  | true => exact absurd (eq_of_opens opens) (noDetail id)

/-- An event that is no detail moves no counter and caches nothing. -/
theorem Displayed.other
    (displayed : Displayed json initial world shown) {event : Event}
    (noDetail : ∀ id, event ≠ .request (.getArticleDetail id)) :
    Displayed json initial (step json world event) shown := by
  apply displayed.quiet
  · exact displayed.tallied.step json event
  · exact counter_step_of_noDetail displayed.tallied.ranked json noDetail
  · intro id value hit
    cases event with
    | timeOut key =>
        rcases world.redis.entries_timeOut key (articleCacheKey id) with
          same | ⟨gone, -⟩
        · rwa [step, World.timeOut, Redis.get, same] at hit
        · rw [step, World.timeOut, Redis.get, gone] at hit
          cases hit
    | request request =>
        have spares : (requestCode json request).Asks SparesCache :=
          requestCode_sparesCache json
            fun id equal => noDetail id (equal ▸ rfl)
        rw [step, serve_eq, Redis.get,
          entries_run_of_sparesCache spares] at hit
        exact hit

/-- A step that shows that number keeps the invariant. -/
theorem Displayed.step
    (displayed : Displayed json initial world shown) {event : Event}
    (before : CountersNarrow world)
    (after : CountersNarrow (Service.step json world event))
    (upToDate : UpToDate initial world event) :
    Displayed json initial (Service.step json world event)
      (shown ++ shownIn (answersTo json world event)) := by
  by_cases detail : ∃ id, event = .request (.getArticleDetail id)
  · rcases detail with ⟨id, rfl⟩
    rw [Service.step, serve] at after ⊢
    cases hit : world.redis.get (articleCacheKey id) with
    | some value =>
        rcases displayed.cached id value hit with
          ⟨article, copy, rfl, best⟩
        have answered :
            (getArticleDetail json id).run exec world = _ :=
          run_getArticleDetail_hit json hit
        rw [parseOrThrow_dump copy] at answered
        rw [shownIn_of_detailResponse answered, answered]
        apply displayed.append
        intro pair member
        rw [List.mem_singleton.mp member]
        simp only [copy.id_eq, best]
    | none =>
        cases found : world.database.getArticleById id with
        | none =>
            have answered := run_getArticleDetail_absent json hit found
            rw [shownIn_of_absent answered, answered, List.append_nil]
            exact displayed
        | some article =>
            have answered := run_getArticleDetail_miss json hit found
            have sameId := (Database.getArticleById_eq_some found).2
            rw [answered] at after
            rw [shownIn_of_detailResponse answered, answered]
            simp only [(bestViews_visit displayed found after).2, sameId]
            exact displayed.visit found
              (isCopy_of_found displayed.tallied.rows found) after
              (upToDate hit article (Option.mem_def.mpr found))
  · have noDetail := not_exists.mp detail
    have later := displayed.other noDetail
    apply later.append
    cases event with
    | timeOut key =>
        intro pair member
        cases member
    | request request =>
        intro pair member
        have best := shownIn_best displayed.tallied before
          (fun id equal => noDetail id (equal ▸ rfl)) upToDate pair member
        rw [best]
        exact (bestViews_congr
          (counter_step_of_noDetail displayed.tallied.ranked json
            noDetail pair.1)).symm

/-- A step that shows less goes back. -/
theorem Displayed.step_back
    (displayed : Displayed json initial world shown) {event : Event}
    (before : CountersNarrow world)
    (after : CountersNarrow (Service.step json world event))
    (behind : ¬ UpToDate initial world event) :
    ¬ NeverBack (shown ++ shownIn (answersTo json world event)) := by
  cases event with
  | timeOut key => exact absurd trivial behind
  | request request =>
      by_cases detail : ∃ id, request = .getArticleDetail id
      · rcases detail with ⟨id, rfl⟩
        rw [UpToDate] at behind
        push Not at behind
        rcases behind with ⟨miss, article, isRow, less⟩
        have found := Option.mem_def.mp isRow
        have answered := run_getArticleDetail_miss json miss found
        rw [Service.step, serve, answered] at after
        rcases Database.getArticleById_eq_some found with ⟨inTable, rfl⟩
        apply displayed.not_neverBack
        · rw [shownIn_of_detailResponse answered]
          exact List.mem_singleton_self _
        · intro absent
          have column :=
            displayed.tallied.columns article.id _ _
              (storedViews_start displayed.tallied inTable)
              (storedViews_of_mem inTable)
          have same := column.2 absent
          omega
        · simp only [(bestViews_visit displayed found after).2]
          exact lt_of_lt_of_le less (startViews_le_bestViews _ _ _)
      · have noDetail := not_exists.mp detail
        rcases shownIn_behind displayed.tallied before noDetail behind with
          ⟨pair, member, present, less⟩
        exact displayed.not_neverBack member present less

end Steps

/-! ## Whole runs -/

section Runs

variable (json : JsonLibrary) (database : Database) (clock : Nat → Text)
variable (accepts : Nat → Bool)

/-- The counters are below 2^31 in every state of the run. -/
def NarrowRun (events : List Event) : Prop :=
  ∀ before ∈ events.inits,
    CountersNarrow (runFrom json database clock accepts before)

instance (events : List Event) :
    Decidable (NarrowRun json database clock accepts events) :=
  inferInstanceAs (Decidable (∀ before ∈ events.inits, _))

variable {json database clock accepts}

theorem NarrowRun.concat
    {events : List Event} {event : Event}
    (narrow :
      NarrowRun json database clock accepts (events ++ [event])) :
    NarrowRun json database clock accepts events ∧
      CountersNarrow (runFrom json database clock accepts events) ∧
      CountersNarrow
        (step json (runFrom json database clock accepts events)
          event) := by
  have shorter {before : List Event} (isPrefix : before <+: events) :
      CountersNarrow (runFrom json database clock accepts before) := by
    apply narrow before
    rw [List.mem_inits]
    exact isPrefix.trans (List.prefix_append events [event])
  refine ⟨?_, shorter (List.prefix_refl events), ?_⟩
  · intro before member
    exact shorter ((List.mem_inits before events).mp member)
  · rw [← runFrom_concat]
    apply narrow
    rw [List.mem_inits]

theorem shownIn_answers_concat (events : List Event) (event : Event) :
    shownIn (answers json database clock accepts (events ++ [event])) =
      shownIn (answers json database clock accepts events) ++
        shownIn
          (answersTo json (runFrom json database clock accepts events)
            event) := by
  rw [answers_concat, shownIn, List.flatMap_append]
  rfl

/-- A run whose responses are up to date shows only that number. -/
theorem displayed_runFrom
    {events : List Event}
    (narrow : NarrowRun json database clock accepts events)
    (upToDate :
      Along (step json) (UpToDate database)
        (.initial database clock accepts) events) :
    Displayed json database (runFrom json database clock accepts events)
      (shownIn (answers json database clock accepts events)) := by
  induction events using List.reverseRecOn with
  | nil => exact displayed_initial database clock accepts
  | append_singleton rest event induction =>
      rcases narrow.concat with ⟨earlier, before, after⟩
      rw [along_append, along_cons] at upToDate
      rcases upToDate with ⟨first, here, -⟩
      rw [runFrom_concat, shownIn_answers_concat]
      exact (induction earlier first).step before after here

/--
In a run with counters below 2^31, no article is shown with fewer views than
before if and only if every response is up to date.
-/
theorem neverBack_iff
    {events : List Event}
    (narrow : NarrowRun json database clock accepts events) :
    NeverBack (shownIn (answers json database clock accepts events)) ↔
      Along (step json) (UpToDate database)
        (.initial database clock accepts) events := by
  constructor
  · intro ordered
    induction events using List.reverseRecOn with
    | nil => trivial
    | append_singleton rest event induction =>
        rcases narrow.concat with ⟨earlier, before, after⟩
        rw [shownIn_answers_concat] at ordered
        have first := induction earlier
          (ordered.sublist (List.sublist_append_left _ _))
        rw [along_append, along_cons]
        refine ⟨first, ?_, trivial⟩
        by_contra behind
        exact (displayed_runFrom earlier first).step_back before after
          behind ordered
  · intro upToDate
    exact (displayed_runFrom narrow upToDate).ordered

end Runs

/-! ## Two runs -/

/-- An article without views is opened, synchronised and listed. -/
theorem neverBack_of_sync :
    NeverBack
      (shownIn
        (answers Json.compactLibrary twoArticles (fun _ => [])
          (fun _ => true)
          [.request (.getArticleDetail 2), .request .syncViewCounts,
            .request (.listArticles 1 10),
            .request (.getHotArticles 10)])) :=
  (neverBack_iff (by decide +kernel)).mpr (by decide +kernel)

/-- The same article, listed before it is synchronised. -/
theorem not_neverBack_of_list :
    ¬ NeverBack
      (shownIn
        (answers Json.compactLibrary twoArticles (fun _ => [])
          (fun _ => true)
          [.request (.getArticleDetail 2),
            .request (.listArticles 1 10)])) := by
  decide +kernel

end LightningServer.Service
