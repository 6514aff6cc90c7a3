import LightningServer.Service.ForumThreads
import LightningServer.Service.HotRanking
import Mathlib.Data.Int.Interval

/-!
# The documents that the services answer

Every answer of a service is a JSON object that the library can hold, with
an integer `code`.  Ids are distinct `int` values, so the tables have fewer
rows than 2^64 and their counts can be held too; a cached detail is read back
as the document that was stored; a cached comment is read back as its row.
-/

namespace LightningServer.Service

open LightningServer.Foundation
open LightningServer.Foundation.Numerals
open LightningServer.Store
open LightningServer.Service.ArticleService
open LightningServer.Service.CommentService

/-! ## Documents with a code -/

/-- The library can hold the document, and it has this code. -/
structure HasCode (code : Int) (document : Json) : Prop where
  canonical : document.Canonical
  field : document.field? (text "code") = some (.number code)

/-- The number can be held in 64 bits. -/
def IsCount (number : Int) : Prop :=
  0 ≤ number ∧ number < 2 ^ 64

theorem canonical_count {number : Int} (isCount : IsCount number) :
    (Json.number number).Canonical := by
  rcases isCount with ⟨low, high⟩
  constructor
  · omega
  · omega

theorem canonicalItems
    {items : List Json} (each : ∀ item ∈ items, item.Canonical) :
    Json.CanonicalItems items := by
  induction items with
  | nil => trivial
  | cons item rest induction =>
      exact ⟨each item List.mem_cons_self, induction fun other member =>
        each other (List.mem_cons_of_mem item member)⟩

/-! ## Counts -/

/-- There are not more distinct `int` values than 2^32. -/
theorem length_le_of_isInt
    {numbers : List Int} (distinct : numbers.Nodup)
    (fit : ∀ number ∈ numbers, IsInt number) :
    numbers.length ≤ 2 ^ 32 := by
  have range :
      numbers.toFinset ⊆ Finset.Ico (-2 ^ 31 : Int) (2 ^ 31) := by
    intro number member
    have bounds := fit number (List.mem_toFinset.mp member)
    rw [Finset.mem_Ico]
    exact bounds
  have size := Finset.card_le_card range
  rw [List.toFinset_card_of_nodup distinct, Int.card_Ico] at size
  exact size

theorem isCount_articles (database : Database) :
    IsCount database.articles.length := by
  have bound :=
    length_le_of_isInt database.articleIds fun id member => by
      rcases List.mem_map.mp member with ⟨article, inTable, rfl⟩
      exact (database.articlesFit article inTable).1
  rw [List.length_map] at bound
  constructor
  · omega
  · omega

theorem isCount_getCommentCount (database : Database) (articleId : Int) :
    IsCount (database.getCommentCount articleId) := by
  have bound :=
    length_le_of_isInt database.commentIds fun id member => by
      rcases List.mem_map.mp member with ⟨comment, inTable, rfl⟩
      exact (database.commentsFit comment inTable).1
  rw [List.length_map] at bound
  have filtered :=
    List.length_filter_le
      (fun comment : Comment => comment.articleId = articleId)
      database.comments
  rw [Database.getCommentCount]
  constructor
  · omega
  · omega

/-! ## The documents -/

theorem hasCode_failure
    {code : Int} (fits : IsInt code) (message : Text) :
    HasCode code (failure code message) where
  canonical :=
    ⟨show [text "code", text "message"].Pairwise
        (fun left right => left < right) by decide,
      canonical_number fits, trivial, trivial⟩
  field := rfl

theorem hasCode_detailResponse
    {article : Article}
    (fits : IsInt article.id ∧ IsInt article.viewCount) :
    HasCode 0 (detailResponse article) where
  canonical := canonical_detailResponse fits
  field := rfl

theorem canonical_listItem
    {article : Article}
    (fits : IsInt article.id ∧ IsInt article.viewCount) :
    (listItem article).Canonical :=
  ⟨show [text "author", text "createTime", text "id", text "title",
        text "updateTime", text "viewCount"].Pairwise
      (fun left right => left < right) by decide,
    trivial, trivial, canonical_number fits.1, trivial, trivial,
    canonical_number fits.2, trivial⟩

theorem canonicalItems_listItem
    {articles : List Article}
    (fit : ∀ article ∈ articles,
      IsInt article.id ∧ IsInt article.viewCount) :
    Json.CanonicalItems (articles.map listItem) := by
  apply canonicalItems
  intro item member
  rcases List.mem_map.mp member with ⟨article, listed, rfl⟩
  exact canonical_listItem (fit article listed)

theorem hasCode_hotResponse
    {list : List Json} (canonical : Json.CanonicalItems list) :
    HasCode 0 (hotResponse list) where
  canonical :=
    ⟨show [text "code", text "data"].Pairwise
        (fun left right => left < right) by decide,
      canonical_number (by decide), canonical, trivial⟩
  field := rfl

theorem hasCode_commentsResponse
    {list : List Json} {total : Int}
    (canonical : Json.CanonicalItems list) (isCount : IsCount total) :
    HasCode 0 (commentsResponse list total) where
  canonical :=
    ⟨show [text "code", text "data"].Pairwise
        (fun left right => left < right) by decide,
      canonical_number (by decide),
      ⟨show [text "list", text "total"].Pairwise
          (fun left right => left < right) by decide,
        canonical, canonical_count isCount, trivial⟩,
      trivial⟩
  field := rfl

theorem hasCode_commentCreated
    {comment : Comment}
    (fits : IsInt comment.id ∧ IsInt comment.articleId) :
    HasCode 0 (commentCreated comment) where
  canonical :=
    ⟨show [text "code", text "data", text "message"].Pairwise
        (fun left right => left < right) by decide,
      canonical_number (by decide), canonical_commentToJson fits,
      trivial, trivial⟩
  field := rfl

/-! ## What the services answer -/

section Answers

variable (json : JsonLibrary) {initial : Database} {world : World}

theorem run_listArticles
    {page pageSize : Int} (pageFits : IsInt page)
    (pageSizeFits : IsInt pageSize) :
    ∃ document,
      (listArticles page pageSize).run exec world = (.ok document, world) ∧
        HasCode 0 document := by
  refine ⟨_, rfl, ?_, rfl⟩
  have shownPage : IsInt (if page < 1 then 1 else page) := by
    split
    · decide
    · exact pageFits
  have shownSize :
      IsInt (if pageSize < 1 ∨ 50 < pageSize then 10 else pageSize) := by
    split
    · decide
    · exact pageSizeFits
  have total (page pageSize : Int) :
      (world.database.getArticles page pageSize).2 =
        world.database.articles.length := by
    rw [Database.getArticles]
    split
    · rfl
    · rfl
  refine ⟨show [text "code", text "data"].Pairwise
      (fun left right => left < right) by decide,
    canonical_number (by decide), ⟨?_, ?_, ?_, ?_, ?_, trivial⟩, trivial⟩
  · show [text "list", text "page", text "pageSize", text "total"].Pairwise
      (fun left right => left < right)
    decide
  · exact canonicalItems_listItem fun article listed =>
      world.database.articlesFit article
        (Database.mem_of_mem_getArticles listed)
  · exact canonical_number shownPage
  · exact canonical_number shownSize
  · apply canonical_count
    show IsCount (world.database.getArticles _ _).2
    rw [total]
    exact isCount_articles world.database

/-- A detail is code 0, or code 404. -/
theorem run_getArticleDetail
    (caches : CachesCopies json initial world) (id : Int) :
    ∃ code document later,
      (getArticleDetail json id).run exec world = (.ok document, later) ∧
        HasCode code document ∧ (code = 0 ∨ code = 404) := by
  cases cached : world.redis.get (articleCacheKey id) with
  | some value =>
      -- the stored document is one that was answered before
      rcases caches.parse_cached cached with ⟨article, copy, -, parsed⟩
      refine ⟨0, detailResponse article, world, ?_,
        hasCode_detailResponse copy.2, Or.inl rfl⟩
      rw [run_getArticleDetail_hit json cached, parsed]
  | none =>
      cases found : world.database.getArticleById id with
      | none =>
          exact ⟨404, _, _, run_getArticleDetail_absent json cached found,
            hasCode_failure (by decide) _, Or.inr rfl⟩
      | some article =>
          have fits := world.database.articlesFit article
            (Database.getArticleById_eq_some found).1
          exact ⟨0, _, _, run_getArticleDetail_miss json cached found,
            hasCode_detailResponse
              ⟨fits.1, isInt_max fits.2 (isInt_toInt32 _)⟩,
            Or.inl rfl⟩

theorem isInt_withCounter
    {redis : Redis} {article : Article}
    (fits : IsInt article.id ∧ IsInt article.viewCount)
    (counterFits : CounterFits redis (decimal article.id)) :
    IsInt (withCounter redis article).id ∧
      IsInt (withCounter redis article).viewCount := by
  refine ⟨fits.1, isInt_max fits.2 ?_⟩
  rw [counted]
  cases present : counter redis (decimal article.id) with
  | none => decide
  | some number => exact counterFits number present

/-- The hot list is code 0, unless a counter is too wide. -/
theorem run_getHotArticles_document
    (tallied : Tallied initial world) {limit : Int}
    (fits : HotCountersFit world.redis limit) :
    ∃ document,
      (getHotArticles limit).run exec world = (.ok document, world) ∧
        HasCode 0 document := by
  have run := run_getHotArticles tallied limit
  rw [if_pos fits] at run
  refine ⟨_, run, hasCode_hotResponse (canonicalItems_listItem ?_)⟩
  intro article listed
  rw [hotArticles] at listed
  split at listed
  · rcases List.mem_map.mp listed with ⟨row, ranked, rfl⟩
    rcases List.mem_filterMap.mp ranked with ⟨idStr, member, isRow⟩
    have inTable := List.mem_of_find?_eq_some isRow
    have same : decimal row.id = idStr := by
      simpa using List.find?_some isRow
    apply isInt_withCounter (world.database.articlesFit row inTable)
    rw [same]
    exact fits idStr member
  · exact world.database.articlesFit article
      (mem_orderBy.mp (List.mem_of_mem_take listed))

theorem canonicalItems_commentToJson
    (database : Database) {comments : List Comment}
    (rows : ∀ comment ∈ comments, comment ∈ database.comments) :
    Json.CanonicalItems (comments.map commentToJson) := by
  apply canonicalItems
  intro item member
  rcases List.mem_map.mp member with ⟨comment, listed, rfl⟩
  exact canonical_commentToJson
    (database.commentsFit comment (rows comment listed))

/-- The comments are code 0, from Redis as from the database. -/
theorem run_getComments
    {articleId : Int} (shape : CacheShape json world articleId)
    (limit : Int) :
    ∃ document later,
      (getComments json articleId limit).run exec world =
          (.ok document, later) ∧
        HasCode 0 document := by
  have isCount := isCount_getCommentCount world.database articleId
  rcases shape with absent | ⟨count, holds⟩
  · refine ⟨_, _, run_getComments_miss json
        (cachedItems_of_absent json absent limit),
      hasCode_commentsResponse
        (canonicalItems_commentToJson world.database
          fun comment listed => ?_) isCount⟩
    exact (Database.mem_commentsOf.mp (List.mem_of_mem_take listed)).1
  · refine ⟨_, _, run_getComments_hit json
        (cachedItems_nonempty json holds limit),
      hasCode_commentsResponse ?_ isCount⟩
    rw [cachedItems_of_holdsReversed json holds]
    refine canonicalItems_commentToJson world.database
      fun comment listed => ?_
    exact (Database.mem_commentsOf.mp (List.mem_of_mem_take
      (List.mem_reverse.mp (List.mem_of_mem_take listed)))).1

end Answers

end LightningServer.Service
