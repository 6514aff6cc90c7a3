import LightningServer.Foundation.Guarantee
import LightningServer.Service.CommentCache

/-!
# What the article cache holds

Whatever the threads do, each entry `article:info:{id}` is the text of a
detail response for the row `id`: its title, content, author and creation
time are those of the row, and only the view count and the update time may be
old.  Only `getArticleDetail` writes such a key, and only its own.
-/

namespace LightningServer.Service

open LightningServer.Foundation
open LightningServer.Foundation.Numerals
open LightningServer.Store
open LightningServer.Service.CommentService

namespace ArticleService

/-! ## The response -/

theorem articleToJson_eq (article : Article) :
    articleToJson article =
      .object
        [(text "author", .string article.author),
          (text "content", .string article.content),
          (text "createTime", .string article.createTime),
          (text "id", .number article.id),
          (text "title", .string article.title),
          (text "updateTime", .string article.updateTime),
          (text "viewCount", .number article.viewCount)] := by
  rfl

theorem detailResponse_eq (article : Article) :
    detailResponse article =
      .object
        [(text "code", .number 0),
          (text "data", articleToJson article)] := by
  rfl

theorem canonical_articleToJson
    {article : Article}
    (fits : IsInt article.id ∧ IsInt article.viewCount) :
    (articleToJson article).Canonical := by
  have sorted :
      [text "author", text "content", text "createTime", text "id",
          text "title", text "updateTime", text "viewCount"].Pairwise
        (fun left right => left < right) := by
    decide
  rw [articleToJson_eq]
  exact ⟨sorted, trivial, trivial, trivial, canonical_number fits.1,
    trivial, trivial, canonical_number fits.2, trivial⟩

theorem canonical_detailResponse
    {article : Article}
    (fits : IsInt article.id ∧ IsInt article.viewCount) :
    (detailResponse article).Canonical := by
  have sorted :
      [text "code", text "data"].Pairwise
        (fun left right => left < right) := by
    decide
  rw [detailResponse_eq]
  exact ⟨sorted, canonical_number (by decide),
    canonical_articleToJson fits, trivial⟩

theorem detailResponse_injective : Function.Injective detailResponse := by
  intro left right equal
  rw [detailResponse_eq, detailResponse_eq, articleToJson_eq,
    articleToJson_eq] at equal
  simp only [Json.object.injEq, List.cons.injEq, Prod.mk.injEq,
    Json.number.injEq, Json.string.injEq, true_and, and_true] at equal
  rcases equal with
    ⟨author, content, createTime, id, title, updateTime, viewCount⟩
  exact Article.ext id title content author createTime updateTime
    viewCount

theorem isInt_toInt32 (number : Int) : IsInt (toInt32 number) := by
  unfold toInt32
  constructor
  · omega
  · omega

theorem isInt_max
    {left right : Int} (leftFits : IsInt left) (rightFits : IsInt right) :
    IsInt (max left right) := by
  rcases max_choice left right with isLeft | isRight
  · rw [isLeft]
    exact leftFits
  · rw [isRight]
    exact rightFits

/-! ## The invariant -/

/-- A copy of the row with this id: only the two changing columns differ. -/
def IsCopy (initial : Database) (id : Int) (article : Article) : Prop :=
  (initial.getArticleById id).map Article.fixed = some article.fixed ∧
    IsInt article.id ∧ IsInt article.viewCount

theorem IsCopy.id_eq
    {initial : Database} {id : Int} {article : Article}
    (copy : IsCopy initial id article) :
    article.id = id := by
  rcases Option.map_eq_some_iff.mp copy.1 with ⟨row, found, same⟩
  have sameId : row.fixed.id = article.fixed.id := by rw [same]
  exact sameId.symm.trans (Database.getArticleById_eq_some found).2

variable (json : JsonLibrary)

/-- The rows are those of the start, and so is what is cached of them. -/
structure CachesCopies (initial : Database) (world : World) : Prop where
  rows :
    world.database.articles.map Article.fixed =
      initial.articles.map Article.fixed
  cached :
    ∀ id entry, world.redis.entries (articleCacheKey id) = some entry →
      ∃ article, IsCopy initial id article ∧
        entry.value = .string (json.dump (detailResponse article))

theorem cachesCopies_initial
    (database : Database) (clock : Nat → Text) (accepts : Nat → Bool) :
    CachesCopies json database (.initial database clock accepts) where
  rows := rfl
  cached := by
    intro id entry found
    cases found

variable {json} {initial : Database} {world : World}

/-- A row that is found is a copy of the row at the start. -/
theorem isCopy_of_found
    (rows :
      world.database.articles.map Article.fixed =
        initial.articles.map Article.fixed)
    {id : Int} {article : Article}
    (found : world.database.getArticleById id = some article) :
    IsCopy initial id article := by
  have fits := world.database.articlesFit article
    (Database.getArticleById_eq_some found).1
  have same := Database.getArticleById_fixed rows id
  rw [found] at same
  exact ⟨same.symm, fits⟩

theorem CachesCopies.absent
    (caches : CachesCopies json initial world) {id : Int}
    (missing : world.database.getArticleById id = none) :
    initial.getArticleById id = none := by
  have same := Database.getArticleById_fixed caches.rows id
  rw [missing] at same
  exact Option.map_eq_none_iff.mp same.symm

theorem parseOrThrow_dump
    {id : Int} {article : Article} (copy : IsCopy initial id article) :
    parseOrThrow json (json.dump (detailResponse article)) =
      .ok (detailResponse article) := by
  rw [parseOrThrow, json.parse_dump _ (canonical_detailResponse copy.2)]

/-- A cached text is read back as the response with a copy. -/
theorem CachesCopies.parse_cached
    (caches : CachesCopies json initial world) {id : Int} {value : Text}
    (hit : world.redis.get (articleCacheKey id) = some value) :
    ∃ article, IsCopy initial id article ∧
      value = json.dump (detailResponse article) ∧
      parseOrThrow json value = .ok (detailResponse article) := by
  cases present : world.redis.entries (articleCacheKey id) with
  | none => simp [Redis.get, present] at hit
  | some entry =>
      rcases caches.cached id entry present with ⟨article, copy, holds⟩
      rcases entry with ⟨content, volatile⟩
      simp only at holds
      subst holds
      simp only [Redis.get, present, Option.some.injEq] at hit
      subst hit
      exact ⟨article, copy, rfl, parseOrThrow_dump copy⟩

/-! ## Calls that do not write the cache -/

/-- The call writes no cached detail. -/
def SparesCache (call : Call) : Prop :=
  ∀ written ∈ call.writes, ∀ id, articleCacheKey id ≠ written

theorem entries_exec_of_sparesCache
    {call : Call} (spares : SparesCache call) (world : World) (id : Int) :
    (Store.exec call world).2.redis.entries (articleCacheKey id) =
      world.redis.entries (articleCacheKey id) := by
  cases written : call.writes with
  | none => rw [redis_exec written world]
  | some key =>
      have only : call.WritesOnly key := by
        intro other isOther
        rw [written] at isOther
        exact (Option.mem_some_iff.mp isOther).symm
      exact entries_exec only (spares key written id) world

theorem entries_run_of_sparesCache
    {Value : Type} {program : Service Value}
    (spares : program.Asks SparesCache) (world : World) (id : Int) :
    (program.run Store.exec world).2.redis.entries (articleCacheKey id) =
      world.redis.entries (articleCacheKey id) :=
  Program.run_invariant spares
    (fun later =>
      later.redis.entries (articleCacheKey id) =
        world.redis.entries (articleCacheKey id))
    (fun _ later spared same =>
      (entries_exec_of_sparesCache spared later id).trans same)
    rfl

theorem CachesCopies.exec
    (caches : CachesCopies json initial world) {call : Call}
    (spares : SparesCache call) :
    CachesCopies json initial (Store.exec call world).2 where
  rows := (fixed_exec call world).trans caches.rows
  cached := by
    intro id entry found
    apply caches.cached id entry
    rw [← entries_exec_of_sparesCache spares world id]
    exact found

theorem CachesCopies.set
    (caches : CachesCopies json initial world) {id : Int}
    {article : Article} (copy : IsCopy initial id article)
    (ttlSec : Int) :
    CachesCopies json initial
      (Store.exec (.set (articleCacheKey id)
        (json.dump (detailResponse article)) ttlSec) world).2 where
  rows := (fixed_exec _ world).trans caches.rows
  cached := by
    intro other entry found
    by_cases same : articleCacheKey other = articleCacheKey id
    · have sameId : other = id := articleCacheKey_injective same
      subst sameId
      simp only [Store.exec, World.onRedis, Redis.set,
        Redis.entries_put_self, Option.some.injEq] at found
      subst found
      exact ⟨article, copy, rfl⟩
    · apply caches.cached other entry
      rw [← found]
      exact (Redis.entries_set_of_ne _ _ _ same).symm

theorem CachesCopies.timeOut
    (caches : CachesCopies json initial world) (key : Text) :
    CachesCopies json initial (world.timeOut key) where
  rows := caches.rows
  cached := by
    intro id entry found
    rcases world.redis.entries_timeOut key (articleCacheKey id) with
      same | ⟨gone, -⟩
    · exact caches.cached id entry (same ▸ found)
    · rw [World.timeOut, gone] at found
      cases found

/-! ## What the requests ensure -/

/--
The outcome of a detail: code 0 with this row, where only the update time and
the view count are left open, or code 404 when there is no row.
-/
def ShowsRow (found : Option Article)
    (outcome : Except StdException Json) : Prop :=
  (∃ row updateTime viewCount,
    found = some row ∧
      outcome = .ok (detailResponse
        { row with updateTime := updateTime, viewCount := viewCount })) ∨
    found = none ∧ outcome = .ok (failure 404 (text "Article not found"))

theorem not_showsRow_error
    (found : Option Article) (exception : StdException) :
    ¬ ShowsRow found (.error exception) := by
  rintro (⟨row, updateTime, viewCount, -, impossible⟩ | ⟨-, impossible⟩)
  · cases impossible
  · cases impossible

/-- What shows a received row shows the row if and only if none is cut. -/
theorem ShowsRow.of_received_iff
    {found : Option Article} {response : Json}
    (shows : ShowsRow (found.map Article.received) (.ok response)) :
    ShowsRow found (.ok response) ↔ ∀ row ∈ found, row.Plain := by
  cases found with
  | none => exact iff_of_true shows (by simp)
  | some row =>
      rcases shows with
        ⟨_, updateTime, viewCount, ⟨⟩, isResponse⟩ | ⟨impossible, -⟩
      · simp only [Option.mem_def, Option.some.injEq, forall_eq',
          ← Article.received_eq_self_iff]
        constructor
        · rintro (⟨_, updateTime', viewCount', ⟨⟩, same⟩ | ⟨impossible, -⟩)
          · rw [isResponse, Except.ok.injEq] at same
            have equal := detailResponse_injective same
            rw [Article.mk.injEq] at equal
            rcases equal with ⟨-, title, content, author, -⟩
            exact Article.ext rfl title content author rfl rfl rfl
          · cases impossible
        · intro whole
          rw [isResponse, whole]
          exact Or.inl ⟨row, updateTime, viewCount, rfl, rfl⟩
      · cases impossible

theorem IsCopy.showsRow
    {id : Int} {article : Article} (copy : IsCopy initial id article) :
    ShowsRow (initial.getArticleById id)
      (.ok (detailResponse article)) := by
  rcases Option.map_eq_some_iff.mp copy.1 with ⟨row, found, same⟩
  left
  refine ⟨row, article.updateTime, article.viewCount, found, ?_⟩
  rcases row with
    ⟨id, title, content, author, createTime, updateTime, viewCount⟩
  rcases article with
    ⟨id', title', content', author', createTime', updateTime', viewCount'⟩
  simp only [Article.fixed, Article.mk.injEq, and_true] at same
  rcases same with ⟨rfl, rfl, rfl, rfl, rfl⟩
  rfl

/-- A copy keeps being one when its view count is replaced. -/
theorem IsCopy.withViews
    {id : Int} {article : Article} (copy : IsCopy initial id article)
    {viewCount : Int} (fits : IsInt viewCount) :
    IsCopy initial id { article with viewCount := viewCount } :=
  ⟨copy.1, copy.2.1, fits⟩

theorem sparesCache_of_noKey {call : Call} (noKey : call.writes = none) :
    SparesCache call := by
  intro written isWritten
  rw [noKey] at isWritten
  cases isWritten

theorem sparesCache_incr (idStr : Text) :
    SparesCache (.incr (articleViewKey idStr)) := by
  rintro written isWritten id
  rw [← Option.mem_some_iff.mp isWritten]
  exact articleCacheKey_ne_articleViewKey id idStr

theorem sparesCache_zadd (score : Int) (member : Text) :
    SparesCache (.zadd hotKey score member) := by
  rintro written isWritten id
  rw [← Option.mem_some_iff.mp isWritten]
  exact articleCacheKey_ne_hotKey id

variable (json initial)

/-- A detail caches a copy of its own row, and answers with one. -/
theorem getArticleDetail_ensures (id : Int) :
    (getArticleDetail json id).Ensures exec (CachesCopies json initial)
      (ShowsRow (initial.getArticleById id)) := by
  refine Program.ensures_perform_bind fun world caches => ⟨?_, ?_⟩
  · exact caches.exec (sparesCache_of_noKey rfl)
  cases hit : world.redis.get (articleCacheKey id) with
  | some value =>
      rcases caches.parse_cached hit with ⟨article, copy, -, parsed⟩
      simp only [Store.exec, hit]
      rw [Program.ensures_ofExcept_iff, parsed]
      exact copy.showsRow
  | none =>
      simp only [Store.exec, hit]
      refine Program.ensures_perform_bind fun world caches => ⟨?_, ?_⟩
      · exact caches.exec (sparesCache_of_noKey rfl)
      cases found : world.database.getArticleById id with
      | none =>
          simp only [Store.exec, found]
          exact Or.inr ⟨caches.absent found, rfl⟩
      | some article =>
          have row := isCopy_of_found caches.rows found
          simp only [Store.exec, found]
          refine Program.ensures_perform_bind fun world caches => ⟨?_, ?_⟩
          · exact caches.exec (sparesCache_incr _)
          have copy :=
            row.withViews (isInt_max row.2.2 (isInt_toInt32
              (Store.exec (.incr (articleViewKey (decimal id))) world).1))
          refine Program.ensures_perform_bind fun world caches => ⟨?_, ?_⟩
          · exact caches.exec (sparesCache_zadd _ _)
          refine Program.ensures_perform_bind fun world caches => ⟨?_, ?_⟩
          · exact caches.set copy 3600
          exact copy.showsRow

/-- At most five calls: two reads, and three writes after a miss. -/
theorem getArticleDetail_within (id : Int) :
    (getArticleDetail json id).Within 5 := by
  intro cached
  cases cached with
  | some value => exact Program.within_ofExcept _ 4
  | none =>
      intro found
      cases found with
      | none => trivial
      | some article =>
          intro views added stored
          trivial

end ArticleService

end LightningServer.Service
