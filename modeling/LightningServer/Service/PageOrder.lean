import LightningServer.Service.ArticlePages
import LightningServer.Service.HotRanking

/-!
# Pages of the table

Each page of the MySQL build is a query of its own, `ORDER BY create_time
DESC` with a `LIMIT` and an `OFFSET`.  Where several articles were created in
the same second the queries may put them in different orders, so the pages
hold every article once exactly when such articles share a page.  The seed
rows are inserted by one statement, in one second.
-/

namespace LightningServer.Service

open LightningServer.Foundation
open LightningServer.Foundation.Numerals
open LightningServer.Foundation.Paging
open LightningServer.Store
open LightningServer.Service.ArticleService

/-! ## The orders that a query may use -/

/-- The server puts articles of the same second in the order of a rank. -/
def ranked (world : World) (rank : Int → Int) : World :=
  { world with database := { world.database with tieRank := rank } }

/-- The table in the order of a query. -/
def listOrder (database : Database) (rank : Int → Int) : List Article :=
  orderBy Article.createTime (fun article => rank article.id)
    database.articles

theorem isOrder_listOrder (database : Database) (rank : Int → Int) :
    IsOrder Article.createTime database.articles
      (listOrder database rank) where
  perm := perm_orderBy ..
  descends := by
    refine (pairwise_orderBy ..).imp ?_
    rintro left right (greater | ⟨equal, -⟩)
    · exact greater.le
    · exact equal.ge

/-- Every order that descends in time is the order of some rank. -/
theorem exists_rank
    {database : Database} {order : List Article}
    (isOrder : IsOrder Article.createTime database.articles order) :
    ∃ rank, listOrder database rank = order := by
  have ids : (order.map Article.id).Nodup :=
    (isOrder.perm.map Article.id).nodup_iff.mpr database.articleIds
  let rank (id : Int) : Int := (order.map Article.id).idxOf id
  refine ⟨rank, ?_⟩
  have sorted :
      order.Pairwise
        (Descends Article.createTime fun article => rank article.id) := by
    rw [List.pairwise_iff_getElem]
    intro earlier later inside inside' before
    have descends :=
      List.pairwise_iff_getElem.mp isOrder.descends earlier later inside
        inside' before
    have place (position : Nat) (within : position < order.length) :
        rank order[position].id = position := by
      have found := ids.idxOf_getElem position (by simpa using within)
      rw [List.getElem_map] at found
      exact congrArg Nat.cast found
    rcases descends.lt_or_eq with greater | equal
    · exact Or.inl greater
    · refine Or.inr ⟨equal.symm, ?_⟩
      calc
        rank order[earlier].id = earlier := place earlier inside
        _ ≤ later := Int.ofNat_le.mpr before.le
        _ = rank order[later].id := (place later inside').symm
  apply List.Perm.eq_of_pairwise ?_ (pairwise_orderBy ..) sorted
    ((perm_orderBy ..).trans isOrder.perm.symm)
  intro left right inOrder inOrder' before after
  have leftIn : left ∈ order :=
    isOrder.perm.mem_iff.mpr (mem_orderBy.mp inOrder)
  have sameRank : rank left.id = rank right.id := by
    rcases before with greater | ⟨equal, before⟩
    · rcases after with greater' | ⟨equal', -⟩
      · exact absurd greater' greater.not_gt
      · exact absurd equal'.symm greater.ne'
    · rcases after with greater' | ⟨-, after⟩
      · exact absurd equal greater'.ne
      · exact le_antisymm before after
  have sameId : left.id = right.id :=
    (List.idxOf_inj (List.mem_map_of_mem leftIn)).mp
      (Int.ofNat_inj.mp sameRank)
  exact List.inj_on_of_nodup_map ids leftIn inOrder' sameId

/-! ## The pages -/

section Pages

variable (unsent : Statement → World → Option (List Row) × World)

/-- A page, from a query with its own rank of articles of one second. -/
def tablePage (world : World) (pageSize : Nat) (ranks : Nat → Int → Int)
    (index : Nat) : Except StdException Json :=
  (runOnProxies unsent (listArticles (index + 1) pageSize)
    (ranked world (ranks index))).1

/-- Whatever the queries' orders are, each article is on one page, once. -/
def PagesPartition (world : World) (pageSize : Nat) : Prop :=
  ∀ ranks : Nat → Int → Int,
    ((List.range
        (pageCount world.database.articles.length pageSize)).flatMap
      fun index =>
        listedOn (tablePage unsent world pageSize ranks index)).Perm
      (world.database.articles.map listItem)

variable {unsent} {world : World} {pageSize : Nat}

theorem listedOn_tablePage
    (countable : world.database.articles.length < 2 ^ 31)
    (range : 1 ≤ pageSize ∧ pageSize ≤ 50) {index : Nat}
    (inside : index < pageCount world.database.articles.length pageSize)
    (ranks : Nat → Int → Int) :
    listedOn (tablePage unsent world pageSize ranks index) =
      (Paging.page pageSize (listOrder world.database (ranks index))
        index).map listItem := by
  have starts := (lt_pageCount_iff (by omega)).mp inside
  have small : firstRow ((index : Int) + 1) pageSize < 2 ^ 31 := by
    rw [firstRow_index range]
    omega
  have sameRows :
      (ranked world (ranks index)).database.articles =
        world.database.articles :=
    rfl
  rw [tablePage, runOnProxies_listArticles, sameRows, if_pos countable,
    listedOn_pageResponse, getArticles_eq_page small, clampPage_succ,
    clampPageSize_of_range range, Int.add_sub_cancel, Int.toNat_natCast,
    Int.toNat_natCast]
  rfl

/-- All pages together, before they become JSON. -/
theorem flatMap_tablePage
    (countable : world.database.articles.length < 2 ^ 31)
    (range : 1 ≤ pageSize ∧ pageSize ≤ 50) (ranks : Nat → Int → Int) :
    ((List.range
        (pageCount world.database.articles.length pageSize)).flatMap
      fun index =>
        listedOn (tablePage unsent world pageSize ranks index)) =
      ((List.range
          (pageCount world.database.articles.length pageSize)).flatMap
        fun index =>
          Paging.page pageSize (listOrder world.database (ranks index))
            index).map listItem := by
  rw [List.map_flatMap]
  apply List.flatMap_congr
  intro index member
  exact listedOn_tablePage countable range (List.mem_range.mp member) ranks

theorem nodup_listItems (database : Database) :
    (database.articles.map listItem).Nodup := by
  apply List.Nodup.of_map itemId?
  have ids : itemId? ∘ listItem = some ∘ Article.id := by
    ext article : 1
    exact itemId?_listItem article
  rw [List.map_map, ids, ← List.map_map]
  exact database.articleIds.map (Option.some_injective _)

theorem pagesPartition_of_onOnePage
    (countable : world.database.articles.length < 2 ^ 31)
    (range : 1 ≤ pageSize ∧ pageSize ≤ 50)
    (whole :
      OnOnePage pageSize Article.createTime world.database.articles) :
    PagesPartition unsent world pageSize := by
  intro ranks
  rw [flatMap_tablePage countable range]
  exact (perm_pages range.1 world.database.articleIds.of_map whole
    fun index => isOrder_listOrder world.database (ranks index)).map listItem

theorem not_pagesPartition_of_cut
    (countable : world.database.articles.length < 2 ^ 31)
    (range : 1 ≤ pageSize ∧ pageSize ≤ 50)
    (cut :
      ¬ OnOnePage pageSize Article.createTime world.database.articles) :
    ¬ PagesPartition unsent world pageSize := by
  intro always
  rcases exists_repeating_pages range.1
      (isOrder_listOrder world.database world.database.tieRank) cut with
    ⟨orders, areOrders, repeats⟩
  choose ranks isRanked using fun index => exists_rank (areOrders index)
  have perm := always ranks
  rw [flatMap_tablePage countable range] at perm
  simp only [isRanked] at perm
  exact repeats
    (perm.nodup_iff.mpr (nodup_listItems world.database)).of_map

/-- With too many rows to count, every page is an exception. -/
theorem not_pagesPartition_of_many
    (many : ¬ world.database.articles.length < 2 ^ 31) :
    ¬ PagesPartition unsent world pageSize := by
  intro always
  have nothing (index : Nat) :
      listedOn
          (tablePage unsent world pageSize (fun _ => id) index) = [] := by
    have sameRows :
        (ranked world id).database.articles = world.database.articles :=
      rfl
    rw [tablePage, runOnProxies_listArticles, sameRows, if_neg many]
    rfl
  have perm := always fun _ => id
  simp only [nothing] at perm
  have lengths := perm.length_eq
  simp only [List.length_flatMap, List.length_nil, List.length_map] at lengths
  simp at lengths
  omega

end Pages

/-- The pages partition a table whose seconds do not cross a page's end. -/
theorem pages_partition_iff
    (unsent : Statement → World → Option (List Row) × World)
    (world : World) {pageSize : Nat}
    (range : 1 ≤ pageSize ∧ pageSize ≤ 50) :
    PagesPartition unsent world pageSize ↔
      world.database.articles.length < 2 ^ 31 ∧
        OnOnePage pageSize Article.createTime world.database.articles := by
  constructor
  · intro partition
    have countable : world.database.articles.length < 2 ^ 31 := by
      by_contra many
      exact not_pagesPartition_of_many many partition
    refine ⟨countable, ?_⟩
    by_contra cut
    exact not_pagesPartition_of_cut countable range cut partition
  · rintro ⟨countable, whole⟩
    exact pagesPartition_of_onOnePage countable range whole

/-- Two articles of one second, then two of an earlier one. -/
def pairedRows : Database :=
  { twoComments with
    storedArticles :=
      [{ id := 1, createTime := text "2026-06-01 10:00:00" },
        { id := 2, createTime := text "2026-06-01 10:00:00" },
        { id := 3, createTime := text "2026-06-02 10:00:00" },
        { id := 4, createTime := text "2026-06-02 10:00:00" }]
    storedArticleIds := by decide
    storedArticlesFit := by decide }

theorem paired_rows_partition :
    PagesPartition (fun _ world => (none, world))
      (World.initial pairedRows (fun _ => []) fun _ => true) 2 :=
  (pages_partition_iff (fun _ world => (none, world))
    (World.initial pairedRows (fun _ => []) fun _ => true)
    (by decide)).mpr (by decide +kernel)

/-- Five articles of one second, as the seed rows are, on pages of two. -/
theorem seed_rows_not_partitioned :
    ¬ PagesPartition (fun _ world => (none, world))
      (World.initial fiveRows (fun _ => []) fun _ => true) 2 :=
  not_pagesPartition_of_cut (by decide) (by decide) (by decide +kernel)

end LightningServer.Service
