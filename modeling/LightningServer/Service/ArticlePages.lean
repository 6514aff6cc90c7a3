import LightningServer.Foundation.Paging
import LightningServer.Service.ArticleService
import LightningServer.Service.CommentOrder
import LightningServer.Store.Mock
import LightningServer.Store.Proxied

/-!
# Pages of the article list

`listArticles` raises the page to 1 and replaces a page size outside 1 to 50,
and the proxies then form the offset in `int`.  Nothing bounds the page from
above, so the offset of a large one overflows: MySQL refuses a negative
`OFFSET`, the mock build slices with it, and an offset that comes out small
brings the first articles back.
-/

namespace LightningServer.Service

open LightningServer.Foundation
open LightningServer.Foundation.Numerals
open LightningServer.Foundation.Paging
open LightningServer.Store
open LightningServer.Store.DatabaseProxy (pageOffset)
open LightningServer.Service.ArticleService

/-! ## The page that is asked for -/

def clampPage (page : Int) : Int :=
  if page < 1 then 1 else page

def clampPageSize (pageSize : Int) : Int :=
  if pageSize < 1 ∨ 50 < pageSize then 10 else pageSize

/-- The number of articles in front of the page, without overflow. -/
def firstRow (page pageSize : Int) : Int :=
  (clampPage page - 1) * clampPageSize pageSize

theorem clampPage_pos (page : Int) : 1 ≤ clampPage page := by
  rw [clampPage]
  split
  · exact le_refl _
  · omega

theorem clampPageSize_range (pageSize : Int) :
    1 ≤ clampPageSize pageSize ∧ clampPageSize pageSize ≤ 50 := by
  rw [clampPageSize]
  split
  · decide
  · omega

theorem firstRow_nonneg (page pageSize : Int) :
    0 ≤ firstRow page pageSize := by
  have low := clampPage_pos page
  have range := clampPageSize_range pageSize
  exact Int.mul_nonneg (by omega) (by omega)

theorem isInt_firstRow_iff {page pageSize : Int} :
    IsInt (firstRow page pageSize) ↔ firstRow page pageSize < 2 ^ 31 := by
  have low := firstRow_nonneg page pageSize
  rw [IsInt]
  omega

theorem pageOffset_of_small
    {page pageSize : Int} (small : firstRow page pageSize < 2 ^ 31) :
    pageOffset (clampPage page) (clampPageSize pageSize) =
      firstRow page pageSize :=
  toInt32_of_isInt (isInt_firstRow_iff.mpr small)

/-! ## The response -/

/-- The response of `listArticles` for the rows of a page. -/
def pageResponse (articles : List Article) (total page pageSize : Int) :
    Json :=
  Json.ofFields
    [(text "code", .number 0),
      (text "data", Json.ofFields
        [(text "list", .array (articles.map listItem)),
          (text "total", .number total),
          (text "page", .number page),
          (text "pageSize", .number pageSize)])]

/-- The entries of a page; an exception has none. -/
def listedOn : Except StdException Json → List Json
  | .ok response => responseList response
  | .error _ => []

/-- The number in `data.total`. -/
def totalOn : Except StdException Json → Option Int
  | .ok response =>
      ((response.field? (text "data")).bind
        fun data => data.field? (text "total")).bind Json.number?
  | .error _ => none

/-- The request returns, and its list is empty. -/
def ListsNothing : Except StdException Json → Prop
  | .ok response => responseList response = []
  | .error _ => False

@[simp]
theorem listedOn_pageResponse
    (articles : List Article) (total page pageSize : Int) :
    listedOn (.ok (pageResponse articles total page pageSize)) =
      articles.map listItem :=
  rfl

@[simp]
theorem totalOn_pageResponse
    (articles : List Article) (total page pageSize : Int) :
    totalOn (.ok (pageResponse articles total page pageSize)) =
      some total :=
  rfl

theorem listsNothing_pageResponse_iff
    {articles : List Article} {total page pageSize : Int} :
    ListsNothing (.ok (pageResponse articles total page pageSize)) ↔
      articles = [] := by
  show articles.map listItem = [] ↔ _
  exact List.map_eq_nil_iff

section Runs

variable (unsent : Statement → World → Option (List Row) × World)
variable (page pageSize : Int)

theorem runOnProxies_listArticles (world : World) :
    runOnProxies unsent (listArticles page pageSize) world =
      if world.database.articles.length < 2 ^ 31 then
        (.ok (pageResponse
          (world.database.getArticles (clampPage page)
            (clampPageSize pageSize)).1
          world.database.articles.length (clampPage page)
          (clampPageSize pageSize)), world)
      else (.error .outOfRange, world) := by
  have code :
      listArticles page pageSize =
        .call (.getArticles (clampPage page) (clampPageSize pageSize))
          fun reply => .ret (pageResponse reply.1 reply.2 (clampPage page)
            (clampPageSize pageSize)) :=
    rfl
  rw [code, runOnProxies, operate_getArticles]
  by_cases countable : world.database.articles.length < 2 ^ 31
  · rw [if_pos countable, if_pos countable,
      ← Database.getArticles_total]
    rfl
  · rw [if_neg countable, if_neg countable]

theorem run_listArticles_mock (world : MockWorld) :
    (listArticles page pageSize).run mockExec world =
      (.ok (pageResponse
        (world.getArticles (clampPage page) (clampPageSize pageSize)).1
        (world.getArticles (clampPage page) (clampPageSize pageSize)).2
        (clampPage page) (clampPageSize pageSize)), world) :=
  rfl

end Runs

/-! ## The arithmetic of a page -/

/-- The product does not overflow, and the offset is not negative. -/
structure SafeOffset (page pageSize : Int) : Prop where
  fits : IsInt (firstRow page pageSize)
  nonnegative :
    0 ≤ pageOffset (clampPage page) (clampPageSize pageSize)

theorem safeOffset_iff {page pageSize : Int} :
    SafeOffset page pageSize ↔ firstRow page pageSize < 2 ^ 31 := by
  constructor
  · intro safe
    exact isInt_firstRow_iff.mp safe.fits
  · intro small
    refine ⟨isInt_firstRow_iff.mpr small, ?_⟩
    rw [pageOffset_of_small small]
    exact firstRow_nonneg page pageSize

/--
A page of the MySQL build.  The offset is formed once the rows are counted,
which throws for more of them than `int` can count.
-/
structure SafePage
    (unsent : Statement → World → Option (List Row) × World)
    (world : World) (page pageSize : Int) : Prop where
  offset :
    world.database.articles.length < 2 ^ 31 → SafeOffset page pageSize
  past :
    world.database.articles.length ≤ firstRow page pageSize →
      ListsNothing
        (runOnProxies unsent (listArticles page pageSize) world).1

/-- A page of the mock build. -/
structure SafeMockPage (world : MockWorld) (page pageSize : Int) :
    Prop where
  offset : SafeOffset page pageSize
  bounds :
    ∀ slice ∈ MockWorld.sliceBounds (clampPage page)
        (clampPageSize pageSize) (toInt32 world.articles.length),
      0 ≤ slice.1 ∧ slice.1 ≤ slice.2 ∧
        slice.2 ≤ toInt32 world.articles.length
  past :
    world.articles.length ≤ firstRow page pageSize →
      ListsNothing ((listArticles page pageSize).run mockExec world).1

/-! ## The rows of a page -/

section Rows

variable {page pageSize : Int}

theorem toNat_firstRow (page pageSize : Int) :
    (firstRow page pageSize).toNat =
      (clampPage page - 1).toNat * (clampPageSize pageSize).toNat := by
  have low := clampPage_pos page
  have range := clampPageSize_range pageSize
  exact Int.toNat_mul (by omega) (by omega)

/-- The rows that MySQL returns, without overflow. -/
theorem getArticles_eq_page
    (small : firstRow page pageSize < 2 ^ 31) (database : Database) :
    (database.getArticles (clampPage page) (clampPageSize pageSize)).1 =
      Paging.page (clampPageSize pageSize).toNat
        (orderBy Article.createTime
          (fun article => database.tieRank article.id) database.articles)
        (clampPage page - 1).toNat := by
  have isOffset := pageOffset_of_small small
  rw [pageOffset] at isOffset
  have low := firstRow_nonneg page pageSize
  have range := clampPageSize_range pageSize
  rw [Database.getArticles, isOffset, if_neg (by omega), toNat_firstRow]
  rfl

/-- The bounds of a slice that is taken, without overflow of the offset. -/
theorem sliceBounds_of_small
    (small : firstRow page pageSize < 2 ^ 31) (total : Int) :
    MockWorld.sliceBounds (clampPage page) (clampPageSize pageSize) total =
      if total ≤ firstRow page pageSize then none
      else
        some (firstRow page pageSize,
          min (toInt32 (firstRow page pageSize + clampPageSize pageSize))
            total) := by
  have isOffset := pageOffset_of_small small
  rw [pageOffset] at isOffset
  rw [MockWorld.sliceBounds, isOffset]

theorem mock_getArticles_total
    (world : MockWorld) (page pageSize : Int) :
    (world.getArticles page pageSize).2 =
      toInt32 world.articles.length := by
  rw [MockWorld.getArticles]
  cases MockWorld.sliceBounds page pageSize
    (toInt32 world.articles.length) with
  | none => rfl
  | some slice => rfl

/-- The rows of the mock build, without any overflow. -/
theorem mock_getArticles_eq_page
    {world : MockWorld} (few : world.articles.length < 2 ^ 31)
    (small : firstRow page pageSize < 2 ^ 31)
    (ends :
      firstRow page pageSize < world.articles.length →
        firstRow page pageSize + clampPageSize pageSize < 2 ^ 31) :
    (world.getArticles (clampPage page) (clampPageSize pageSize)).1 =
      Paging.page (clampPageSize pageSize).toNat world.articles
        (clampPage page - 1).toNat := by
  have low := firstRow_nonneg page pageSize
  have range := clampPageSize_range pageSize
  have total : toInt32 world.articles.length = world.articles.length :=
    toInt32_of_isInt ⟨by omega, by omega⟩
  rw [MockWorld.getArticles, total, sliceBounds_of_small small]
  by_cases past : (world.articles.length : Int) ≤ firstRow page pageSize
  · rw [if_pos past, Paging.page_eq_nil]
    rw [← toNat_firstRow]
    omega
  · have stop :
        toInt32 (firstRow page pageSize + clampPageSize pageSize) =
          firstRow page pageSize + clampPageSize pageSize :=
      toInt32_of_isInt ⟨by omega, ends (by omega)⟩
    rw [if_neg past, stop, Paging.page, ← toNat_firstRow]
    refine List.take_eq_take_iff.mpr ?_
    rw [List.length_drop]
    omega

end Rows

/-! ## When a page is safe -/

theorem safePage_iff
    (unsent : Statement → World → Option (List Row) × World)
    (world : World) (page pageSize : Int) :
    SafePage unsent world page pageSize ↔
      firstRow page pageSize < 2 ^ 31 ∨
        firstRow page pageSize < world.database.articles.length := by
  constructor
  · intro safe
    by_cases countable : world.database.articles.length < 2 ^ 31
    · exact Or.inl (safeOffset_iff.mp (safe.offset countable))
    · right
      by_contra past
      have nothing := safe.past (Int.not_lt.mp past)
      rw [runOnProxies_listArticles, if_neg countable] at nothing
      exact nothing
  · intro small
    constructor
    · intro countable
      exact safeOffset_iff.mpr (by omega)
    · intro past
      have first : firstRow page pageSize < 2 ^ 31 := by omega
      have countable : world.database.articles.length < 2 ^ 31 := by omega
      rw [runOnProxies_listArticles, if_pos countable,
        listsNothing_pageResponse_iff, getArticles_eq_page first]
      apply Paging.page_eq_nil
      rw [(perm_orderBy ..).length_eq, ← toNat_firstRow]
      omega

theorem safeMockPage_iff (world : MockWorld) (page pageSize : Int) :
    SafeMockPage world page pageSize ↔
      firstRow page pageSize < 2 ^ 31 ∧
        (firstRow page pageSize < toInt32 world.articles.length →
          firstRow page pageSize + clampPageSize pageSize < 2 ^ 31) := by
  have low := firstRow_nonneg page pageSize
  have range := clampPageSize_range pageSize
  constructor
  · intro safe
    have small := safeOffset_iff.mp safe.offset
    refine ⟨small, fun taken => ?_⟩
    by_contra overflow
    have bounds := safe.bounds
    rw [sliceBounds_of_small small, if_neg (Int.not_le.mpr taken)] at bounds
    -- the end has wrapped around
    have negative :
        toInt32 (firstRow page pageSize + clampPageSize pageSize) < 0 := by
      rw [toInt32]
      omega
    have ordered := (bounds _ rfl).2.1
    exact absurd (ordered.trans (min_le_left _ _)) (by omega)
  · rintro ⟨small, ends⟩
    refine ⟨safeOffset_iff.mpr small, ?_, ?_⟩
    · rw [sliceBounds_of_small small]
      by_cases past : toInt32 world.articles.length ≤ firstRow page pageSize
      · rw [if_pos past]
        rintro _ ⟨⟩
      · rw [if_neg past]
        rintro _ ⟨⟩
        have stop :
            toInt32 (firstRow page pageSize + clampPageSize pageSize) =
              firstRow page pageSize + clampPageSize pageSize :=
          toInt32_of_isInt ⟨by omega, ends (by omega)⟩
        refine ⟨low, ?_, min_le_right _ _⟩
        rw [stop]
        omega
    · intro past
      have few : world.articles.length < 2 ^ 31 := by omega
      rw [run_listArticles_mock, listsNothing_pageResponse_iff,
        mock_getArticles_eq_page few small (by omega)]
      apply Paging.page_eq_nil
      rw [← toNat_firstRow]
      omega

/--
The arithmetic of a page is safe exactly when its first row is counted in
`int` (or MySQL has so many rows that it is not formed for them), and in the
mock build when the end of its slice is, too.
-/
theorem paging_safe_iff
    (unsent : Statement → World → Option (List Row) × World)
    (world : World) (mock : MockWorld) (page pageSize : Int) :
    (SafePage unsent world page pageSize ↔
        firstRow page pageSize < 2 ^ 31 ∨
          firstRow page pageSize < world.database.articles.length) ∧
      (SafeMockPage mock page pageSize ↔
        firstRow page pageSize < 2 ^ 31 ∧
          (firstRow page pageSize < toInt32 mock.articles.length →
            firstRow page pageSize + clampPageSize pageSize < 2 ^ 31)) :=
  ⟨safePage_iff unsent world page pageSize,
    safeMockPage_iff mock page pageSize⟩

/-- Five articles of one second, as the seed rows are. -/
def fiveArticles : List Article :=
  [1, 2, 3, 4, 5].map fun id =>
    { id := id, createTime := text "2026-06-01 10:00:00" }

def fiveRows : Database :=
  { twoComments with
    storedArticles := fiveArticles
    storedArticleIds := by decide
    storedArticlesFit := by decide }

/-- The mock build with the same articles. -/
def fiveMocks : MockWorld where
  cache := .empty
  articles := fiveArticles
  comments := []
  ticks := 0
  clock := fun _ => []

/-- Page 429496731 brings the fifth article back, in both builds. -/
theorem far_page_not_safe :
    (¬ SafePage (fun _ world => (none, world))
          (World.initial fiveRows (fun _ => []) fun _ => true)
          429496731 10 ∧
        (fiveRows.getArticles 429496731 10).1 = fiveArticles.drop 4) ∧
      ¬ SafeMockPage fiveMocks 429496731 10 ∧
        (fiveMocks.getArticles 429496731 10).1 = fiveArticles.drop 4 := by
  have far : firstRow 429496731 10 = 4294967300 := by decide
  refine ⟨⟨?_, by decide +kernel⟩, ?_, by decide +kernel⟩
  · rw [safePage_iff, far]
    decide
  · rw [safeMockPage_iff, far]
    decide

/-! ## The pages of the mock build -/

/-- One page of the mock build, with the index from 0 on. -/
def mockPage (world : MockWorld) (pageSize index : Nat) :
    Except StdException Json :=
  ((listArticles (index + 1) pageSize).run mockExec world).1

/-- Every `int` that `getArticles` computes for a page is exact. -/
structure NoOverflow (page pageSize : Int) (length : Nat) : Prop where
  count : IsInt length
  before : IsInt (page - 1)
  offset : IsInt ((page - 1) * pageSize)
  stop :
    (page - 1) * pageSize < length →
      IsInt ((page - 1) * pageSize + pageSize)

section Partition

variable {pageSize index : Nat}

theorem clampPage_succ (index : Nat) :
    clampPage ((index : Int) + 1) = (index : Int) + 1 := by
  rw [clampPage, if_neg (by omega)]

theorem clampPageSize_of_range
    (range : 1 ≤ pageSize ∧ pageSize ≤ 50) :
    clampPageSize pageSize = pageSize := by
  rw [clampPageSize, if_neg (by omega)]

theorem firstRow_index
    (range : 1 ≤ pageSize ∧ pageSize ≤ 50) (index : Nat) :
    firstRow ((index : Int) + 1) pageSize =
      ((index * pageSize : Nat) : Int) := by
  rw [firstRow, clampPage_succ, clampPageSize_of_range range,
    Int.add_sub_cancel, Int.natCast_mul]

theorem mockPage_eq
    {world : MockWorld} (few : world.articles.length ≤ 2 ^ 31 - 1 - 50)
    (range : 1 ≤ pageSize ∧ pageSize ≤ 50)
    (inside : index < pageCount world.articles.length pageSize) :
    mockPage world pageSize index =
      .ok (pageResponse (Paging.page pageSize world.articles index)
        world.articles.length (index + 1) pageSize) := by
  have starts := (lt_pageCount_iff (by omega)).mp inside
  have first := firstRow_index range index
  have total : toInt32 world.articles.length = world.articles.length :=
    toInt32_of_isInt ⟨by omega, by omega⟩
  have ends :
      firstRow ((index : Int) + 1) pageSize < world.articles.length →
        firstRow ((index : Int) + 1) pageSize + clampPageSize pageSize <
          2 ^ 31 := by
    rw [clampPageSize_of_range range]
    omega
  rw [mockPage, run_listArticles_mock,
    mock_getArticles_eq_page (by omega) (by omega) ends,
    mock_getArticles_total, total, clampPage_succ,
    clampPageSize_of_range range, Int.add_sub_cancel, Int.toNat_natCast,
    Int.toNat_natCast]

end Partition

/-- The pages partition the list, each of them knows its length. -/
theorem mock_pages_partition
    (world : MockWorld) {pageSize : Nat}
    (few : world.articles.length ≤ 2 ^ 31 - 1 - 50)
    (range : 1 ≤ pageSize ∧ pageSize ≤ 50) :
    ((List.range (pageCount world.articles.length pageSize)).flatMap
        fun index => listedOn (mockPage world pageSize index)) =
        world.articles.map listItem ∧
      ∀ index < pageCount world.articles.length pageSize,
        totalOn (mockPage world pageSize index) =
            some (world.articles.length : Int) ∧
          (index + 1 < pageCount world.articles.length pageSize →
            (listedOn (mockPage world pageSize index)).length = pageSize) ∧
          NoOverflow (index + 1) pageSize world.articles.length := by
  have positive : 0 < pageSize := range.1
  constructor
  · calc
      _ = (List.range (pageCount world.articles.length pageSize)).flatMap
            fun index =>
              (Paging.page pageSize world.articles index).map listItem := by
        apply List.flatMap_congr
        intro index member
        rw [mockPage_eq few range (List.mem_range.mp member),
          listedOn_pageResponse]
      _ = world.articles.map listItem := by
        rw [← List.map_flatMap, flatMap_pages positive]
  · intro index inside
    have starts := (lt_pageCount_iff positive).mp inside
    rw [mockPage_eq few range inside, totalOn_pageResponse,
      listedOn_pageResponse, List.length_map]
    refine ⟨rfl, ?_, ?_⟩
    · intro next
      apply length_page
      exact ((lt_pageCount_iff positive).mp next).le
    · have exact : ((index : Int) + 1 - 1) * (pageSize : Int) =
          ((index * pageSize : Nat) : Int) := by
        rw [Int.add_sub_cancel, Int.natCast_mul]
      have small : index ≤ index * pageSize :=
        Nat.le_mul_of_pos_right _ positive
      refine ⟨⟨by omega, by omega⟩, ⟨by omega, by omega⟩, ?_, fun _ => ?_⟩
      · rw [exact]
        exact ⟨by omega, by omega⟩
      · rw [exact]
        exact ⟨by omega, by omega⟩

/-- Five articles on pages of two. -/
theorem five_mocks_partition :
    ((List.range 3).flatMap
        fun index => listedOn (mockPage fiveMocks 2 index)) =
      fiveArticles.map listItem :=
  (mock_pages_partition fiveMocks (by decide) (by decide)).1

end LightningServer.Service
