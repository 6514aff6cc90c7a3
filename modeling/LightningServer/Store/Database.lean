import LightningServer.Foundation.Json
import Mathlib.Data.Char
import Mathlib.Data.List.Lex
import Mathlib.Data.List.Sort

/-!
# The two tables

An `INT` column is an `int`, and a `DATETIME` column is its text, which holds
no NUL and whose lexicographic order is the order in time.  The keys and
ranges that the schema enforces are fields of `Database`.

The server keeps every text whole.  A proxy reads it as `row[i]`, a C string,
so it gets a row up to the first NUL of each text: `articles` and `comments`
are the rows as they are received, `storedArticles` and `storedComments` the
rows as they are stored.

`ORDER BY` leaves the order of equal rows open.  It is fixed here by an
arbitrary rank of the row's id, a field of the database.
-/

namespace LightningServer.Store

open LightningServer.Foundation
open LightningServer.Foundation.Numerals

/-! ## C strings -/

/-- What is kept of a text that is handed over as a `char*`. -/
def cString (value : Text) : Text :=
  value.takeWhile fun symbol => symbol ≠ Char.ofNat 0

def NulFree (value : Text) : Prop :=
  Char.ofNat 0 ∉ value

instance (value : Text) : Decidable (NulFree value) :=
  inferInstanceAs (Decidable (_ ∉ _))

/-- Exactly the texts without a NUL are kept whole. -/
theorem cString_eq_self_iff {value : Text} :
    cString value = value ↔ NulFree value := by
  rw [cString, List.takeWhile_eq_self_iff, NulFree]
  constructor
  · intro others member
    simpa using others _ member
  · intro free symbol member
    rw [decide_eq_true_eq]
    rintro rfl
    exact free member

theorem cString_of_nulFree {value : Text} (free : NulFree value) :
    cString value = value :=
  cString_eq_self_iff.mpr free

/-! ## Rows -/

@[ext]
structure Article where
  id : Int := 0
  title : Text := []
  content : Text := []
  author : Text := []
  createTime : Text := []
  updateTime : Text := []
  viewCount : Int := 0
deriving DecidableEq

/-- The article without the two columns that an UPDATE changes. -/
def Article.fixed (article : Article) : Article :=
  { article with updateTime := [], viewCount := 0 }

/-- The article that a proxy gets from a row. -/
def Article.received (article : Article) : Article :=
  { article with
    title := cString article.title
    content := cString article.content
    author := cString article.author }

/-- No text of the article has a NUL. -/
def Article.Plain (article : Article) : Prop :=
  NulFree article.title ∧ NulFree article.content ∧
    NulFree article.author

instance (article : Article) : Decidable article.Plain :=
  inferInstanceAs (Decidable (_ ∧ _))

theorem Article.received_eq_self_iff {article : Article} :
    article.received = article ↔ article.Plain := by
  simp [received, Plain, Article.ext_iff, cString_eq_self_iff]

@[ext]
structure Comment where
  id : Int := 0
  articleId : Int := 0
  content : Text := []
  commenter : Text := []
  createTime : Text := []
deriving DecidableEq

/-- The comment that a proxy gets from a row. -/
def Comment.received (comment : Comment) : Comment :=
  { comment with
    content := cString comment.content
    commenter := cString comment.commenter }

/-- No text of the comment has a NUL. -/
def Comment.Plain (comment : Comment) : Prop :=
  NulFree comment.content ∧ NulFree comment.commenter

instance (comment : Comment) : Decidable comment.Plain :=
  inferInstanceAs (Decidable (_ ∧ _))

theorem Comment.received_eq_self_iff {comment : Comment} :
    comment.received = comment ↔ comment.Plain := by
  simp [received, Plain, Comment.ext_iff, cString_eq_self_iff]

/-! ## ORDER BY … DESC -/

section OrderBy

variable {Row Key : Type} [LinearOrder Key]

/-- Descending by a column, equal rows by their rank. -/
def Descends (column : Row → Key) (rank : Row → Int)
    (left right : Row) : Prop :=
  column right < column left ∨
    column left = column right ∧ rank left ≤ rank right

instance (column : Row → Key) (rank : Row → Int) (left right : Row) :
    Decidable (Descends column rank left right) :=
  inferInstanceAs (Decidable (_ ∨ _))

instance (column : Row → Key) (rank : Row → Int) :
    Std.Total (Descends column rank) where
  total left right := by
    unfold Descends
    rcases lt_trichotomy (column left) (column right) with
      less | equal | greater
    · exact Or.inr (Or.inl less)
    · rcases le_total (rank left) (rank right) with first | second
      · exact Or.inl (Or.inr ⟨equal, first⟩)
      · exact Or.inr (Or.inr ⟨equal.symm, second⟩)
    · exact Or.inl (Or.inl greater)

instance (column : Row → Key) (rank : Row → Int) :
    IsTrans Row (Descends column rank) where
  trans left middle right := by
    rintro (greater | ⟨equal, ranked⟩) (greater' | ⟨equal', ranked'⟩)
    · exact Or.inl (greater'.trans greater)
    · exact Or.inl (equal' ▸ greater)
    · exact Or.inl (equal ▸ greater')
    · exact Or.inr ⟨equal.trans equal', ranked.trans ranked'⟩

/-- The rows in the order of the query. -/
def orderBy (column : Row → Key) (rank : Row → Int) (rows : List Row) :
    List Row :=
  rows.insertionSort (Descends column rank)

/-- Rows may be received before or after they are put in order. -/
theorem orderBy_map
    {column : Row → Key} {rank : Row → Int} (receive : Row → Row)
    (sameColumn : ∀ row, column (receive row) = column row)
    (sameRank : ∀ row, rank (receive row) = rank row)
    (rows : List Row) :
    orderBy column rank (rows.map receive) =
      (orderBy column rank rows).map receive := by
  refine (List.map_insertionSort _ _ receive rows ?_).symm
  intro left _ right _
  simp only [Descends, sameColumn, sameRank]

theorem perm_orderBy
    (column : Row → Key) (rank : Row → Int) (rows : List Row) :
    (orderBy column rank rows).Perm rows :=
  List.perm_insertionSort _ rows

@[simp]
theorem mem_orderBy
    {column : Row → Key} {rank : Row → Int} {rows : List Row} {row : Row} :
    row ∈ orderBy column rank rows ↔ row ∈ rows :=
  (perm_orderBy column rank rows).mem_iff

theorem pairwise_orderBy
    (column : Row → Key) (rank : Row → Int) (rows : List Row) :
    (orderBy column rank rows).Pairwise (Descends column rank) :=
  List.pairwise_insertionSort _ rows

/-- With distinct values the column is strictly decreasing. -/
theorem pairwise_orderBy_of_distinct
    {column : Row → Key} {rank : Row → Int} {rows : List Row}
    (distinct : (rows.map column).Nodup) :
    (orderBy column rank rows).Pairwise
      (fun left right => column right < column left) := by
  have sorted := pairwise_orderBy column rank rows
  have different :
      (orderBy column rank rows).Pairwise
        (fun left right => column left ≠ column right) :=
    List.pairwise_map.mp
      (((perm_orderBy column rank rows).map column).nodup_iff.mpr distinct)
  refine (sorted.and different).imp ?_
  rintro left right ⟨greater | ⟨equal, -⟩, unequal⟩
  · exact greater
  · exact absurd equal unequal

end OrderBy

/-! ## The database -/

structure Database where
  storedArticles : List Article
  storedComments : List Comment
  /-- the AUTO_INCREMENT counter of `comments` -/
  nextCommentId : Int
  /-- the order of rows that a query's ORDER BY leaves equal -/
  tieRank : Int → Int
  storedArticleIds : (storedArticles.map Article.id).Nodup
  storedArticlesFit :
    ∀ article ∈ storedArticles,
      IsInt article.id ∧ IsInt article.viewCount
  storedCommentIds : (storedComments.map Comment.id).Nodup
  storedCommentsFit :
    ∀ comment ∈ storedComments,
      IsInt comment.id ∧ IsInt comment.articleId
  storedCommentsBelow :
    ∀ comment ∈ storedComments, comment.id < nextCommentId

namespace Database

/-- The articles, as a proxy receives them. -/
def articles (database : Database) : List Article :=
  database.storedArticles.map Article.received

/-- The comments, as a proxy receives them. -/
def comments (database : Database) : List Comment :=
  database.storedComments.map Comment.received

section Received

variable (database : Database)

theorem articleIds : (database.articles.map Article.id).Nodup := by
  rw [articles, List.map_map]
  exact database.storedArticleIds

theorem articlesFit :
    ∀ article ∈ database.articles,
      IsInt article.id ∧ IsInt article.viewCount :=
  List.forall_mem_map.mpr database.storedArticlesFit

theorem commentIds : (database.comments.map Comment.id).Nodup := by
  rw [comments, List.map_map]
  exact database.storedCommentIds

theorem commentsFit :
    ∀ comment ∈ database.comments,
      IsInt comment.id ∧ IsInt comment.articleId :=
  List.forall_mem_map.mpr database.storedCommentsFit

end Received

/-! ## Queries of the proxy -/

/-- The rows of a page, and the total. -/
def getArticles (database : Database) (page pageSize : Int) :
    List Article × Int :=
  let total : Int := database.articles.length
  let offset := toInt32 ((page - 1) * pageSize)
  -- a negative LIMIT or OFFSET is a syntax error
  if offset < 0 ∨ pageSize < 0 then ([], total)
  else
    (((orderBy Article.createTime
        (fun article => database.tieRank article.id)
        database.articles).drop offset.toNat).take pageSize.toNat, total)

def getArticleById (database : Database) (id : Int) : Option Article :=
  database.articles.find? fun article => article.id = id

/-- ON UPDATE sets `update_time` of a row that changes. -/
def withViewCount (id count : Int) (now : Text) (article : Article) :
    Article :=
  if article.id = id ∧ article.viewCount ≠ count then
    { article with viewCount := count, updateTime := now }
  else article

@[simp]
theorem withViewCount_id
    (id count : Int) (now : Text) (article : Article) :
    (withViewCount id count now article).id = article.id := by
  unfold withViewCount
  split
  · rfl
  · rfl

theorem withViewCount_viewCount
    (id count : Int) (now : Text) (article : Article) :
    (withViewCount id count now article).viewCount =
      if article.id = id then count else article.viewCount := by
  unfold withViewCount
  by_cases same : article.id = id
  · by_cases unchanged : article.viewCount = count
    · simp [same, unchanged]
    · simp [same, unchanged]
  · simp [same]

theorem received_withViewCount
    (id count : Int) (now : Text) (article : Article) :
    (withViewCount id count now article).received =
      withViewCount id count now article.received := by
  simp only [withViewCount, apply_ite Article.received]
  rfl

def setViewCount (database : Database) (id count : Int) (now : Text) :
    Bool × Database :=
  if fits : IsInt count then
    (true,
      { database with
        storedArticles :=
          database.storedArticles.map (withViewCount id count now)
        storedArticleIds := by
          rw [List.map_map]
          exact (List.map_congr_left fun article _ =>
            withViewCount_id id count now article) ▸
              database.storedArticleIds
        storedArticlesFit := by
          intro article member
          rcases List.mem_map.mp member with ⟨old, inTable, rfl⟩
          have fit := database.storedArticlesFit old inTable
          rw [withViewCount_id, withViewCount_viewCount]
          refine ⟨fit.1, ?_⟩
          split
          · exact fits
          · exact fit.2 })
  else (false, database)

/-- The rows as they are received, after an update that is taken. -/
theorem articles_setViewCount
    {count : Int} (fits : IsInt count) (database : Database) (id : Int)
    (now : Text) :
    (database.setViewCount id count now).2.articles =
      database.articles.map (withViewCount id count now) := by
  rw [setViewCount, dif_pos fits]
  simp only [articles, List.map_map]
  exact List.map_congr_left fun article _ =>
    received_withViewCount id count now article

/-- All comments of an article, newest first. -/
def commentsOf (database : Database) (articleId : Int) : List Comment :=
  orderBy Comment.createTime
    (fun comment => database.tieRank comment.id)
    (database.comments.filter fun comment =>
      comment.articleId = articleId)

def getCommentsByArticleId (database : Database)
    (articleId limit : Int) : List Comment :=
  (database.commentsOf articleId).take limit.toNat

/-- The row that the next INSERT adds. -/
def newRow (database : Database) (comment : Comment) (now : Text) :
    Comment :=
  { comment with id := database.nextCommentId, createTime := now }

/-- The INSERT is refused without its article or without an id left. -/
def Insertable (database : Database) (comment : Comment) : Prop :=
  IsInt database.nextCommentId ∧
    ∃ article ∈ database.storedArticles, article.id = comment.articleId

instance (database : Database) (comment : Comment) :
    Decidable (database.Insertable comment) :=
  inferInstanceAs (Decidable (_ ∧ _))

/-- `accepted` is false when the server refuses it for another reason. -/
def createComment (database : Database) (comment : Comment)
    (accepted : Bool) (now : Text) : Bool × Database :=
  if ready : accepted = true ∧ database.Insertable comment then
    (true,
      { database with
        storedComments :=
          database.storedComments ++ [database.newRow comment now]
        nextCommentId := database.nextCommentId + 1
        storedCommentIds := by
          rw [List.map_append, List.map_singleton]
          refine database.storedCommentIds.append
            (List.nodup_singleton _) ?_
          intro id member new
          rcases List.mem_map.mp member with ⟨old, inTable, rfl⟩
          have below := database.storedCommentsBelow old inTable
          rw [List.mem_singleton.mp new] at below
          exact absurd below (lt_irrefl _)
        storedCommentsFit := by
          intro row member
          rcases List.mem_append.mp member with old | new
          · exact database.storedCommentsFit row old
          · rcases ready.2 with ⟨fits, article, inTable, same⟩
            rw [List.mem_singleton.mp new]
            exact ⟨fits,
              same ▸ (database.storedArticlesFit article inTable).1⟩
        storedCommentsBelow := by
          intro row member
          rcases List.mem_append.mp member with old | new
          · exact Int.lt_add_one_of_le
              (Int.le_of_lt (database.storedCommentsBelow row old))
          · rw [List.mem_singleton.mp new]
            exact Int.lt_add_one_of_le (Int.le_refl _) })
  else (false, database)

def getCommentCount (database : Database) (articleId : Int) : Int :=
  (database.comments.filter fun comment =>
    comment.articleId = articleId).length

def getHotArticles (database : Database) (limit : Int) : List Article :=
  (orderBy Article.viewCount
    (fun article => database.tieRank article.id)
    database.articles).take limit.toNat

/-! ## The rows behind what is received -/

/-- The row of an article, as it is stored. -/
def storedArticle (database : Database) (id : Int) : Option Article :=
  database.storedArticles.find? fun article => article.id = id

/-- The rows of a page of articles, newest first. -/
def storedPage (database : Database) (pageSize offset : Int) :
    List Article :=
  ((orderBy Article.createTime
      (fun article => database.tieRank article.id)
      database.storedArticles).drop offset.toNat).take pageSize.toNat

/-- The rows of the articles, most viewed first. -/
def storedHotArticles (database : Database) (limit : Int) :
    List Article :=
  (orderBy Article.viewCount
    (fun article => database.tieRank article.id)
    database.storedArticles).take limit.toNat

/-- The rows of the comments of an article, newest first. -/
def storedCommentsOf (database : Database) (articleId : Int) :
    List Comment :=
  orderBy Comment.createTime
    (fun comment => database.tieRank comment.id)
    (database.storedComments.filter fun comment =>
      comment.articleId = articleId)

section Received

variable (database : Database)

@[simp]
theorem length_storedArticles :
    database.storedArticles.length = database.articles.length :=
  (List.length_map _).symm

theorem getArticles_eq_received (page pageSize : Int) :
    database.getArticles page pageSize =
      if toInt32 ((page - 1) * pageSize) < 0 ∨ pageSize < 0 then
        ([], (database.articles.length : Int))
      else
        ((database.storedPage pageSize
            (toInt32 ((page - 1) * pageSize))).map Article.received,
          (database.articles.length : Int)) := by
  simp only [getArticles]
  rw [articles, orderBy_map Article.received (fun _ => rfl)
    (fun _ => rfl), storedPage, List.map_take, List.map_drop]

theorem getArticleById_eq_received (id : Int) :
    database.getArticleById id =
      (database.storedArticle id).map Article.received := by
  rw [getArticleById, articles, List.find?_map]
  rfl

theorem commentsOf_eq_received (articleId : Int) :
    database.commentsOf articleId =
      (database.storedCommentsOf articleId).map Comment.received := by
  rw [commentsOf, comments, List.filter_map,
    orderBy_map Comment.received (fun _ => rfl) fun _ => rfl]
  rfl

variable {database} in
@[simp]
theorem mem_storedCommentsOf {articleId : Int} {comment : Comment} :
    comment ∈ database.storedCommentsOf articleId ↔
      comment ∈ database.storedComments ∧
        comment.articleId = articleId := by
  simp [storedCommentsOf]

theorem nodup_storedCommentsOf (articleId : Int) :
    ((database.storedCommentsOf articleId).map Comment.id).Nodup :=
  ((perm_orderBy _ _ _).map Comment.id).nodup_iff.mpr
    (database.storedCommentIds.sublist (List.filter_sublist.map Comment.id))

theorem fits_of_mem_storedCommentsOf
    {articleId : Int} {comment : Comment}
    (member : comment ∈ database.storedCommentsOf articleId) :
    IsInt comment.id ∧ IsInt comment.articleId :=
  database.storedCommentsFit comment
    (List.mem_of_mem_filter (mem_orderBy.mp member))

theorem getCommentsByArticleId_eq_received (articleId limit : Int) :
    database.getCommentsByArticleId articleId limit =
      ((database.storedCommentsOf articleId).take limit.toNat).map
        Comment.received := by
  rw [getCommentsByArticleId, commentsOf_eq_received, List.map_take]

theorem getHotArticles_eq_received (limit : Int) :
    database.getHotArticles limit =
      (database.storedHotArticles limit).map Article.received := by
  rw [getHotArticles, storedHotArticles, articles,
    orderBy_map Article.received (fun _ => rfl) (fun _ => rfl),
    List.map_take]

@[simp]
theorem length_storedComments :
    database.storedComments.length = database.comments.length :=
  (List.length_map _).symm

theorem getCommentCount_eq_stored (articleId : Int) :
    database.getCommentCount articleId =
      ((database.storedComments.filter fun comment =>
        comment.articleId = articleId).length : Int) := by
  rw [getCommentCount, comments, List.filter_map, List.length_map]
  rfl

end Received

/-! ## What the queries and updates keep -/

theorem getArticles_total
    (database : Database) (page pageSize : Int) :
    (database.getArticles page pageSize).2 = database.articles.length := by
  rw [getArticles]
  split
  · rfl
  · rfl

/-- Among rows with different ids, a row is found under its own. -/
theorem find?_id_of_mem
    {rows : List Article} (distinct : (rows.map Article.id).Nodup)
    {article : Article} (inTable : article ∈ rows) :
    (rows.find? fun other => other.id = article.id) = some article := by
  cases found : rows.find? fun other => other.id = article.id with
  | none =>
      have missing := List.find?_eq_none.mp found article inTable
      simp at missing
  | some other =>
      have sameId : other.id = article.id := by
        simpa using List.find?_some found
      rw [List.inj_on_of_nodup_map distinct
        (List.mem_of_find?_eq_some found) inTable sameId]

theorem getArticleById_eq_some
    {database : Database} {id : Int} {article : Article}
    (found : database.getArticleById id = some article) :
    article ∈ database.articles ∧ article.id = id := by
  refine ⟨List.mem_of_find?_eq_some found, ?_⟩
  simpa using List.find?_some found

theorem getArticleById_of_mem
    {database : Database} {article : Article}
    (inTable : article ∈ database.articles) :
    database.getArticleById article.id = some article :=
  find?_id_of_mem database.articleIds inTable

theorem storedArticle_eq_some
    {database : Database} {id : Int} {article : Article}
    (found : database.storedArticle id = some article) :
    article ∈ database.storedArticles ∧ article.id = id := by
  refine ⟨List.mem_of_find?_eq_some found, ?_⟩
  simpa using List.find?_some found

theorem storedArticle_of_mem
    {database : Database} {article : Article}
    (inTable : article ∈ database.storedArticles) :
    database.storedArticle article.id = some article :=
  find?_id_of_mem database.storedArticleIds inTable

theorem mem_of_mem_getArticles
    {database : Database} {page pageSize : Int} {article : Article}
    (onPage : article ∈ (database.getArticles page pageSize).1) :
    article ∈ database.articles := by
  rw [getArticles] at onPage
  split at onPage
  · cases onPage
  · exact mem_orderBy.mp
      (List.mem_of_mem_drop (List.mem_of_mem_take onPage))

@[simp]
theorem mem_commentsOf
    {database : Database} {articleId : Int} {comment : Comment} :
    comment ∈ database.commentsOf articleId ↔
      comment ∈ database.comments ∧ comment.articleId = articleId := by
  simp [commentsOf]

theorem nodup_commentsOf (database : Database) (articleId : Int) :
    ((database.commentsOf articleId).map Comment.id).Nodup :=
  ((perm_orderBy _ _ _).map Comment.id).nodup_iff.mpr
    (database.commentIds.sublist (List.filter_sublist.map Comment.id))

/-- What an INSERT can do, and when. -/
theorem createComment_cases
    (database : Database) (comment : Comment) (accepted : Bool)
    (now : Text) :
    (database.createComment comment accepted now = (false, database) ∧
        ¬ (accepted = true ∧ database.Insertable comment)) ∨
      (accepted = true ∧ database.Insertable comment) ∧
        (database.createComment comment accepted now).1 = true ∧
        (database.createComment comment accepted now).2.storedArticles =
          database.storedArticles ∧
        (database.createComment comment accepted now).2.storedComments =
          database.storedComments ++ [database.newRow comment now] ∧
        (database.createComment comment accepted now).2.tieRank =
          database.tieRank := by
  by_cases ready : accepted = true ∧ database.Insertable comment
  · right
    rw [createComment, dif_pos ready]
    exact ⟨ready, rfl, rfl, rfl, rfl⟩
  · left
    rw [createComment, dif_neg ready]
    exact ⟨rfl, ready⟩

/-- A row that is appended is received behind the others. -/
theorem comments_of_append
    {database later : Database} {row : Comment}
    (appended :
      later.storedComments = database.storedComments ++ [row]) :
    later.comments = database.comments ++ [row.received] := by
  rw [comments, appended, List.map_append]
  rfl

/-- An INSERT leaves the comments of every other article as they are. -/
theorem storedCommentsOf_createComment_of_ne
    {database : Database} {comment : Comment} {articleId : Int}
    (different : comment.articleId ≠ articleId)
    (accepted : Bool) (now : Text) :
    (database.createComment comment accepted now).2.storedCommentsOf
        articleId =
      database.storedCommentsOf articleId := by
  rcases database.createComment_cases comment accepted now with
    ⟨refused, -⟩ | ⟨-, -, -, appended, ranked⟩
  · rw [refused]
  · have other : (database.newRow comment now).articleId ≠ articleId :=
      different
    simp only [storedCommentsOf, appended, ranked, List.filter_append]
    simp [other]

theorem storedCommentsOf_setViewCount
    (database : Database) (id count articleId : Int) (now : Text) :
    (database.setViewCount id count now).2.storedCommentsOf articleId =
      database.storedCommentsOf articleId := by
  unfold setViewCount
  split
  · rfl
  · rfl

@[simp]
theorem fixed_withViewCount
    (id count : Int) (now : Text) (article : Article) :
    (withViewCount id count now article).fixed = article.fixed := by
  unfold withViewCount
  split
  · rfl
  · rfl

theorem fixed_setViewCount
    (database : Database) (id count : Int) (now : Text) :
    (database.setViewCount id count now).2.articles.map Article.fixed =
      database.articles.map Article.fixed := by
  by_cases fits : IsInt count
  · rw [articles_setViewCount fits]
    simp
  · rw [setViewCount, dif_neg fits]

theorem storedArticles_createComment
    (database : Database) (comment : Comment) (accepted : Bool)
    (now : Text) :
    (database.createComment comment accepted now).2.storedArticles =
      database.storedArticles := by
  unfold createComment
  split
  · rfl
  · rfl

theorem articles_createComment
    (database : Database) (comment : Comment) (accepted : Bool)
    (now : Text) :
    (database.createComment comment accepted now).2.articles =
      database.articles := by
  rw [articles, storedArticles_createComment]
  rfl

/-- A lookup sees the fixed columns of the table. -/
theorem getArticleById_fixed
    {database other : Database}
    (same :
      other.articles.map Article.fixed =
        database.articles.map Article.fixed)
    (id : Int) :
    (other.getArticleById id).map Article.fixed =
      (database.getArticleById id).map Article.fixed := by
  have lookup (rows : List Article) :
      (rows.find? fun article => article.id = id).map Article.fixed =
        (rows.map Article.fixed).find? fun article => article.id = id := by
    rw [List.find?_map]
    rfl
  rw [getArticleById, getArticleById, lookup, lookup, same]

end Database

end LightningServer.Store
