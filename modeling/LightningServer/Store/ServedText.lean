import LightningServer.Store.StatementText

/-!
# A server of texts

A server that gets the text of each statement does what `Statement.execute`
says: no content of a user changes what a statement does, and the rules of
SELECT, INSERT and UPDATE give the results that the runs of the services rest
on.
-/

namespace LightningServer.Store

open LightningServer.Foundation
open LightningServer.Foundation.Numerals
open LightningServer.Foundation.SqlText

/-! ## The columns of the tables -/

section Columns

variable (database : Database)

theorem shown_articles (articles : List Article) :
    (Table.articles database).shown articleFields articles =
      some (articles.map Article.row) := by
  have columns :
      (text "id" ::
          [text "title", text "content", text "author",
            text "create_time", text "update_time",
            text "view_count"]).mapM (Table.articles database).column =
        some ((Table.articles database).columns.map Prod.snd) := by
    simp [Table.column, Table.articles]
  rw [articleFields, Table.shown, columns]
  rfl

theorem shown_comments (comments : List Comment) :
    (Table.comments database).shown commentFields comments =
      some (comments.map Comment.row) := by
  have columns :
      (text "id" ::
          [text "article_id", text "content", text "commenter",
            text "create_time"]).mapM (Table.comments database).column =
        some ((Table.comments database).columns.map Prod.snd) := by
    simp [Table.column, Table.comments]
  rw [commentFields, Table.shown, columns]
  rfl

theorem filtered_articles (id : Int) :
    (Table.articles database).filtered (some (idIs id))
        database.storedArticles =
      some
        (database.storedArticles.filter fun article =>
          article.id = id) := by
  have isColumn :
      (Table.articles database).column (text "id") =
        some (.number Article.id) := by
    simp [Table.column, Table.articles]
  rw [idIs, Table.filtered_of_number isColumn]

theorem filtered_comments (articleId : Int) :
    (Table.comments database).filtered (some (articleIs articleId))
        database.storedComments =
      some
        (database.storedComments.filter fun comment =>
          comment.articleId = articleId) := by
  have isColumn :
      (Table.comments database).column (text "article_id") =
        some (.number Comment.articleId) := by
    simp [Table.column, Table.comments]
  rw [articleIs, Table.filtered_of_number isColumn]

theorem sorted_articles :
    (Table.articles database).sorted (some (text "create_time"))
        database.storedArticles =
      some
        (orderBy Article.createTime
          (fun article => database.tieRank article.id)
          database.storedArticles) := by
  apply Table.sorted_of_text
  simp [Table.column, Table.articles]

theorem sorted_hotArticles :
    (Table.articles database).sorted (some (text "view_count"))
        database.storedArticles =
      some
        (orderBy Article.viewCount
          (fun article => database.tieRank article.id)
          database.storedArticles) := by
  apply Table.sorted_of_number
  simp [Table.column, Table.articles]

theorem sorted_comments (articleId : Int) :
    (Table.comments database).sorted (some (text "create_time"))
        (database.storedComments.filter fun comment =>
          comment.articleId = articleId) =
      some (database.storedCommentsOf articleId) := by
  apply Table.sorted_of_text
  simp [Table.column, Table.comments]

end Columns

/-! ## The statements -/

/-- The statements that no service sends, as what they say. -/
def unsentSql (other : Sql → World → Option (List Row) × World)
    (statement : Statement) (world : World) :
    Option (List Row) × World :=
  match statement.meaning with
  | some sql => other sql world
  | none => (none, world)

/-- Running what a statement says is what the statement does. -/
theorem execute_meaning
    (other : Sql → World → Option (List Row) × World)
    (statement : Statement) (world : World) :
    (match statement.meaning with
      | some sql => executeSql other sql world
      | none => (none, world)) =
      statement.execute (unsentSql other) world := by
  cases statement with
  | countArticles =>
      simp [Statement.meaning, Statement.execute, executeSql, selectFrom,
        Table.select, Table.filtered, Table.sorted, Table.shown,
        Table.limited]
  | selectArticles pageSize offset =>
      by_cases negative : offset < 0 ∨ pageSize < 0
      · simp [Statement.meaning, Statement.execute,
          Database.selectArticles, negative]
      · simp [Statement.meaning, Statement.execute, executeSql,
          selectFrom, Database.selectArticles, Database.storedPage,
          negative, Table.select, Table.filtered, sorted_articles,
          shown_articles, Table.limited, List.map_take, List.map_drop]
  | selectArticle id =>
      simp [Statement.meaning, Statement.execute, executeSql, selectFrom,
        Table.select, filtered_articles, Table.sorted, shown_articles,
        Table.limited, Database.selectArticle]
  | insertArticle article =>
      simp [Statement.meaning, Statement.execute, executeSql, unsentSql,
        insertedComment, insertedValue]
  | addViewCount id delta => rfl
  | setViewCount id count =>
      simp [Statement.meaning, Statement.execute, executeSql, idIs]
  | selectComments articleId limit =>
      by_cases negative : limit < 0
      · simp [Statement.meaning, Statement.execute,
          Database.selectComments, negative]
      · simp [Statement.meaning, Statement.execute, executeSql,
          selectFrom, negative, Table.select, filtered_comments,
          sorted_comments, shown_comments, Table.limited,
          Database.selectComments, List.map_take]
  | insertComment comment =>
      -- id and time of the new row come from the server
      have sameRow :
          world.database.createComment
              { articleId := comment.articleId
                content := comment.content
                commenter := comment.commenter }
              (world.accepts world.ticks) world.now =
            world.database.createComment comment
              (world.accepts world.ticks) world.now :=
        rfl
      simp [Statement.meaning, Statement.execute, executeSql,
        insertedComment, insertedValue, sameRow]
  | countComments articleId =>
      simp [Statement.meaning, Statement.execute, executeSql, selectFrom,
        Table.select, filtered_comments, Table.sorted, Table.shown,
        Table.limited, Database.countComments]
  | selectHotArticles limit =>
      by_cases negative : limit < 0
      · simp [Statement.meaning, Statement.execute,
          Database.selectHotArticles, negative]
      · simp [Statement.meaning, Statement.execute, executeSql,
          selectFrom, negative, Table.select, Table.filtered,
          sorted_hotArticles, shown_articles, Table.limited,
          Database.selectHotArticles, Database.storedHotArticles,
          List.map_take]

/--
The text of any statement is read as what the operation meant, and served as
`Statement.execute` says, whatever stands in the content.
-/
theorem texts_served
    {escape : Text → Text} (escapes : Escapes escape)
    (other : Sql → World → Option (List Row) × World)
    (statement : Statement) (world : World) :
    Sql.read mysqlQuoting (cString (statement.sql escape)) =
        statement.meaning ∧
      serveText other (cString (statement.sql escape)) world =
        statement.execute (unsentSql other) world := by
  have read :
      Sql.read mysqlQuoting (cString (statement.sql escape)) =
        statement.meaning := by
    rw [cString_sql escapes, read_sql escapes]
  refine ⟨read, ?_⟩
  rw [serveText, read]
  exact execute_meaning other statement world

/-- The content tries to end its quotes, and begins a comment. -/
def hostileComment : Comment where
  articleId := 1
  content :=
    text "'); DROP TABLE articles; -- " ++ [Char.ofNat 0, Json.backslash]
  commenter := text "O'Neil"

def greetedArticle : Database where
  storedArticles := [{ id := 1, title := ['H', 'i'] }]
  storedComments := [{ id := 1, articleId := 1, content := ['H', 'o'] }]
  nextCommentId := 2
  tieRank := fun id => id
  storedArticleIds := by decide
  storedArticlesFit := by decide
  storedCommentIds := by decide
  storedCommentsFit := by decide
  storedCommentsBelow := by decide

theorem texts_served_of_hostileComment :
    Sql.read mysqlQuoting
        (cString
          (Statement.sql mysqlQuoting.escape
            (.insertComment hostileComment))) =
        Statement.meaning (.insertComment hostileComment) ∧
      serveText (fun _ world => (none, world))
          (cString
            (Statement.sql mysqlQuoting.escape
              (.insertComment hostileComment)))
          (.initial greetedArticle (fun _ => []) fun _ => true) =
        Statement.execute (unsentSql fun _ world => (none, world))
          (.insertComment hostileComment)
          (.initial greetedArticle (fun _ => []) fun _ => true) :=
  texts_served (fun _ => rfl) (fun _ world => (none, world))
    (.insertComment hostileComment)
    (.initial greetedArticle (fun _ => []) fun _ => true)

end LightningServer.Store
