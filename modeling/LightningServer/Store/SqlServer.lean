import LightningServer.Foundation.SqlGrammar
import LightningServer.Store.Driver

/-!
# MySQL, on the text of a statement

`Statement.execute` gives each kind of statement its own result.  Here the
server gets the text: it reads it with the quoting of MySQL's default SQL
mode, in which a backslash marks a letter, and runs what it has read by the
rules of SELECT, INSERT and UPDATE on the columns of the two tables.  What
these tables do not say, such as an INSERT into `articles`, is left to
`other`.
-/

namespace LightningServer.Store

open LightningServer.Foundation
open LightningServer.Foundation.Numerals
open LightningServer.Foundation.SqlText

/-! ## Quoting -/

/-- The symbols that `mysql_real_escape_string` encodes, and their letters. -/
def mysqlEscapes : List (Char × Char) :=
  [(Char.ofNat 0, '0'), (Char.ofNat 10, 'n'), (Char.ofNat 13, 'r'),
    (Char.ofNat 26, 'Z'), (Json.backslash, Json.backslash),
    (Json.quote, Json.quote), (Char.ofNat 39, Char.ofNat 39)]

/-- The letters that a string literal may have after a backslash. -/
def mysqlLetters : List (Char × Char) :=
  mysqlEscapes ++ [(Char.ofNat 8, 'b'), (Char.ofNat 9, 't')]

/-- Any other letter stands for itself; these two keep the backslash. -/
def mysqlDecode (letter : Char) : Text :=
  match mysqlLetters.find? fun pair => pair.2 = letter with
  | some pair => [pair.1]
  | none =>
      if letter = '%' ∨ letter = '_' then [Json.backslash, letter]
      else [letter]

theorem mysqlDecode_of_mem :
    ∀ pair ∈ mysqlEscapes, mysqlDecode pair.2 = [pair.1] := by
  decide

def mysqlQuoting : Quoting where
  quote := Char.ofNat 39
  mark := Json.backslash
  letter symbol :=
    (mysqlEscapes.find? fun pair => pair.1 = symbol).map Prod.snd
  decode := mysqlDecode
  quote_isCoded := by decide
  mark_isCoded := by decide
  decode_letter := by
    intro symbol code found
    rcases Option.map_eq_some_iff.mp found with ⟨pair, isPair, rfl⟩
    have same : pair.1 = symbol := by
      simpa using List.find?_some isPair
    rw [← same]
    exact mysqlDecode_of_mem pair (List.mem_of_find?_eq_some isPair)

/-! ## Tables -/

inductive Column (Entry : Type) where
  | number (read : Entry → Int)
  | text (read : Entry → Text)

/-- The columns of a table, and the order of rows that compare equal. -/
structure Table (Entry : Type) where
  columns : List (Text × Column Entry)
  rank : Entry → Int

namespace Table

variable {Entry : Type}

def column (table : Table Entry) (name : Text) : Option (Column Entry) :=
  (table.columns.find? fun pair => pair.1 = name).map Prod.snd

def articles (database : Database) : Table Article where
  columns :=
    [(text "id", .number Article.id),
      (text "title", .text Article.title),
      (text "content", .text Article.content),
      (text "author", .text Article.author),
      (text "create_time", .text Article.createTime),
      (text "update_time", .text Article.updateTime),
      (text "view_count", .number Article.viewCount)]
  rank article := database.tieRank article.id

def comments (database : Database) : Table Comment where
  columns :=
    [(text "id", .number Comment.id),
      (text "article_id", .number Comment.articleId),
      (text "content", .text Comment.content),
      (text "commenter", .text Comment.commenter),
      (text "create_time", .text Comment.createTime)]
  rank comment := database.tieRank comment.id

end Table

/-- The column of a row, as it is sent. -/
def Column.cell {Entry : Type} : Column Entry → Entry → Option Text
  | .number read, entry => some (decimal (read entry))
  | .text read, entry => some (read entry)

/-! ## SELECT -/

namespace Table

variable {Entry : Type} (table : Table Entry)

/-- WHERE; only a column of numbers is compared with a number. -/
def filtered (condition : Option Condition) (entries : List Entry) :
    Option (List Entry) :=
  match condition with
  | none => some entries
  | some condition =>
      match table.column condition.column with
      | some (.number read) =>
          some (entries.filter fun entry => read entry = condition.value)
      | _ => none

/-- ORDER BY … DESC -/
def sorted (order : Option Text) (entries : List Entry) :
    Option (List Entry) :=
  match order with
  | none => some entries
  | some name =>
      match table.column name with
      | some (.number read) => some (orderBy read table.rank entries)
      | some (.text read) => some (orderBy read table.rank entries)
      | none => none

def shown (fields : Fields) (entries : List Entry) :
    Option (List Row) :=
  match fields with
  | .count => some [[some (decimal entries.length)]]
  | .columns first others =>
      ((first :: others).mapM table.column).map fun columns =>
        entries.map fun entry => columns.map fun column =>
          column.cell entry

def limited (limit : Option Limit) (rows : List Row) : List Row :=
  match limit with
  | none => rows
  | some limit => (rows.drop (limit.offset.getD 0)).take limit.count

def select (query : Select) (entries : List Entry) :
    Option (List Row) := do
  let kept ← table.filtered query.condition entries
  let sorted ← table.sorted query.order kept
  let rows ← table.shown query.fields sorted
  return limited query.limit rows

variable {table} {name : Text} {entries : List Entry}

theorem filtered_of_number
    {read : Entry → Int}
    (isColumn : table.column name = some (.number read)) (value : Int) :
    table.filtered (some { column := name, value := value }) entries =
      some (entries.filter fun entry => read entry = value) := by
  simp only [filtered, isColumn]

theorem sorted_of_number
    {read : Entry → Int}
    (isColumn : table.column name = some (.number read)) :
    table.sorted (some name) entries =
      some (orderBy read table.rank entries) := by
  simp only [sorted, isColumn]

theorem sorted_of_text
    {read : Entry → Text}
    (isColumn : table.column name = some (.text read)) :
    table.sorted (some name) entries =
      some (orderBy read table.rank entries) := by
  simp only [sorted, isColumn]

end Table

/-! ## Statements -/

/-- The value that an INSERT has for a column. -/
def insertedValue (values : List (Text × Literal)) (name : String) :
    Option Literal :=
  (values.find? fun pair => pair.1 = text name).map Prod.snd

/-- The row of an INSERT that names the columns without a default. -/
def insertedComment (values : List (Text × Literal)) : Option Comment :=
  match insertedValue values "article_id", insertedValue values "content",
      insertedValue values "commenter" with
  | some (.number articleId), some (.quoted content),
      some (.quoted commenter) =>
      if values.length = 3 then
        some
          { articleId := articleId, content := content
            commenter := commenter }
      else none
  | _, _, _ => none

/-- What the server does with a statement that it has read. -/
def executeSql (other : Sql → World → Option (List Row) × World)
    (sql : Sql) (world : World) : Option (List Row) × World :=
  match sql with
  | .select query =>
      if query.table = text "articles" then
        ((Table.articles world.database).select query
          world.database.storedArticles, world)
      else if query.table = text "comments" then
        ((Table.comments world.database).select query
          world.database.storedComments, world)
      else (none, world)
  | .insert table first others =>
      match insertedComment (first :: others) with
      | some comment =>
          if table = text "comments" then
            world.onUpdate
              (world.database.createComment comment
                (world.accepts world.ticks) world.now)
          else other sql world
      | none => other sql world
  | .update table column (.constant count) condition =>
      if table = text "articles" ∧ column = text "view_count" ∧
          condition.column = text "id" then
        world.onUpdate
          (world.database.setViewCount condition.value count world.now)
      else other sql world
  | .update _ _ (.sum _ _) _ => other sql world

/-- What it does with a text; one that it cannot read is an error. -/
def serveText (other : Sql → World → Option (List Row) × World)
    (content : Text) (world : World) : Option (List Row) × World :=
  match Sql.read mysqlQuoting content with
  | some sql => executeSql other sql world
  | none => (none, world)

end LightningServer.Store
