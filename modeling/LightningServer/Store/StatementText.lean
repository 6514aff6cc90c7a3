import LightningServer.Store.MockTransparency
import LightningServer.Store.SqlServer

/-!
# The texts of the statements

`Statement.sql` is the text that an operation of `DatabaseProxy` writes, with
the names, texts and numbers of its arguments put between fixed pieces.
Content of a user goes through `escapeString`; the escaping itself is the
library's, of which only the documented table is used.

Whatever the content is, the server reads the statement that was meant, and
does with it what `Statement.execute` says.  A negative LIMIT or OFFSET cannot
be written, and such a text is an error.
-/

namespace LightningServer.Store

open LightningServer.Foundation
open LightningServer.Foundation.Numerals
open LightningServer.Foundation.SqlText
open LightningServer.Foundation.SqlText.Lexer

/-! ## Translation of the source -/

section Texts

-- `mysql_real_escape_string`
variable (escape : Text → Text)

def escapeString (raw : Text) : Text :=
  if raw = [] then raw else escape raw

def articleColumns : Text :=
  text
    "SELECT id, title, content, author, create_time, update_time, view_count "

def commentColumns : Text :=
  text
    "SELECT id, article_id, content, commenter, create_time FROM comments "

/-- The string that the operation hands to `mysql_query`. -/
def Statement.sql : Statement → Text
  | .countArticles => text "SELECT COUNT(*) FROM articles"
  | .selectArticles pageSize offset =>
      articleColumns ++
        text "FROM articles ORDER BY create_time DESC LIMIT " ++
        decimal pageSize ++ text " OFFSET " ++ decimal offset
  | .selectArticle id =>
      articleColumns ++ text "FROM articles WHERE id = " ++ decimal id
  | .insertArticle article =>
      text "INSERT INTO articles (title, content, author) VALUES ('" ++
        escapeString escape article.title ++ text "', '" ++
        escapeString escape article.content ++ text "', '" ++
        escapeString escape article.author ++ text "')"
  | .addViewCount id delta =>
      text "UPDATE articles SET view_count = view_count + " ++
        decimal delta ++ text " WHERE id = " ++ decimal id
  | .setViewCount id count =>
      text "UPDATE articles SET view_count = " ++ decimal count ++
        text " WHERE id = " ++ decimal id
  | .selectComments articleId limit =>
      commentColumns ++ text "WHERE article_id = " ++ decimal articleId ++
        text " ORDER BY create_time DESC LIMIT " ++ decimal limit
  | .insertComment comment =>
      text
        "INSERT INTO comments (article_id, content, commenter) VALUES (" ++
        decimal comment.articleId ++ text ", '" ++
        escapeString escape comment.content ++ text "', '" ++
        escapeString escape comment.commenter ++ text "')"
  | .countComments articleId =>
      text "SELECT COUNT(*) FROM comments WHERE article_id = " ++
        decimal articleId
  | .selectHotArticles limit =>
      articleColumns ++
        text "FROM articles ORDER BY view_count DESC LIMIT " ++
        decimal limit

end Texts

/-! ## What the statements say -/

def articleFields : Fields :=
  .columns (text "id")
    [text "title", text "content", text "author", text "create_time",
      text "update_time", text "view_count"]

def commentFields : Fields :=
  .columns (text "id")
    [text "article_id", text "content", text "commenter",
      text "create_time"]

/-- A SELECT from one of the tables, without the clauses. -/
def selectFrom (fields : Fields) (table : String) : Select where
  fields := fields
  table := text table
  condition := none
  order := none
  limit := none

def idIs (id : Int) : Condition where
  column := text "id"
  value := id

def articleIs (articleId : Int) : Condition where
  column := text "article_id"
  value := articleId

/-- Nothing, if a number cannot be written where it stands. -/
def Statement.meaning : Statement → Option Sql
  | .countArticles => some (.select (selectFrom .count "articles"))
  | .selectArticles pageSize offset =>
      if offset < 0 ∨ pageSize < 0 then none
      else
        some (.select
          { selectFrom articleFields "articles" with
            order := some (text "create_time")
            limit :=
              some { count := pageSize.toNat, offset := offset.toNat } })
  | .selectArticle id =>
      some (.select
        { selectFrom articleFields "articles" with
          condition := some (idIs id) })
  | .insertArticle article =>
      some (.insert (text "articles")
        (text "title", .quoted article.title)
        [(text "content", .quoted article.content),
          (text "author", .quoted article.author)])
  | .addViewCount id delta =>
      some (.update (text "articles") (text "view_count")
        (.sum (text "view_count") delta) (idIs id))
  | .setViewCount id count =>
      some (.update (text "articles") (text "view_count")
        (.constant count) (idIs id))
  | .selectComments articleId limit =>
      if limit < 0 then none
      else
        some (.select
          { selectFrom commentFields "comments" with
            condition := some (articleIs articleId)
            order := some (text "create_time")
            limit := some { count := limit.toNat, offset := none } })
  | .insertComment comment =>
      some (.insert (text "comments")
        (text "article_id", .number comment.articleId)
        [(text "content", .quoted comment.content),
          (text "commenter", .quoted comment.commenter)])
  | .countComments articleId =>
      some (.select
        { selectFrom .count "comments" with
          condition := some (articleIs articleId) })
  | .selectHotArticles limit =>
      if limit < 0 then none
      else
        some (.select
          { selectFrom articleFields "articles" with
            order := some (text "view_count")
            limit := some { count := limit.toNat, offset := none } })

/-- The tokens of the text, also where a number cannot stand. -/
def Statement.tokens : Statement → List Token
  | .selectArticles pageSize offset =>
      { selectFrom articleFields "articles" with
        order := some (text "create_time") }.body ++
        word "LIMIT" ::
          (numberTokens pageSize ++ word "OFFSET" :: numberTokens offset)
  | .selectComments articleId limit =>
      { selectFrom commentFields "comments" with
        condition := some (articleIs articleId)
        order := some (text "create_time") }.body ++
        word "LIMIT" :: numberTokens limit
  | .selectHotArticles limit =>
      { selectFrom articleFields "articles" with
        order := some (text "view_count") }.body ++
        word "LIMIT" :: numberTokens limit
  | statement => (statement.meaning.map Sql.tokens).getD []

theorem statement_tokens (statement : Statement) :
    Grammar.statement statement.tokens = statement.meaning := by
  cases statement with
  | selectArticles pageSize offset =>
      rw [Statement.tokens, Grammar.statement_limit, Grammar.limit_offset,
        Statement.meaning]
      split
      · rfl
      · rfl
  | selectComments articleId limit =>
      rw [Statement.tokens, Grammar.statement_limit,
        Grammar.limit_numberTokens, Statement.meaning]
      split
      · rfl
      · rfl
  | selectHotArticles limit =>
      rw [Statement.tokens, Grammar.statement_limit,
        Grammar.limit_numberTokens, Statement.meaning]
      split
      · rfl
      · rfl
  | _ =>
      simp [Statement.tokens, Statement.meaning, Grammar.statement_tokens]

/-! ## The fixed pieces -/

/-- How the pieces between the values are read on their own. -/
structure FixedPieces : Prop where
  articles :
    run mysqlQuoting { tokens := [], mode := .between } articleColumns =
      some
        { tokens := word "SELECT" :: articleFields.tokens
          mode := .between }
  newest :
    run mysqlQuoting { tokens := [], mode := .between }
        (text "FROM articles ORDER BY create_time DESC LIMIT ") =
      some
        { tokens :=
            [word "FROM", word "articles", word "ORDER", word "BY",
              word "create_time", word "DESC", word "LIMIT"]
          mode := .between }
  hottest :
    run mysqlQuoting { tokens := [], mode := .between }
        (text "FROM articles ORDER BY view_count DESC LIMIT ") =
      some
        { tokens :=
            [word "FROM", word "articles", word "ORDER", word "BY",
              word "view_count", word "DESC", word "LIMIT"]
          mode := .between }
  offsets :
    run mysqlQuoting { tokens := [], mode := .between }
        (text " OFFSET ") =
      some { tokens := [word "OFFSET"], mode := .between }
  found :
    run mysqlQuoting { tokens := [], mode := .between }
        (text "FROM articles WHERE id = ") =
      some
        { tokens :=
            [word "FROM", word "articles", word "WHERE", word "id",
              .sign '=']
          mode := .between }
  adds :
    run mysqlQuoting { tokens := [], mode := .between }
        (text "UPDATE articles SET view_count = view_count + ") =
      some
        { tokens :=
            [word "UPDATE", word "articles", word "SET",
              word "view_count", .sign '=', word "view_count",
              .sign '+']
          mode := .between }
  sets :
    run mysqlQuoting { tokens := [], mode := .between }
        (text "UPDATE articles SET view_count = ") =
      some
        { tokens :=
            [word "UPDATE", word "articles", word "SET",
              word "view_count", .sign '=']
          mode := .between }
  whereId :
    run mysqlQuoting { tokens := [], mode := .between }
        (text " WHERE id = ") =
      some
        { tokens := [word "WHERE", word "id", .sign '=']
          mode := .between }
  comments :
    run mysqlQuoting { tokens := [], mode := .between } commentColumns =
      some
        { tokens :=
            word "SELECT" :: (commentFields.tokens ++
              [word "FROM", word "comments"])
          mode := .between }
  whereArticle :
    run mysqlQuoting { tokens := [], mode := .between }
        (text "WHERE article_id = ") =
      some
        { tokens := [word "WHERE", word "article_id", .sign '=']
          mode := .between }
  newestFirst :
    run mysqlQuoting { tokens := [], mode := .between }
        (text " ORDER BY create_time DESC LIMIT ") =
      some
        { tokens :=
            [word "ORDER", word "BY", word "create_time", word "DESC",
              word "LIMIT"]
          mode := .between }
  counts :
    run mysqlQuoting { tokens := [], mode := .between }
        (text "SELECT COUNT(*) FROM comments WHERE article_id = ") =
      some
        { tokens :=
            word "SELECT" :: (Fields.count.tokens ++
              [word "FROM", word "comments", word "WHERE",
                word "article_id", .sign '='])
          mode := .between }
  insertsArticle :
    run mysqlQuoting { tokens := [], mode := .between }
        (text
          "INSERT INTO articles (title, content, author) VALUES ('") =
      some
        { tokens :=
            [word "INSERT", word "INTO", word "articles", .sign '(',
              word "title", .sign ',', word "content", .sign ',',
              word "author", .sign ')', word "VALUES", .sign '(']
          mode := .inQuotes [] }
  insertsComment :
    run mysqlQuoting { tokens := [], mode := .between }
        (text
          "INSERT INTO comments (article_id, content, commenter) VALUES (") =
      some
        { tokens :=
            [word "INSERT", word "INTO", word "comments", .sign '(',
              word "article_id", .sign ',', word "content", .sign ',',
              word "commenter", .sign ')', word "VALUES", .sign '(']
          mode := .between }
  next :
    run mysqlQuoting { tokens := [], mode := .between } (text ", '") =
      some { tokens := [.sign ','], mode := .inQuotes [] }
  last :
    run mysqlQuoting { tokens := [], mode := .between } (text ")") =
      some { tokens := [.sign ')'], mode := .between }

/-- The symbols of a literal, which are not decoded for it. -/
theorem text_ofList (symbols : Text) :
    text (String.ofList symbols) = symbols :=
  String.toList_ofList

theorem run_text
    {symbols : Text} {later : Lexer}
    (read :
      run mysqlQuoting { tokens := [], mode := .between } symbols =
        some later) :
    run mysqlQuoting { tokens := [], mode := .between }
        (text (String.ofList symbols)) =
      some later := by
  rw [text_ofList]
  exact read

theorem fixedPieces : FixedPieces := by
  constructor <;> exact run_text (by decide)

/-- What a fixed piece begins with. -/
theorem head_text
    {symbol : Char} {rest : Text} {test : Char → Bool}
    (fails : test symbol = false) :
    (text (String.ofList (symbol :: rest))).head?.map test =
      some false := by
  rw [text_ofList]
  exact congrArg some fails

/-- The quote after one value of an INSERT, and what leads to the next. -/
theorem quoteNext :
    text "', '" = mysqlQuoting.quote :: text ", '" := by
  decide +kernel

/-- The quote after the last value, and the end of the text. -/
theorem quoteLast :
    text "')" = mysqlQuoting.quote :: text ")" ++ [] := by
  decide +kernel

theorem quote_ne_minus : mysqlQuoting.quote ≠ '-' := by
  decide

theorem mark_ne_quote : mysqlQuoting.mark ≠ mysqlQuoting.quote := by
  decide

/-! ## Reading the texts -/

/-- What the code relies on in `mysql_real_escape_string`. -/
def Escapes (escape : Text → Text) : Prop :=
  ∀ raw, escape raw = mysqlQuoting.escape raw

section Reading

variable {escape : Text → Text}

theorem lex_countArticles :
    lex mysqlQuoting (Statement.sql escape .countArticles) =
      some (Statement.tokens .countArticles) := by
  have read {symbols : Text} {tokens : List Token}
      (symbolsRead : lex mysqlQuoting symbols = some tokens) :
      lex mysqlQuoting (text (String.ofList symbols)) = some tokens := by
    rw [text_ofList]
    exact symbolsRead
  exact read (by decide)

section

variable (pieces : FixedPieces)
include pieces

theorem lex_selectArticles (pageSize offset : Int) :
    lex mysqlQuoting
        (Statement.sql escape (.selectArticles pageSize offset)) =
      some (Statement.tokens (.selectArticles pageSize offset)) := by
  simp only [Statement.sql, lex, List.append_assoc]
  rw [lexFrom_piece pieces.articles, after_mk,
    lexFrom_piece pieces.newest, after_mk,
    lexFrom_decimal_append quote_ne_minus (head_text rfl)
      pieces.offsets, after_mk,
    lexFrom_decimal quote_ne_minus]
  simp [Statement.tokens, Select.body, selectFrom, clauseTokens,
    orderTokens, word]

theorem lex_selectArticle (id : Int) :
    lex mysqlQuoting (Statement.sql escape (.selectArticle id)) =
      some (Statement.tokens (.selectArticle id)) := by
  simp only [Statement.sql, lex, List.append_assoc]
  rw [lexFrom_piece pieces.articles, after_mk,
    lexFrom_piece pieces.found, after_mk,
    lexFrom_decimal quote_ne_minus]
  simp [Statement.tokens, Statement.meaning, Sql.tokens,
    Select.tokens, Select.body, selectFrom, clauseTokens,
    Condition.tokens, idIs, word]

theorem lex_addViewCount (id delta : Int) :
    lex mysqlQuoting (Statement.sql escape (.addViewCount id delta)) =
      some (Statement.tokens (.addViewCount id delta)) := by
  simp only [Statement.sql, lex, List.append_assoc]
  rw [lexFrom_piece pieces.adds, after_mk,
    lexFrom_decimal_append quote_ne_minus (head_text rfl)
      pieces.whereId,
    after_mk, lexFrom_decimal quote_ne_minus]
  simp [Statement.tokens, Statement.meaning, Sql.tokens,
    Expression.tokens, Condition.tokens, idIs, word]

theorem lex_setViewCount (id count : Int) :
    lex mysqlQuoting (Statement.sql escape (.setViewCount id count)) =
      some (Statement.tokens (.setViewCount id count)) := by
  simp only [Statement.sql, lex, List.append_assoc]
  rw [lexFrom_piece pieces.sets, after_mk,
    lexFrom_decimal_append quote_ne_minus (head_text rfl)
      pieces.whereId,
    after_mk, lexFrom_decimal quote_ne_minus]
  simp [Statement.tokens, Statement.meaning, Sql.tokens,
    Expression.tokens, Condition.tokens, idIs, word]

theorem lex_selectComments (articleId limit : Int) :
    lex mysqlQuoting
        (Statement.sql escape (.selectComments articleId limit)) =
      some (Statement.tokens (.selectComments articleId limit)) := by
  simp only [Statement.sql, lex, List.append_assoc]
  rw [lexFrom_piece pieces.comments, after_mk,
    lexFrom_piece pieces.whereArticle, after_mk,
    lexFrom_decimal_append quote_ne_minus (head_text rfl)
      pieces.newestFirst, after_mk,
    lexFrom_decimal quote_ne_minus]
  simp [Statement.tokens, Select.body, selectFrom, clauseTokens,
    Condition.tokens, orderTokens, articleIs, word]

theorem lex_countComments (articleId : Int) :
    lex mysqlQuoting (Statement.sql escape (.countComments articleId)) =
      some (Statement.tokens (.countComments articleId)) := by
  simp only [Statement.sql, lex]
  rw [lexFrom_piece pieces.counts, after_mk, lexFrom_decimal quote_ne_minus]
  simp [Statement.tokens, Statement.meaning, Sql.tokens,
    Select.tokens, Select.body, selectFrom, clauseTokens,
    Condition.tokens, articleIs, word]

theorem lex_selectHotArticles (limit : Int) :
    lex mysqlQuoting (Statement.sql escape (.selectHotArticles limit)) =
      some (Statement.tokens (.selectHotArticles limit)) := by
  simp only [Statement.sql, lex, List.append_assoc]
  rw [lexFrom_piece pieces.articles, after_mk,
    lexFrom_piece pieces.hottest, after_mk,
    lexFrom_decimal quote_ne_minus]
  simp [Statement.tokens, Select.body, selectFrom, clauseTokens,
    orderTokens, word]

end

variable (escapes : Escapes escape)
include escapes

theorem escapeString_eq (raw : Text) :
    escapeString escape raw = mysqlQuoting.escape raw := by
  unfold escapeString
  split
  · next empty =>
      rw [empty]
      rfl
  · exact escapes raw

theorem lex_insertArticle
    (pieces : FixedPieces) (article : Article) :
    lex mysqlQuoting (Statement.sql escape (.insertArticle article)) =
      some (Statement.tokens (.insertArticle article)) := by
  simp only [Statement.sql, lex, List.append_assoc,
    escapeString_eq escapes, quoteNext, quoteLast]
  rw [lexFrom_piece pieces.insertsArticle, after_mk,
    lexFrom_escape_append mark_ne_quote (head_text rfl)
      pieces.next, after_mk,
    lexFrom_escape_append mark_ne_quote (head_text rfl)
      pieces.next, after_mk,
    lexFrom_escape_append mark_ne_quote (head_text rfl)
      pieces.last, after_mk,
    lexFrom_nil]
  simp [Statement.tokens, Statement.meaning, Sql.tokens, namesTokens,
    othersTokens, Literal.tokens, word]

theorem lex_insertComment
    (pieces : FixedPieces) (comment : Comment) :
    lex mysqlQuoting (Statement.sql escape (.insertComment comment)) =
      some (Statement.tokens (.insertComment comment)) := by
  simp only [Statement.sql, lex, List.append_assoc,
    escapeString_eq escapes, quoteNext, quoteLast]
  rw [lexFrom_piece pieces.insertsComment, after_mk,
    lexFrom_decimal_append quote_ne_minus (head_text rfl)
      pieces.next, after_mk,
    lexFrom_escape_append mark_ne_quote (head_text rfl)
      pieces.next, after_mk,
    lexFrom_escape_append mark_ne_quote (head_text rfl)
      pieces.last, after_mk,
    lexFrom_nil]
  simp [Statement.tokens, Statement.meaning, Sql.tokens, namesTokens,
    othersTokens, Literal.tokens, word]

/-- The lexer finds the tokens, whatever the content is. -/
theorem lex_sql (statement : Statement) :
    lex mysqlQuoting (statement.sql escape) = some statement.tokens := by
  cases statement with
  | countArticles => exact lex_countArticles
  | selectArticles pageSize offset =>
      exact lex_selectArticles fixedPieces pageSize offset
  | selectArticle id => exact lex_selectArticle fixedPieces id
  | insertArticle article => exact lex_insertArticle escapes fixedPieces article
  | addViewCount id delta => exact lex_addViewCount fixedPieces id delta
  | setViewCount id count => exact lex_setViewCount fixedPieces id count
  | selectComments articleId limit =>
      exact lex_selectComments fixedPieces articleId limit
  | insertComment comment => exact lex_insertComment escapes fixedPieces comment
  | countComments articleId => exact lex_countComments fixedPieces articleId
  | selectHotArticles limit => exact lex_selectHotArticles fixedPieces limit

/-- The server reads what was meant, and nothing where that cannot be. -/
theorem read_sql (statement : Statement) :
    Sql.read mysqlQuoting (statement.sql escape) = statement.meaning := by
  rw [Sql.read, lex_sql escapes]
  exact statement_tokens statement

/-! ## As a C string -/

omit escapes

theorem nulFree_append {first second : Text} :
    NulFree (first ++ second) ↔ NulFree first ∧ NulFree second := by
  simp only [NulFree, List.mem_append, not_or]

theorem nulFree_text {symbols : Text} (free : NulFree symbols) :
    NulFree (text (String.ofList symbols)) := by
  rw [text_ofList]
  exact free

theorem nulFree_decimal (number : Int) : NulFree (decimal number) := by
  have digits : NulFree (decimalNat number.natAbs) := by
    intro member
    exact absurd (decimalNat_isDigit _ _ member) (by decide)
  unfold decimal
  split
  · exact fun member =>
      (List.mem_cons.mp member).elim (by decide) digits
  · exact digits

/-- A NUL in the content is written as a letter. -/
theorem nulFree_escape (raw : Text) :
    NulFree (mysqlQuoting.escape raw) := by
  refine mysqlQuoting.notMem_escape (by decide) (by decide) ?_ raw
  intro other found
  rcases Option.map_eq_some_iff.mp found with ⟨pair, isPair, letter⟩
  have noNul : ∀ pair ∈ mysqlEscapes, pair.2 ≠ Char.ofNat 0 := by
    decide
  exact noNul pair (List.mem_of_find?_eq_some isPair) letter

include escapes

theorem nulFree_sql (statement : Statement) :
    NulFree (statement.sql escape) := by
  cases statement with
  | countArticles => exact nulFree_text (by decide)
  | _ =>
      simp only [Statement.sql, nulFree_append, nulFree_decimal,
        escapeString_eq escapes, nulFree_escape, and_true]
      and_intros <;> exact nulFree_text (by decide)

/-- `mysql_query` gets the whole text by `c_str()`. -/
theorem cString_sql (statement : Statement) :
    cString (statement.sql escape) = statement.sql escape :=
  cString_of_nulFree (nulFree_sql escapes statement)

end Reading

end LightningServer.Store
