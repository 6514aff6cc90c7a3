import LightningServer.Service.ArticleService

/-!
# The comment service

`getComments` reads the Redis list first and fills it from the database when
nothing could be read; the fill pushes one comment at a time at the head.
`createComment` inserts the row and then deletes the list.
-/

namespace LightningServer.Service.CommentService

open LightningServer.Foundation
open LightningServer.Foundation.Numerals
open LightningServer.Store

/-! ## Translation of the source -/

def commentListKey (articleId : Int) : Text :=
  text "comment:list:" ++ decimal articleId

def commentToJson (comment : Comment) : Json :=
  Json.ofFields
    [(text "id", .number comment.id),
      (text "articleId", .number comment.articleId),
      (text "content", .string comment.content),
      (text "commenter", .string comment.commenter),
      (text "createTime", .string comment.createTime)]

/-- `std::string::size` of a UTF-8 text. -/
def byteSize (content : Text) : Nat :=
  (content.map Char.utf8Size).sum

section

variable (json : JsonLibrary)

/-- The loop of `getComments` over the rows. -/
def fillLoop (articleId : Int) :
    List Comment → List Json → Service (List Json)
  | [], list => pure list
  | comment :: rest, list => do
      let item := commentToJson comment
      let _ ←
        Call.perform (.lpush (commentListKey articleId) (json.dump item))
      fillLoop articleId rest (list ++ [item])

/-- The block of `getComments` for an empty list. -/
def fill (articleId limit : Int) : Service (List Json) := do
  let comments ←
    Call.perform (.getCommentsByArticleId articleId limit)
  let list ← fillLoop json articleId comments []
  let _ ← Call.perform (.expire (commentListKey articleId) 1800)
  pure list

/-- The limit in force. -/
def clampLimit (limit : Int) : Int :=
  if limit < 1 ∨ 50 < limit then 20 else limit

def commentsResponse (list : List Json) (total : Int) : Json :=
  Json.ofFields
    [(text "code", .number 0),
      (text "data", Json.ofFields
        [(text "list", .array list), (text "total", .number total)])]

def getComments (articleId limit : Int) : Service Json := do
  let limit := clampLimit limit
  let cached ←
    Call.perform (.lrange (commentListKey articleId) 0 (limit - 1))
  -- an item that does not parse is skipped with a warning
  let list := cached.filterMap json.parse
  let list ←
    (if list.isEmpty then fill json articleId limit else pure list)
  let total ← Call.perform (.getCommentCount articleId)
  pure (commentsResponse list total)

end

def commentCreated (comment : Comment) : Json :=
  Json.ofFields
    [(text "code", .number 0), (text "data", commentToJson comment),
      (text "message", .string (text "Comment created"))]

def createComment (articleId : Int) (content commenter : Text) :
    Service Json := do
  if content = [] ∨ commenter = [] then
    pure (failure 400 (text "content and commenter are required"))
  else if 1000 < byteSize content then
    pure (failure 400 (text "content too long (max 1000 chars)"))
  else do
    let found ← Call.perform (.getArticleById articleId)
    match found with
    | none => pure (failure 404 (text "Article not found"))
    | some _ => do
        let comment : Comment :=
          { articleId := articleId, content := content
            commenter := commenter }
        let created ← Call.perform (.createComment comment)
        if created then do
          let now ← Call.perform .localTime
          let comment := { comment with createTime := now }
          let _ ← Call.perform (.del (commentListKey articleId))
          pure (commentCreated comment)
        else pure (failure 500 (text "Failed to create comment"))

end LightningServer.Service.CommentService
