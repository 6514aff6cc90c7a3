import LightningServer.Foundation.Interleaving
import LightningServer.Service.CommentCache

/-!
# Concurrent requests on the comments of one article

The threads of the pool are the programs of `getComments` and
`createComment`; each Redis or MySQL call is one move, and calls of different
requests interleave in any order.

A `Phase` says where in its code a request is, with the data it has at hand.
After its INSERT a phase also remembers the row, which the code does not: it
is there for the statements only.  `code` gives the program of a phase, and
every move of a program is the move of its phase.
-/

namespace LightningServer.Service

open LightningServer.Foundation
open LightningServer.Foundation.Numerals
open LightningServer.Foundation.Transition
open LightningServer.Store
open LightningServer.Service.CommentService

/-- A request on the comments of the article. -/
inductive CommentRequest where
  | getComments (limit : Int)
  | createComment (content commenter : Text)
deriving DecidableEq

/-- Where a request is in its code; the call named is the next one. -/
inductive Phase where
  /-- LRANGE -/
  | looking (limit : Int)
  /-- SELECT -/
  | selecting (limit : Int)
  /-- LPUSH of the comment -/
  | filling (comment : Comment) (rest : List Comment) (list : List Json)
  /-- EXPIRE -/
  | expiring (list : List Json)
  /-- SELECT COUNT -/
  | counting (list : List Json)
  /-- SELECT of the article -/
  | checking (comment : Comment)
  /-- INSERT -/
  | inserting (comment : Comment)
  /-- the clock; the row is in the table -/
  | stamping (row comment : Comment)
  /-- DEL -/
  | deleting (row comment : Comment)
  | finished (response : Json)

namespace Phase

section

variable (json : JsonLibrary) (articleId : Int)

/-- The end of `getComments`, once the list is known. -/
def countAndAnswer (list : List Json) : Service Json := do
  let total ← Call.perform (.getCommentCount articleId)
  pure (commentsResponse list total)

/-- The block of `getComments` for an empty list, from the EXPIRE on. -/
def expireAndAnswer (list : List Json) : Service Json := do
  let _ ← Call.perform (.expire (commentListKey articleId) 1800)
  countAndAnswer articleId list

/-- The fill loop and what follows it. -/
def fillAndAnswer (comments : List Comment) (list : List Json) :
    Service Json := do
  let list ← fillLoop json articleId comments list
  expireAndAnswer articleId list

/-- The code of `createComment` from the DEL on. -/
def deleteAndAnswer (comment : Comment) : Service Json := do
  let _ ← Call.perform (.del (commentListKey articleId))
  pure (commentCreated comment)

/-- The code of `createComment` after a successful INSERT. -/
def stampAndAnswer (comment : Comment) : Service Json := do
  let now ← Call.perform .localTime
  deleteAndAnswer articleId { comment with createTime := now }

/-- The code of `createComment` from the INSERT on. -/
def insertAndAnswer (comment : Comment) : Service Json := do
  let created ← Call.perform (.createComment comment)
  if created then stampAndAnswer articleId comment
  else pure (failure 500 (text "Failed to create comment"))

/-- The code that a request in this phase has left. -/
def code : Phase → Service Json
  | .looking limit => do
      let cached ←
        Call.perform (.lrange (commentListKey articleId) 0 (limit - 1))
      let list := cached.filterMap json.parse
      let list ←
        (if list.isEmpty then fill json articleId limit else pure list)
      countAndAnswer articleId list
  | .selecting limit => do
      let comments ←
        Call.perform (.getCommentsByArticleId articleId limit)
      fillAndAnswer json articleId comments []
  | .filling comment rest list =>
      fillAndAnswer json articleId (comment :: rest) list
  | .expiring list => expireAndAnswer articleId list
  | .counting list => countAndAnswer articleId list
  | .checking comment => do
      let found ← Call.perform (.getArticleById articleId)
      match found with
      | none => pure (failure 404 (text "Article not found"))
      | some _ => insertAndAnswer articleId comment
  | .inserting comment => insertAndAnswer articleId comment
  | .stamping _ comment => stampAndAnswer articleId comment
  | .deleting _ comment => deleteAndAnswer articleId comment
  | .finished response => pure response

/-- The program of a request. -/
def program : CommentRequest → Service Json
  | .getComments limit => getComments json articleId limit
  | .createComment content commenter =>
      createComment articleId content commenter

/-- The phase in which a request arrives. -/
def enter : CommentRequest → Phase
  | .getComments limit => .looking (clampLimit limit)
  | .createComment content commenter =>
      if content = [] ∨ commenter = [] then
        .finished (failure 400 (text "content and commenter are required"))
      else if 1000 < byteSize content then
        .finished (failure 400 (text "content too long (max 1000 chars)"))
      else
        .checking
          { articleId := articleId, content := content
            commenter := commenter }

/-- The phase of a fill with these rows left. -/
def pushing (comments : List Comment) (list : List Json) : Phase :=
  match comments with
  | [] => .expiring list
  | comment :: rest => .filling comment rest list

/-- One move. -/
def move (phase : Phase) (world : World) : Phase × World :=
  match phase with
  | .looking limit =>
      let list :=
        (world.redis.lrange (commentListKey articleId) 0
          (limit - 1)).filterMap json.parse
      (if list.isEmpty then .selecting limit else .counting list, world)
  | .selecting limit =>
      (pushing (world.database.getCommentsByArticleId articleId limit) [],
        world)
  | .filling comment rest list =>
      (pushing rest (list ++ [commentToJson comment]),
        { world with
          redis := (world.redis.lpush (commentListKey articleId)
            (cacheText json comment)).2 })
  | .expiring list =>
      (.counting list,
        { world with
          redis :=
            (world.redis.expire (commentListKey articleId) 1800).2 })
  | .counting list =>
      (.finished (commentsResponse list
        (world.database.getCommentCount articleId)), world)
  | .checking comment =>
      (match world.database.getArticleById articleId with
        | none => .finished (failure 404 (text "Article not found"))
        | some _ => .inserting comment, world)
  | .inserting comment =>
      let result :=
        world.database.createComment comment (world.accepts world.ticks)
          world.now
      (if result.1 then
          .stamping (world.database.newRow comment world.now).received
            comment
        else .finished (failure 500 (text "Failed to create comment")),
        (world.onDatabase result).2)
  | .stamping row comment =>
      (.deleting row { comment with createTime := world.now },
        { world with ticks := world.ticks + 1 })
  | .deleting _ comment =>
      (.finished (commentCreated comment),
        { world with
          redis := (world.redis.del (commentListKey articleId)).2 })
  | .finished response => (.finished response, world)

/-! ## Phases stand for code -/

theorem program_eq_code (request : CommentRequest) :
    program json articleId request =
      (enter articleId request).code json articleId := by
  cases request with
  | getComments limit => rfl
  | createComment content commenter =>
      simp only [program, enter, createComment]
      split
      · rfl
      · split
        · rfl
        · rfl

/-- How a request can start. -/
theorem enter_cases (request : CommentRequest) :
    (∃ limit, request = .getComments limit ∧
        enter articleId request = .looking (clampLimit limit)) ∨
      (∃ status message,
        enter articleId request = .finished (failure status message)) ∨
      ∃ comment, comment.articleId = articleId ∧
        enter articleId request = .checking comment := by
  cases request with
  | getComments limit => exact Or.inl ⟨limit, rfl, rfl⟩
  | createComment content commenter =>
      right
      simp only [enter]
      split
      · exact Or.inl ⟨_, _, rfl⟩
      · split
        · exact Or.inl ⟨_, _, rfl⟩
        · exact Or.inr ⟨_, rfl, rfl⟩

theorem code_pushing (comments : List Comment) (list : List Json) :
    (pushing comments list).code json articleId =
      fillAndAnswer json articleId comments list := by
  cases comments with
  | nil => rfl
  | cons comment rest => rfl

/-- A fill and what follows it, from the SELECT on. -/
theorem fill_bind_countAndAnswer (limit : Int) :
    fill json articleId limit >>= countAndAnswer articleId =
      (Phase.selecting limit).code json articleId := by
  simp only [fill, code, fillAndAnswer, expireAndAnswer,
    Program.perform_bind, Program.call_bind, Program.assoc]
  rfl

/-- Every move of the code is the move of its phase. -/
theorem move_code (phase : Phase) (world : World) :
    (phase.code json articleId).move exec world =
      ((phase.move json articleId world).1.code json articleId,
        (phase.move json articleId world).2) := by
  cases phase with
  | looking limit =>
      let list :=
        (world.redis.lrange (commentListKey articleId) 0
          (limit - 1)).filterMap json.parse
      have replied :
          ((looking limit).code json articleId).move exec world =
            ((if list.isEmpty then fill json articleId limit
                else pure list) >>= countAndAnswer articleId, world) :=
        rfl
      rw [replied]
      simp only [move]
      by_cases empty : list.isEmpty = true
      · rw [if_pos empty, if_pos empty, fill_bind_countAndAnswer]
      · rw [if_neg empty, if_neg empty]
        rfl
  | selecting limit =>
      simp only [move, code_pushing]
      rfl
  | filling comment rest list =>
      simp only [move, code_pushing]
      rfl
  | expiring list => rfl
  | counting list => rfl
  | checking comment =>
      simp only [code, move, Program.perform_bind, Program.move, exec]
      cases world.database.getArticleById articleId with
      | none => rfl
      | some article => rfl
  | inserting comment =>
      let result :=
        world.database.createComment comment
          (world.accepts world.ticks) world.now
      have replied :
          ((inserting comment).code json articleId).move exec world =
            (if result.1 then stampAndAnswer articleId comment
              else pure (failure 500 (text "Failed to create comment")),
              (world.onDatabase result).2) :=
        rfl
      rw [replied]
      simp only [move]
      by_cases created : result.1 = true
      · rw [if_pos created, if_pos created]
        rfl
      · rw [if_neg created, if_neg created]
        rfl
  | stamping row comment => rfl
  | deleting row comment => rfl
  | finished response => rfl

/-- The call that a request in this phase makes next. -/
def call? : Phase → Option Call
  | .looking limit =>
      some (.lrange (commentListKey articleId) 0 (limit - 1))
  | .selecting limit => some (.getCommentsByArticleId articleId limit)
  | .filling comment _ _ =>
      some (.lpush (commentListKey articleId) (cacheText json comment))
  | .expiring _ => some (.expire (commentListKey articleId) 1800)
  | .counting _ => some (.getCommentCount articleId)
  | .checking _ => some (.getArticleById articleId)
  | .inserting comment => some (.createComment comment)
  | .stamping _ _ => some .localTime
  | .deleting _ _ => some (.del (commentListKey articleId))
  | .finished _ => none

theorem nextCall_code (phase : Phase) :
    (phase.code json articleId).nextCall = phase.call? json articleId := by
  cases phase with
  | _ => rfl

/-- Code that has returned stands for a finished request. -/
theorem eq_finished_of_value?_code
    {phase : Phase} {response : Json}
    (returned : (phase.code json articleId).value? = some response) :
    phase = .finished response := by
  cases phase with
  | finished answered => exact congrArg finished (Option.some.inj returned)
  | _ => cases returned

end

end Phase

/-! ## Pools of requests -/

section

variable (json : JsonLibrary) (articleId : Int)

/-- A pool of request programs. -/
abbrev CommentPool := Pool (Service Json) World

/-- One event of the pool: a request arrives, or makes its next call. -/
def commentStep :
    CommentPool → PoolEvent CommentRequest → CommentPool :=
  Pool.step (Phase.program json articleId) (Program.move exec)

/-- One event, on phases. -/
def phaseStep :
    Pool Phase World → PoolEvent CommentRequest → Pool Phase World :=
  Pool.step (Phase.enter articleId) (Phase.move json articleId)

/-- The pool of programs after some events, and none at the start. -/
def commentRun (world : World) (events : List (PoolEvent CommentRequest)) :
    CommentPool :=
  run (commentStep json articleId) (.empty world) events

/-- The same, on phases. -/
def phaseRun (world : World) (events : List (PoolEvent CommentRequest)) :
    Pool Phase World :=
  run (phaseStep json articleId) (.empty world) events

/-- The programs after a run are the code of the phases after that run. -/
theorem commentRun_eq_map
    (world : World) (events : List (PoolEvent CommentRequest)) :
    commentRun json articleId world events =
      (phaseRun json articleId world events).map
        (Phase.code json articleId) :=
  Pool.run_map (Phase.program_eq_code json articleId)
    (Phase.move_code json articleId) (.empty world) events

variable {json} {articleId} in
/-- A condition on a run of the programs, read on the phases. -/
theorem along_phaseStep
    {condition : CommentPool → PoolEvent CommentRequest → Prop}
    (pool : Pool Phase World) {events : List (PoolEvent CommentRequest)}
    (guarded :
      Along (commentStep json articleId) condition
        (pool.map (Phase.code json articleId)) events) :
    Along (phaseStep json articleId)
      (fun pool event =>
        condition (pool.map (Phase.code json articleId)) event)
      pool events :=
  Pool.along_map (Phase.program_eq_code json articleId)
    (Phase.move_code json articleId) guarded

variable {json} {articleId} in
theorem finished_of_value?
    {pool : Pool Phase World} {index : Nat} {response : Json}
    (returned :
      (pool.map (Phase.code json articleId)).value? index =
        some response) :
    pool.threads[index]? = some (.finished response) := by
  rw [Pool.value?, Pool.map, List.getElem?_map] at returned
  rcases Option.bind_eq_some_iff.mp returned with ⟨code, there, value⟩
  rcases Option.map_eq_some_iff.mp there with ⟨phase, present, rfl⟩
  rw [Phase.eq_finished_of_value?_code json articleId value] at present
  exact present

/-- The next call of the thread is an LRANGE that returns nothing. -/
def findsNothing (pool : CommentPool) (index : Nat) : Bool :=
  match pool.nextCall? index with
  | some (.lrange key start stop) =>
      (pool.world.redis.lrange key start stop).isEmpty
  | _ => false

variable {json} {articleId} in
theorem findsNothing_of_looking
    {pool : Pool Phase World} {index : Nat} {limit : Int}
    (present : pool.threads[index]? = some (.looking limit)) :
    findsNothing (pool.map (Phase.code json articleId)) index =
      (pool.world.redis.lrange (commentListKey articleId) 0
        (limit - 1)).isEmpty := by
  have next :
      (pool.map (Phase.code json articleId)).nextCall? index =
        some (.lrange (commentListKey articleId) 0 (limit - 1)) := by
    rw [Pool.nextCall?_map present, Phase.nextCall_code]
    rfl
  rw [findsNothing, next]
  rfl

end

end LightningServer.Service
