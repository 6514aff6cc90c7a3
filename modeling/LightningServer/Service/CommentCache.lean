import LightningServer.Service.Forum

/-!
# The shape of the cached comment lists

A fill pushes the rows of a query one by one at the head of an empty list, so
the list holds them in reverse.  It is then read, but never pushed to again,
until it expires or an INSERT for its article deletes it: in every reachable
state the list is absent, or the reverse of a non-empty prefix of what the
proxy would receive now.
-/

namespace LightningServer.Service

open LightningServer.Foundation
open LightningServer.Foundation.Numerals
open LightningServer.Foundation.Transition
open LightningServer.Store
open LightningServer.Service.ArticleService
open LightningServer.Service.CommentService

namespace CommentService

/-! ## The JSON of a comment -/

theorem commentToJson_eq (comment : Comment) :
    commentToJson comment =
      .object
        [(text "articleId", .number comment.articleId),
          (text "commenter", .string comment.commenter),
          (text "content", .string comment.content),
          (text "createTime", .string comment.createTime),
          (text "id", .number comment.id)] := by
  rfl

theorem canonical_number {number : Int} (fits : IsInt number) :
    (Json.number number).Canonical := by
  rcases fits with ⟨low, high⟩
  constructor
  · omega
  · omega

theorem canonical_commentToJson
    {comment : Comment}
    (fits : IsInt comment.id ∧ IsInt comment.articleId) :
    (commentToJson comment).Canonical := by
  have sorted :
      [text "articleId", text "commenter", text "content",
          text "createTime", text "id"].Pairwise
        (fun left right => left < right) := by
    decide
  rw [commentToJson_eq]
  exact ⟨sorted, canonical_number fits.2, trivial, trivial, trivial,
    canonical_number fits.1, trivial⟩

theorem commentToJson_injective : Function.Injective commentToJson := by
  intro left right equal
  rw [commentToJson_eq, commentToJson_eq] at equal
  simp only [Json.object.injEq, List.cons.injEq, Prod.mk.injEq,
    Json.number.injEq, Json.string.injEq, true_and, and_true] at equal
  rcases left with ⟨id, articleId, content, commenter, createTime⟩
  rcases right with ⟨id', articleId', content', commenter', createTime'⟩
  simp only at equal
  rcases equal with ⟨rfl, rfl, rfl, rfl, rfl⟩
  rfl

section

variable (json : JsonLibrary)

/-- The text of a comment in Redis. -/
def cacheText (comment : Comment) : Text :=
  json.dump (commentToJson comment)

/-- Texts of rows are read back as their JSON. -/
theorem filterMap_parse_cacheText
    {database : Database} {comments : List Comment}
    (rows : ∀ comment ∈ comments, comment ∈ database.comments) :
    (comments.map (cacheText json)).filterMap json.parse =
      comments.map commentToJson := by
  induction comments with
  | nil => rfl
  | cons comment rest induction =>
      have fits :=
        database.commentsFit comment (rows comment List.mem_cons_self)
      have parsed :=
        json.parse_dump _ (canonical_commentToJson fits)
      rw [List.map_cons, List.filterMap_cons_some (by exact parsed),
        induction fun other member =>
          rows other (List.mem_cons_of_mem comment member)]
      rfl

/-- Different comments have different texts. -/
theorem cacheText_inj
    {left right : Comment}
    (leftFits : IsInt left.id ∧ IsInt left.articleId)
    (rightFits : IsInt right.id ∧ IsInt right.articleId)
    (equal : cacheText json left = cacheText json right) :
    left = right :=
  commentToJson_injective
    (json.dump_injective (canonical_commentToJson leftFits)
      (canonical_commentToJson rightFits) equal)

theorem nodup_cacheText
    {comments : List Comment}
    (fit :
      ∀ comment ∈ comments, IsInt comment.id ∧ IsInt comment.articleId)
    (distinct : (comments.map Comment.id).Nodup) :
    (comments.map (cacheText json)).Nodup := by
  apply List.Nodup.map_on
  · intro left leftMember right rightMember equal
    exact cacheText_inj json (fit left leftMember)
      (fit right rightMember) equal
  · exact List.Nodup.of_map Comment.id distinct

/-! ## The effect of the two functions -/

/-- LPUSH of several texts, one after the other. -/
def pushAll (redis : Redis) (key : Text) (items : List Text) : Redis :=
  items.foldl (fun redis item => (redis.lpush key item).2) redis

theorem entries_pushAll_list
    {redis : Redis} {key : Text} {elements : List Text}
    {volatile : Bool}
    (present :
      redis.entries key = some ⟨.list elements, volatile⟩)
    (items : List Text) :
    (pushAll redis key items).entries key =
      some ⟨.list (items.reverse ++ elements), volatile⟩ := by
  induction items generalizing redis elements with
  | nil => exact present
  | cons item rest induction =>
      have pushed :
          (redis.lpush key item).2.entries key =
            some ⟨.list (item :: elements), volatile⟩ := by
        simp [Redis.lpush, present]
      rw [pushAll, List.foldl_cons, ← pushAll, induction pushed]
      simp

/-- The first fill of a list that is not there. -/
theorem entries_pushAll_absent
    {redis : Redis} {key : Text} (absent : redis.entries key = none)
    {items : List Text} (nonempty : items ≠ []) :
    (pushAll redis key items).entries key =
      some ⟨.list items.reverse, false⟩ := by
  rcases List.exists_cons_of_ne_nil nonempty with ⟨item, rest, rfl⟩
  have pushed :
      (redis.lpush key item).2.entries key =
        some ⟨.list [item], false⟩ := by
    simp [Redis.lpush, absent]
  rw [pushAll, List.foldl_cons, ← pushAll, entries_pushAll_list pushed]
  simp

theorem run_fillLoop
    (articleId : Int) (comments : List Comment) (list : List Json)
    (world : World) :
    (fillLoop json articleId comments list).run exec world =
      (.ok (list ++ comments.map commentToJson),
        { world with
          redis := pushAll world.redis (commentListKey articleId)
            (comments.map (cacheText json)) }) := by
  induction comments generalizing list world with
  | nil =>
      rw [List.map_nil, List.append_nil]
      rfl
  | cons comment rest induction =>
      simp only [fillLoop, Program.perform_bind, Program.run_call, exec,
        World.onRedis, induction, List.map_cons, List.append_assoc]
      rfl

/-- What a fill leaves in Redis. -/
def filled (redis : Redis) (articleId : Int) (comments : List Comment) :
    Redis :=
  ((pushAll redis (commentListKey articleId)
    (comments.map (cacheText json))).expire
      (commentListKey articleId) 1800).2

theorem run_fill (articleId limit : Int) (world : World) :
    (fill json articleId limit).run exec world =
      (.ok ((world.database.getCommentsByArticleId
          articleId limit).map commentToJson),
        { world with
          redis := filled json world.redis articleId
            (world.database.getCommentsByArticleId articleId limit) }) := by
  simp only [fill, Program.perform_bind, Program.run_call, exec,
    Program.run_bind, run_fillLoop, List.nil_append]
  rfl

/-- The cached items that a request can use. -/
def cachedItems (redis : Redis) (articleId limit : Int) : List Json :=
  (redis.lrange (commentListKey articleId) 0
    (clampLimit limit - 1)).filterMap json.parse

/-- A request that finds something usable in Redis changes nothing. -/
theorem run_getComments_hit
    {articleId limit : Int} {world : World}
    (hit : cachedItems json world.redis articleId limit ≠ []) :
    (getComments json articleId limit).run exec world =
      (.ok (commentsResponse
          (cachedItems json world.redis articleId limit)
          (world.database.getCommentCount articleId)), world) := by
  have usable :
      (cachedItems json world.redis articleId limit).isEmpty = false := by
    simpa using hit
  unfold cachedItems at usable ⊢
  simp only [getComments, Program.perform_bind, Program.run_call, exec,
    usable]
  rfl

/-- A request that finds nothing fills the list. -/
theorem run_getComments_miss
    {articleId limit : Int} {world : World}
    (miss : cachedItems json world.redis articleId limit = []) :
    (getComments json articleId limit).run exec world =
      (.ok (commentsResponse
          ((world.database.getCommentsByArticleId articleId
            (clampLimit limit)).map commentToJson)
          (world.database.getCommentCount articleId)),
        { world with
          redis := filled json world.redis articleId
            (world.database.getCommentsByArticleId articleId
              (clampLimit limit)) }) := by
  have nothing :
      (cachedItems json world.redis articleId limit).isEmpty = true := by
    simpa using miss
  unfold cachedItems at nothing
  simp only [getComments, Program.perform_bind, Program.run_call, exec,
    nothing, if_true, Program.run_bind, run_fill]
  rfl

end

/-- The ways in which a post ends. -/
inductive PostEnds (articleId : Int) (content commenter : Text)
    (world : World) : Except StdException Json × World → Prop where
  | missing (nothing : content = [] ∨ commenter = []) :
      PostEnds articleId content commenter world
        (.ok (failure 400 (text "content and commenter are required")),
          world)
  | tooLong (something : content ≠ []) (someone : commenter ≠ [])
      (long : 1000 < byteSize content) :
      PostEnds articleId content commenter world
        (.ok (failure 400 (text "content too long (max 1000 chars)")),
          world)
  | notFound (short : byteSize content ≤ 1000)
      (unknown : world.database.getArticleById articleId = none) :
      PostEnds articleId content commenter world
        (.ok (failure 404 (text "Article not found")), world)
  | refused (short : byteSize content ≤ 1000) {later : World}
      (redis : later.redis = world.redis)
      (database : later.database = world.database) :
      PostEnds articleId content commenter world
        (.ok (failure 500 (text "Failed to create comment")), later)
  | created (short : byteSize content ≤ 1000) (comment : Comment)
      {later : World}
      (redis :
        later.redis = (world.redis.del (commentListKey articleId)).2)
      (database :
        later.database =
          (world.database.createComment
            { articleId := articleId, content := content
              commenter := commenter }
            (world.accepts world.ticks) world.now).2) :
      PostEnds articleId content commenter world
        (.ok (commentCreated comment), later)

theorem createComment_ends
    (articleId : Int) (content commenter : Text) (world : World) :
    PostEnds articleId content commenter world
      ((createComment articleId content commenter).run exec world) := by
  unfold createComment
  split
  · next nothing => exact .missing nothing
  · next given =>
      rw [not_or] at given
      split
      · next long => exact .tooLong given.1 given.2 long
      · next fits =>
          have short := Nat.not_lt.mp fits
          simp only [Program.perform_bind, Program.run_call, exec]
          cases found : world.database.getArticleById articleId with
          | none => exact .notFound short found
          | some article =>
              simp only [Program.run_call, exec]
              rcases world.database.createComment_cases
                  { articleId := articleId, content := content
                    commenter := commenter }
                  (world.accepts world.ticks) world.now with
                ⟨refused, -⟩ | ⟨-, created, -⟩
              · simp only [World.onDatabase, refused]
                exact .refused short rfl rfl
              · simp only [World.onDatabase, created, if_true,
                  Program.run_call, exec]
                exact .created short _ rfl rfl

/-- A post changes nothing, or inserts a row and deletes the list. -/
theorem createComment_effect
    (articleId : Int) (content commenter : Text) (world : World) :
    (((createComment articleId content commenter).run exec world).2.redis =
          world.redis ∧
        ((createComment articleId content commenter).run
          exec world).2.database = world.database) ∨
      ((createComment articleId content commenter).run exec world).2.redis =
          (world.redis.del (commentListKey articleId)).2 ∧
        ((createComment articleId content commenter).run
            exec world).2.database =
          (world.database.createComment
            { articleId := articleId, content := content
              commenter := commenter }
            (world.accepts world.ticks) world.now).2 := by
  have ends := createComment_ends articleId content commenter world
  generalize (createComment articleId content commenter).run exec world =
    outcome at ends ⊢
  cases ends with
  | missing nothing => exact Or.inl ⟨rfl, rfl⟩
  | tooLong something someone long => exact Or.inl ⟨rfl, rfl⟩
  | notFound short unknown => exact Or.inl ⟨rfl, rfl⟩
  | refused short redis database => exact Or.inl ⟨redis, database⟩
  | created short comment redis database =>
      exact Or.inr ⟨redis, database⟩

theorem clampLimit_range (limit : Int) :
    1 ≤ clampLimit limit ∧ clampLimit limit ≤ 50 := by
  unfold clampLimit
  split
  · decide
  · omega

/-! ## The invariant -/

section

variable (json : JsonLibrary)

/-- The list of the article is the reverse of its first rows. -/
def HoldsReversed (world : World) (articleId : Int) (count : Nat) :
    Prop :=
  1 ≤ count ∧ count ≤ 50 ∧
    count ≤ (world.database.commentsOf articleId).length ∧
    ∃ volatile,
      world.redis.entries (commentListKey articleId) =
        some ⟨.list
          (((world.database.commentsOf articleId).take count).map
            (cacheText json)).reverse, volatile⟩

/-- The list of the article is absent, or the reverse of its first rows. -/
def CacheShape (world : World) (articleId : Int) : Prop :=
  world.redis.entries (commentListKey articleId) = none ∨
    ∃ count, HoldsReversed json world articleId count

theorem cachedItems_of_absent
    {redis : Redis} {articleId : Int}
    (absent : redis.entries (commentListKey articleId) = none)
    (limit : Int) :
    cachedItems json redis articleId limit = [] := by
  simp [cachedItems, Redis.lrange, absent]

theorem lrange_of_holdsReversed
    {world : World} {articleId : Int} {count : Nat}
    (holds : HoldsReversed json world articleId count) (limit : Int) :
    world.redis.lrange (commentListKey articleId) 0
        (clampLimit limit - 1) =
      (((world.database.commentsOf articleId).take count).reverse.take
        (clampLimit limit).toNat).map (cacheText json) := by
  rcases holds with ⟨-, -, -, volatile, present⟩
  simp only [Redis.lrange, present]
  rw [Redis.slice_zero (clampLimit_range limit).1, ← List.map_reverse,
    List.map_take]

theorem cachedItems_of_holdsReversed
    {world : World} {articleId : Int} {count : Nat}
    (holds : HoldsReversed json world articleId count) (limit : Int) :
    cachedItems json world.redis articleId limit =
      (((world.database.commentsOf articleId).take count).reverse.take
        (clampLimit limit).toNat).map commentToJson := by
  have rows :
      ∀ comment ∈
          ((world.database.commentsOf articleId).take count).reverse.take
            (clampLimit limit).toNat,
        comment ∈ world.database.comments := by
    intro comment member
    have listed :=
      List.mem_of_mem_take (List.mem_reverse.mp (List.mem_of_mem_take member))
    exact (Database.mem_commentsOf.mp listed).1
  rw [cachedItems, lrange_of_holdsReversed json holds,
    filterMap_parse_cacheText json rows]

/-- A list of that shape always gives something to serve. -/
theorem cachedItems_nonempty
    {world : World} {articleId : Int} {count : Nat}
    (holds : HoldsReversed json world articleId count) (limit : Int) :
    cachedItems json world.redis articleId limit ≠ [] := by
  have range := clampLimit_range limit
  rw [cachedItems_of_holdsReversed json holds]
  intro empty
  have size := congrArg List.length empty
  simp only [List.length_map, List.length_take, List.length_reverse,
    List.length_nil] at size
  have positive := holds.1
  have enough := holds.2.2.1
  omega

/-! ## What an event does to the list -/

/-- The rows that an event puts into the list of the article. -/
def filledRows (articleId : Int) (world : World) : Event → List Comment
  | .request (.getComments other limit) =>
      if other = articleId ∧
          (world.redis.entries (commentListKey articleId)).isNone then
        (world.database.storedCommentsOf articleId).take
          (clampLimit limit).toNat
      else []
  | _ => []

/--
An event that fills nothing leaves the list and the rows of the article, or
leaves no list; a fill finds none, and leaves its rows as they are received.
-/
inductive ListStep (articleId : Int) (world later : World) :
    List Comment → Prop where
  | kept
      (sameList :
        later.redis.entries (commentListKey articleId) =
          world.redis.entries (commentListKey articleId))
      (sameRows :
        later.database.storedCommentsOf articleId =
          world.database.storedCommentsOf articleId) :
      ListStep articleId world later []
  | gone
      (absent : later.redis.entries (commentListKey articleId) = none) :
      ListStep articleId world later []
  | filled {rows : List Comment} (nonempty : rows ≠ [])
      (small : rows.length ≤ 50)
      (first : rows <+: later.database.storedCommentsOf articleId)
      (list :
        later.redis.entries (commentListKey articleId) =
          some ⟨.list
            ((rows.map Comment.received).map (cacheText json)).reverse,
            true⟩) :
      ListStep articleId world later rows

theorem entries_filled
    {redis : Redis} {articleId : Int}
    (absent : redis.entries (commentListKey articleId) = none)
    {comments : List Comment} (nonempty : comments ≠ []) :
    (filled json redis articleId comments).entries
        (commentListKey articleId) =
      some ⟨.list (comments.map (cacheText json)).reverse, true⟩ := by
  have present :=
    entries_pushAll_absent absent
      (List.map_eq_nil_iff.not.mpr nonempty : comments.map
        (cacheText json) ≠ [])
  rw [filled, Redis.expire, present]
  simp

/-- A request that finds no list. -/
theorem listStep_of_miss
    {world : World} {articleId : Int}
    (absent : world.redis.entries (commentListKey articleId) = none)
    (limit : Int) :
    ListStep json articleId world
      { world with
        redis := filled json world.redis articleId
          (world.database.getCommentsByArticleId articleId
            (clampLimit limit)) }
      ((world.database.storedCommentsOf articleId).take
        (clampLimit limit).toNat) := by
  have range := clampLimit_range limit
  rw [Database.getCommentsByArticleId_eq_received]
  cases rows :
      (world.database.storedCommentsOf articleId).take
        (clampLimit limit).toNat with
  | nil =>
      apply ListStep.gone
      simp [filled, pushAll, Redis.expire, absent]
  | cons row rest =>
      rw [← rows]
      have nonempty :
          (world.database.storedCommentsOf articleId).take
            (clampLimit limit).toNat ≠ [] := by
        simp [rows]
      refine ListStep.filled nonempty ?_ (List.take_prefix _ _)
        (entries_filled json absent (List.map_eq_nil_iff.not.mpr nonempty))
      rw [List.length_take]
      omega

/-- What is left alone, of the list and of the tables. -/
theorem ListStep.of_same
    {world later : World} {articleId : Int}
    (redis : later.redis = world.redis)
    (database : later.database = world.database) :
    ListStep json articleId world later [] :=
  .kept (by rw [redis]) (by rw [database])

theorem listStep_getComments
    {world : World} {articleId : Int}
    (shape : CacheShape json world articleId) (other limit : Int) :
    ListStep json articleId world
      ((getComments json other limit).run exec world).2
      (filledRows articleId world
        (.request (.getComments other limit))) := by
  by_cases same : other = articleId
  · subst same
    rcases shape with absent | ⟨count, holds⟩
    · rw [run_getComments_miss json
        (cachedItems_of_absent json absent limit), filledRows,
        if_pos (by simp [absent])]
      exact listStep_of_miss json absent limit
    · rcases holds.2.2.2 with ⟨volatile, present⟩
      rw [run_getComments_hit json (cachedItems_nonempty json holds limit),
        filledRows, if_neg (by simp [present])]
      exact .of_same json rfl rfl
  · rw [filledRows, if_neg fun both => same both.1]
    apply ListStep.kept
    · exact entries_run (getComments_writesOnly json other limit)
        (fun equal => same (commentListKey_injective equal).symm) world
    · by_cases miss : cachedItems json world.redis other limit = []
      · rw [run_getComments_miss json miss]
      · rw [run_getComments_hit json miss]

theorem listStep_createComment
    (articleId other : Int) (content commenter : Text) (world : World) :
    ListStep json articleId world
      ((createComment other content commenter).run exec world).2 [] := by
  rcases createComment_effect other content commenter world with
    ⟨sameRedis, sameDatabase⟩ | ⟨deleted, inserted⟩
  · exact .of_same json sameRedis sameDatabase
  · by_cases same : other = articleId
    · subst same
      apply ListStep.gone
      rw [deleted]
      exact Redis.entries_put_self _ _ _
    · apply ListStep.kept
      · rw [deleted]
        exact Redis.entries_del_of_ne _
          fun equal => same (commentListKey_injective equal).symm
      · rw [inserted]
        exact Database.storedCommentsOf_createComment_of_ne same _ _

/-- Every event is one of these steps. -/
theorem listStep
    {world : World} {articleId : Int}
    (shape : CacheShape json world articleId) (event : Event) :
    ListStep json articleId world (step json world event)
      (filledRows articleId world event) := by
  cases event with
  | timeOut key =>
      rcases world.redis.entries_timeOut key
          (commentListKey articleId) with same | ⟨gone, -⟩
      · exact .kept same rfl
      · exact .gone gone
  | request request =>
      cases request with
      | listArticles page pageSize =>
          have kept :=
            run_readOnly (listArticles_readOnly page pageSize) world
          exact .of_same json kept.1 kept.2
      | getArticleDetail id =>
          rcases getArticleDetail_effect json id world with
            kept | ⟨article, -, visited⟩
          · exact .of_same json (congrArg World.redis kept)
              (congrArg World.database kept)
          · refine .kept ?_ (congrArg
              (fun later => later.database.storedCommentsOf articleId)
              visited)
            refine (congrFun
              (congrArg (Redis.entries ∘ World.redis) visited) _).trans ?_
            apply entries_visit
            · exact (articleViewKey_ne_commentListKey _ articleId).symm
            · exact (hotKey_ne_commentListKey articleId).symm
            · exact (articleCacheKey_ne_commentListKey _ articleId).symm
      | getHotArticles limit =>
          have kept := run_readOnly (getHotArticles_readOnly limit) world
          exact .of_same json kept.1 kept.2
      | syncViewCounts =>
          have kept :=
            run_keepsComments syncViewCounts_keepsComments world
          exact .kept (congrFun (congrArg Redis.entries kept.1) _)
            (kept.2 articleId)
      | getComments other limit =>
          exact listStep_getComments json shape other limit
      | createComment other content commenter =>
          exact listStep_createComment json articleId other content
            commenter world

/-! ## The invariant in every run -/

variable {json}

/-- A list of received rows, from the rows of the table. -/
theorem holdsReversed_iff_stored
    {world : World} {articleId : Int} {count : Nat} :
    HoldsReversed json world articleId count ↔
      1 ≤ count ∧ count ≤ 50 ∧
        count ≤ (world.database.storedCommentsOf articleId).length ∧
        ∃ volatile,
          world.redis.entries (commentListKey articleId) =
            some ⟨.list
              ((((world.database.storedCommentsOf articleId).take
                count).map Comment.received).map
                  (cacheText json)).reverse, volatile⟩ := by
  rw [HoldsReversed, Database.commentsOf_eq_received, List.length_map]
  simp only [List.map_take]

/-- What a fill leaves is the reverse of the rows it has read. -/
theorem holdsReversed_of_filled
    {later : World} {articleId : Int} {rows : List Comment}
    (nonempty : rows ≠ []) (small : rows.length ≤ 50)
    (first : rows <+: later.database.storedCommentsOf articleId)
    (list :
      later.redis.entries (commentListKey articleId) =
        some ⟨.list
          ((rows.map Comment.received).map (cacheText json)).reverse,
          true⟩) :
    HoldsReversed json later articleId rows.length := by
  rw [holdsReversed_iff_stored]
  refine ⟨List.length_pos_iff.mpr nonempty, small, first.length_le, true,
    ?_⟩
  rw [← List.prefix_iff_eq_take.mp first]
  exact list

theorem ListStep.cacheShape
    {world later : World} {articleId : Int} {rows : List Comment}
    (listStep : ListStep json articleId world later rows)
    (shape : CacheShape json world articleId) :
    CacheShape json later articleId := by
  cases listStep with
  | kept sameList sameRows =>
      simp only [CacheShape, holdsReversed_iff_stored] at shape ⊢
      rw [sameList, sameRows]
      exact shape
  | gone absent => exact Or.inl absent
  | filled nonempty small first list =>
      exact Or.inr
        ⟨rows.length, holdsReversed_of_filled nonempty small first list⟩

theorem CacheShape.step
    {world : World} {articleId : Int}
    (shape : CacheShape json world articleId) (event : Event) :
    CacheShape json (step json world event) articleId :=
  (listStep json shape event).cacheShape shape

variable (json)

theorem cacheShape_runFrom
    (database : Database) (clock : Nat → Text) (accepts : Nat → Bool)
    (events : List Event) (articleId : Int) :
    CacheShape json (runFrom json database clock accepts events)
      articleId :=
  run_invariant (fun world => CacheShape json world articleId)
    (fun _ event shape => shape.step event) events (Or.inl rfl)

end

end CommentService

end LightningServer.Service
