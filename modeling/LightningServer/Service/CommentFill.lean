import LightningServer.Service.CommentOrder
import LightningServer.Service.CommentThreads

/-!
# Fills that do not overlap

A request that finds the list empty will fill it: from its LRANGE to its last
LPUSH the fill is pending, and nothing stops a second request from starting
its own.  While at most one fill is pending, and no list is deleted between
two pushes, the Redis list and every list that a request holds consist of
different comments of the article.

`Tidy` is that invariant.  Its parameter is what has been pushed into the
present list, oldest push first.
-/

namespace LightningServer.Service

open LightningServer.Foundation
open LightningServer.Foundation.Numerals
open LightningServer.Foundation.Transition
open LightningServer.Store
open LightningServer.Service.CommentService

/-! ## Ids of a response -/

/-- The id of an entry. -/
def commentId? (item : Json) : Option Int :=
  (item.field? (text "id")).bind Json.number?

/-- The comment ids of a response, in its order. -/
def responseIds (response : Json) : List Int :=
  (responseList response).filterMap commentId?

@[simp]
theorem commentId?_commentToJson (comment : Comment) :
    commentId? (commentToJson comment) = some comment.id := by
  rfl

theorem filterMap_commentId? (comments : List Comment) :
    (comments.map commentToJson).filterMap commentId? =
      comments.map Comment.id := by
  rw [List.filterMap_map]
  have each : commentId? ∘ commentToJson = some ∘ Comment.id := by
    ext comment : 1
    exact commentId?_commentToJson comment
  rw [each, List.filterMap_eq_map]

theorem responseIds_commentsResponse
    (comments : List Comment) (total : Int) :
    responseIds (commentsResponse (comments.map commentToJson) total) =
      comments.map Comment.id := by
  rw [responseIds, responseList_commentsResponse, filterMap_commentId?]

@[simp]
theorem responseIds_failure (code : Int) (message : Text) :
    responseIds (failure code message) = [] := by
  rfl

@[simp]
theorem responseIds_commentCreated (comment : Comment) :
    responseIds (commentCreated comment) = [] := by
  rfl

/-! ## Rows and lists -/

/-- Different comments of the article. -/
structure Rows (database : Database) (articleId : Int)
    (comments : List Comment) : Prop where
  distinct : (comments.map Comment.id).Nodup
  own : ∀ comment ∈ comments, comment ∈ database.commentsOf articleId

theorem Rows.nil (database : Database) (articleId : Int) :
    Rows database articleId [] where
  distinct := List.nodup_nil
  own := by simp

theorem Rows.sublist
    {database : Database} {articleId : Int}
    {comments fewer : List Comment}
    (rows : Rows database articleId comments)
    (isSublist : fewer.Sublist comments) :
    Rows database articleId fewer where
  distinct := rows.distinct.sublist (isSublist.map Comment.id)
  own := fun comment member =>
    rows.own comment (isSublist.subset member)

theorem Rows.perm
    {database : Database} {articleId : Int}
    {comments others : List Comment}
    (rows : Rows database articleId comments)
    (isPerm : others.Perm comments) :
    Rows database articleId others where
  distinct := (isPerm.map Comment.id).nodup_iff.mpr rows.distinct
  own := fun comment member => rows.own comment (isPerm.subset member)

theorem Rows.query
    (database : Database) (articleId limit : Int) :
    Rows database articleId
      (database.getCommentsByArticleId articleId limit) where
  distinct := (database.nodup_commentsOf articleId).sublist
    ((List.take_sublist _ _).map Comment.id)
  own := fun _ member => List.mem_of_mem_take member

/-- No comment of the article disappears. -/
def Grows (articleId : Int) (before after : Database) : Prop :=
  ∀ comment ∈ before.commentsOf articleId,
    comment ∈ after.commentsOf articleId

theorem Grows.refl (articleId : Int) (database : Database) :
    Grows articleId database database :=
  fun _ member => member

theorem grows_createComment
    (articleId : Int) (database : Database) (comment : Comment)
    (accepted : Bool) (now : Text) :
    Grows articleId database
      (database.createComment comment accepted now).2 := by
  intro row member
  rcases database.createComment_cases comment accepted now with
    ⟨refused, -⟩ | ⟨-, -, -, appended, -⟩
  · rw [refused]
    exact member
  · rw [Database.mem_commentsOf] at member ⊢
    rw [Database.comments_of_append appended]
    exact ⟨List.mem_append_left _ member.1, member.2⟩

theorem Rows.grows
    {before after : Database} {articleId : Int}
    {comments : List Comment} (rows : Rows before articleId comments)
    (grows : Grows articleId before after) :
    Rows after articleId comments where
  distinct := rows.distinct
  own := fun comment member => grows comment (rows.own comment member)

section

variable (json : JsonLibrary) (articleId : Int)

/-- The Redis list after these pushes; a list without elements is absent. -/
def ListHolds (redis : Redis) (pushed : List Comment) : Prop :=
  pushed = [] ∧ redis.entries (commentListKey articleId) = none ∨
    pushed ≠ [] ∧
      ∃ volatile,
        redis.entries (commentListKey articleId) =
          some ⟨.list (pushed.map (cacheText json)).reverse, volatile⟩

variable {json} {articleId}

theorem ListHolds.push
    {redis : Redis} {pushed : List Comment}
    (holds : ListHolds json articleId redis pushed)
    (comment : Comment) :
    ListHolds json articleId
      (redis.lpush (commentListKey articleId) (cacheText json comment)).2
      (pushed ++ [comment]) := by
  right
  refine ⟨by simp, ?_⟩
  rcases holds with ⟨rfl, absent⟩ | ⟨-, volatile, present⟩
  · exact ⟨false, by simp [Redis.lpush, absent]⟩
  · exact ⟨volatile, by simp [Redis.lpush, present]⟩

theorem ListHolds.expire
    {redis : Redis} {pushed : List Comment}
    (holds : ListHolds json articleId redis pushed) :
    ListHolds json articleId
      (redis.expire (commentListKey articleId) 1800).2 pushed := by
  rcases holds with ⟨empty, absent⟩ | ⟨some, volatile, present⟩
  · exact Or.inl ⟨empty, by simp [Redis.expire, absent]⟩
  · exact Or.inr ⟨some, true, by simp [Redis.expire, present]⟩

theorem ListHolds.del (redis : Redis) :
    ListHolds json articleId
      (redis.del (commentListKey articleId)).2 [] :=
  Or.inl ⟨rfl, Redis.entries_put_self _ _ _⟩

theorem ListHolds.lrange_eq
    {redis : Redis} {pushed : List Comment}
    (holds : ListHolds json articleId redis pushed) (start stop : Int) :
    redis.lrange (commentListKey articleId) start stop =
      Redis.slice start stop (pushed.reverse.map (cacheText json)) := by
  rcases holds with ⟨rfl, absent⟩ | ⟨-, volatile, present⟩
  · simp [Redis.lrange, absent]
  · simp only [Redis.lrange, present, List.map_reverse]

/-- The rows that a request asks for. -/
theorem ListHolds.lrange
    {redis : Redis} {pushed : List Comment}
    (holds : ListHolds json articleId redis pushed)
    {limit : Int} (positive : 1 ≤ limit) :
    redis.lrange (commentListKey articleId) 0 (limit - 1) =
      (pushed.reverse.take limit.toNat).map (cacheText json) := by
  rw [holds.lrange_eq, Redis.slice_zero positive, List.map_take]

theorem ListHolds.lrange_eq_nil_iff
    {redis : Redis} {pushed : List Comment}
    (holds : ListHolds json articleId redis pushed)
    {limit : Int} (positive : 1 ≤ limit) :
    redis.lrange (commentListKey articleId) 0 (limit - 1) = [] ↔
      pushed = [] := by
  have some : limit.toNat ≠ 0 := by omega
  rw [holds.lrange positive, List.map_eq_nil_iff, List.take_eq_nil_iff,
    List.reverse_eq_nil_iff, or_iff_right some]

theorem filterMap_parse_of_own
    {database : Database} {comments : List Comment}
    (own :
      ∀ comment ∈ comments, comment ∈ database.commentsOf articleId) :
    (comments.map (cacheText json)).filterMap json.parse =
      comments.map commentToJson := by
  apply filterMap_parse_cacheText json
  intro comment member
  exact (Database.mem_commentsOf.mp (own comment member)).1

/-- The JSON that a request reads from the list. -/
theorem ListHolds.parsed
    {redis : Redis} {pushed : List Comment} {database : Database}
    (holds : ListHolds json articleId redis pushed)
    (own : ∀ comment ∈ pushed, comment ∈ database.commentsOf articleId)
    {limit : Int} (positive : 1 ≤ limit) :
    (redis.lrange (commentListKey articleId) 0
        (limit - 1)).filterMap json.parse =
      (pushed.reverse.take limit.toNat).map commentToJson := by
  rw [holds.lrange positive]
  apply filterMap_parse_of_own
  intro comment member
  exact own comment (List.mem_reverse.mp (List.mem_of_mem_take member))

/-! ## The invariant -/

namespace Phase

/-- A fill is pending: SELECT or an LPUSH comes next. -/
def Fills : Phase → Prop
  | .selecting _ => True
  | .filling _ _ _ => True
  | _ => False

/-- An LPUSH comes next. -/
def Pushes : Phase → Prop
  | .filling _ _ _ => True
  | _ => False

variable (articleId) in
/-- The JSON of different comments of the article. -/
def Held (database : Database) (list : List Json) : Prop :=
  ∃ comments, list = comments.map commentToJson ∧
    Rows database articleId comments

variable (articleId) in
/-- What a request has at hand, given what is in the list. -/
def Tidy (database : Database) (pushed : List Comment) : Phase → Prop
  | .looking limit => 1 ≤ limit
  | .selecting _ => pushed = []
  | .filling comment rest list =>
      Rows database articleId (pushed ++ comment :: rest) ∧
        ∃ comments, list = comments.map commentToJson ∧
          Rows database articleId (comments ++ comment :: rest)
  | .expiring list => Held articleId database list
  | .counting list => Held articleId database list
  | .finished response => (responseIds response).Nodup
  | _ => True

theorem Tidy.grows
    {before after : Database} {pushed : List Comment} {phase : Phase}
    (tidy : phase.Tidy articleId before pushed)
    (grows : Grows articleId before after) :
    phase.Tidy articleId after pushed := by
  cases phase with
  | filling comment rest list =>
      rcases tidy with ⟨rows, comments, shape, held⟩
      exact ⟨rows.grows grows, comments, shape, held.grows grows⟩
  | expiring list =>
      rcases tidy with ⟨comments, shape, held⟩
      exact ⟨comments, shape, held.grows grows⟩
  | counting list =>
      rcases tidy with ⟨comments, shape, held⟩
      exact ⟨comments, shape, held.grows grows⟩
  | _ => exact tidy

/-- A request without a pending fill does not depend on the list. -/
theorem Tidy.of_not_fills
    {database : Database} {pushed other : List Comment} {phase : Phase}
    (tidy : phase.Tidy articleId database pushed)
    (idle : ¬ phase.Fills) :
    phase.Tidy articleId database other := by
  cases phase with
  | selecting limit => exact absurd trivial idle
  | filling comment rest list => exact absurd trivial idle
  | _ => exact tidy

/-- After a DEL only a request between two pushes would be wrong. -/
theorem Tidy.deleted
    {database : Database} {pushed : List Comment} {phase : Phase}
    (tidy : phase.Tidy articleId database pushed)
    (idle : ¬ phase.Pushes) :
    phase.Tidy articleId database [] := by
  cases phase with
  | selecting limit => rfl
  | filling comment rest list => exact absurd trivial idle
  | _ => exact tidy

theorem Pushes.fills {phase : Phase} (pushes : phase.Pushes) :
    phase.Fills := by
  cases phase with
  | filling comment rest list => trivial
  | _ => exact pushes.elim

/-- What is in the list after the move. -/
def pushedAfter (phase : Phase) (pushed : List Comment) :
    List Comment :=
  match phase with
  | .filling comment _ _ => pushed ++ [comment]
  | .deleting _ _ => []
  | _ => pushed

variable (json) in
theorem grows_move (phase : Phase) (world : World) :
    Grows articleId world.database
      (phase.move json articleId world).2.database := by
  cases phase with
  | inserting comment => exact grows_createComment _ _ _ _ _
  | _ => exact Grows.refl articleId world.database

end Phase

theorem ListHolds.move
    {world : World} {pushed : List Comment}
    (holds : ListHolds json articleId world.redis pushed)
    (phase : Phase) :
    ListHolds json articleId
      (phase.move json articleId world).2.redis
      (phase.pushedAfter pushed) := by
  cases phase with
  | filling comment rest list => exact holds.push comment
  | expiring list => exact holds.expire
  | deleting row comment => exact .del world.redis
  | _ => exact holds

/-- What the LRANGE of a request leads to. -/
theorem ListHolds.move_looking
    {world : World} {pushed : List Comment}
    (holds : ListHolds json articleId world.redis pushed)
    (own :
      ∀ comment ∈ pushed, comment ∈ world.database.commentsOf articleId)
    {limit : Int} (positive : 1 ≤ limit) :
    pushed = [] ∧
        (Phase.looking limit).move json articleId world =
          (.selecting limit, world) ∨
      pushed ≠ [] ∧
        (Phase.looking limit).move json articleId world =
          (.counting
            ((pushed.reverse.take limit.toNat).map commentToJson),
            world) := by
  have parsed := holds.parsed own positive
  by_cases empty : pushed = []
  · left
    subst empty
    refine ⟨rfl, ?_⟩
    simp only [Phase.move, parsed, List.reverse_nil, List.take_nil,
      List.map_nil, List.isEmpty_nil, if_true]
  · right
    refine ⟨empty, ?_⟩
    have usable :
        ((pushed.reverse.take limit.toNat).map
          commentToJson).isEmpty = false := by
      rw [List.isEmpty_eq_false_iff]
      intro nothing
      apply empty
      rw [← holds.lrange_eq_nil_iff positive, holds.lrange positive,
        List.map_eq_nil_iff]
      exact List.map_eq_nil_iff.mp nothing
    simp only [Phase.move, parsed, usable, Bool.false_eq_true, if_false]

/-- What the next calls of the threads say about their phases. -/
theorem noOther_of_nobodyElse
    {pool : Pool Phase World} {index : Nat} {kind : Phase → Prop}
    {callKind : Call → Bool}
    (makes :
      ∀ phase, kind phase →
        ∃ call, phase.call? json articleId = some call ∧
          callKind call = true)
    (nobody :
      (pool.map (Phase.code json articleId)).NobodyElse index callKind) :
    pool.NoOther index kind := by
  intro other phase different present isKind
  rcases makes phase isKind with ⟨call, next, isCall⟩
  rw [← Phase.nextCall_code] at next
  have quiet := nobody.of_map different present next
  rw [isCall] at quiet
  cases quiet

variable (json articleId) in
structure TidyPool (pool : Pool Phase World) (pushed : List Comment) :
    Prop where
  list : ListHolds json articleId pool.world.redis pushed
  rows : Rows pool.world.database articleId pushed
  /-- at most one fill is pending -/
  alone : pool.AtMostOne Phase.Fills
  phases :
    ∀ (index : Nat) (phase : Phase),
      pool.threads[index]? = some phase →
        phase.Tidy articleId pool.world.database pushed

variable (articleId) in
/-- A fill starts alone, and no list is deleted between two pushes. -/
def FillsApart (pool : Pool Phase World) :
    PoolEvent CommentRequest → Prop
  | .arrive _ => True
  | .advance index =>
      (∀ limit, pool.threads[index]? = some (.looking limit) →
          pool.world.redis.lrange (commentListKey articleId) 0
              (limit - 1) = [] →
            pool.NoOther index Phase.Fills) ∧
        ∀ row comment,
          pool.threads[index]? = some (.deleting row comment) →
            pool.NoOther index Phase.Pushes

theorem tidyPool_empty (database : Database) (clock : Nat → Text)
    (accepts : Nat → Bool) :
    TidyPool json articleId (.empty (.initial database clock accepts))
      [] where
  list := Or.inl ⟨rfl, rfl⟩
  rows := .nil database articleId
  alone := by
    intro index phase present
    simp [Pool.empty] at present
  phases := Pool.all_empty _ _

/-- The obligations of one move. -/
theorem TidyPool.of_move
    {pool : Pool Phase World} {pushed later : List Comment}
    (tidy : TidyPool json articleId pool pushed) {index : Nat}
    {result : Phase × World}
    (list : ListHolds json articleId result.2.redis later)
    (rows : Rows result.2.database articleId later)
    (alone : result.1.Fills → pool.NoOther index Phase.Fills)
    (here : result.1.Tidy articleId result.2.database later)
    (others :
      ∀ (other : Nat) (phase : Phase), other ≠ index →
        pool.threads[other]? = some phase →
          phase.Tidy articleId result.2.database later) :
    TidyPool json articleId (pool.moved index result) later where
  list := list
  rows := rows
  alone := tidy.alone.moved alone
  phases := by
    intro other phase present
    rcases Pool.getElem?_moved_cases present with
      ⟨rfl, rfl⟩ | ⟨different, old⟩
    · exact here
    · exact others other phase different old

/-- A move that leaves the list and the pending fills as they are. -/
theorem TidyPool.of_quiet_move
    {pool : Pool Phase World} {pushed : List Comment}
    (tidy : TidyPool json articleId pool pushed) {index : Nat}
    {result : Phase × World}
    (list : ListHolds json articleId result.2.redis pushed)
    (grows :
      Grows articleId pool.world.database result.2.database)
    (quiet : ¬ result.1.Fills)
    (here : result.1.Tidy articleId result.2.database pushed) :
    TidyPool json articleId (pool.moved index result) pushed := by
  apply tidy.of_move list (tidy.rows.grows grows)
  · intro fills
    exact absurd fills quiet
  · exact here
  · intro other phase _ present
    exact (tidy.phases other phase present).grows grows

theorem Phase.Tidy.pushing
    {database : Database} {pushed rest : List Comment}
    (done : List Comment)
    (rows : Rows database articleId (pushed ++ rest))
    (held : Rows database articleId (done ++ rest)) :
    (Phase.pushing rest (done.map commentToJson)).Tidy articleId
      database pushed := by
  cases rest with
  | nil =>
      rw [List.append_nil] at held
      exact ⟨done, rfl, held⟩
  | cons comment rest => exact ⟨rows, done, rfl, held⟩

theorem finished_failure_tidy
    (database : Database) (pushed : List Comment) (code : Int)
    (message : Text) :
    (Phase.finished (failure code message)).Tidy articleId database
      pushed := by
  show (responseIds _).Nodup
  rw [responseIds_failure]
  exact List.nodup_nil

variable (json) in
/-- A move that is neither the LRANGE nor part of the fill. -/
theorem Phase.Tidy.move
    {phase : Phase} {world : World} {pushed : List Comment}
    (tidy : phase.Tidy articleId world.database pushed)
    (idle : ¬ phase.Fills) (after : ∀ limit, phase ≠ .looking limit) :
    ¬ (phase.move json articleId world).1.Fills ∧
      (phase.move json articleId world).1.Tidy articleId
        (phase.move json articleId world).2.database
        (phase.pushedAfter pushed) := by
  cases phase with
  | looking limit => exact absurd rfl (after limit)
  | selecting limit => exact absurd trivial idle
  | filling comment rest list => exact absurd trivial idle
  | expiring list => exact ⟨not_false, tidy⟩
  | counting list =>
      rcases tidy with ⟨comments, rfl, held⟩
      refine ⟨not_false, ?_⟩
      show (responseIds _).Nodup
      rw [responseIds_commentsResponse]
      exact held.distinct
  | checking comment =>
      simp only [Phase.move]
      split
      · exact ⟨not_false, finished_failure_tidy _ _ _ _⟩
      · exact ⟨not_false, trivial⟩
  | inserting comment =>
      simp only [Phase.move]
      split
      · exact ⟨not_false, trivial⟩
      · exact ⟨not_false, finished_failure_tidy _ _ _ _⟩
  | stamping row comment => exact ⟨not_false, trivial⟩
  | deleting row comment =>
      refine ⟨not_false, ?_⟩
      show (responseIds _).Nodup
      rw [responseIds_commentCreated]
      exact List.nodup_nil
  | finished response => exact ⟨not_false, tidy⟩

/-- One move of a thread. -/
theorem TidyPool.moved
    {pool : Pool Phase World} {pushed : List Comment}
    (tidy : TidyPool json articleId pool pushed) {index : Nat}
    {phase : Phase} (present : pool.threads[index]? = some phase)
    (apart : FillsApart articleId pool (.advance index)) :
    TidyPool json articleId
      (pool.moved index (phase.move json articleId pool.world))
      (phase.pushedAfter pushed) := by
  have here := tidy.phases index phase present
  have list := tidy.list.move phase
  cases phase with
  | looking limit =>
      have positive : 1 ≤ limit := here
      simp only [Phase.pushedAfter]
      rcases tidy.list.move_looking tidy.rows.own positive with
        ⟨empty, next⟩ | ⟨-, next⟩
      · rw [next]
        apply tidy.of_move tidy.list tidy.rows
        · exact fun _ =>
            apart.1 limit present
              ((tidy.list.lrange_eq_nil_iff positive).mpr empty)
        · exact empty
        · exact fun other phase _ there => tidy.phases other phase there
      · rw [next]
        apply tidy.of_quiet_move tidy.list (Grows.refl _ _)
        · exact not_false
        · refine ⟨_, rfl, ?_⟩
          exact (tidy.rows.perm (List.reverse_perm _)).sublist
            (List.take_sublist _ _)
  | selecting limit =>
      have empty : pushed = [] := here
      subst empty
      have rows :=
        Rows.query pool.world.database articleId limit
      apply tidy.of_move tidy.list tidy.rows
      · exact fun _ => tidy.alone index _ present trivial
      · exact Phase.Tidy.pushing [] rows rows
      · exact fun other phase _ there => tidy.phases other phase there
  | filling comment rest held =>
      rcases here with ⟨rows, done, rfl, distinct⟩
      have alone := tidy.alone index _ present trivial
      rw [List.append_cons] at rows distinct
      apply tidy.of_move list
      · exact rows.sublist (List.sublist_append_left _ _)
      · exact fun _ => alone
      · have next := Phase.Tidy.pushing _ rows distinct
        rw [List.map_append] at next
        exact next
      · intro other phase different there
        exact (tidy.phases other phase there).of_not_fills
          (alone other phase different there)
  | deleting row comment =>
      rcases here.move json not_false (by rintro _ ⟨⟩) with
        ⟨quiet, later⟩
      apply tidy.of_move list (.nil _ articleId)
      · exact fun fills => absurd fills quiet
      · exact later
      · intro other phase different there
        exact (tidy.phases other phase there).deleted
          (apart.2 row comment present other phase different there)
  | _ =>
      rcases here.move json not_false (by rintro _ ⟨⟩) with
        ⟨quiet, later⟩
      exact tidy.of_quiet_move list (Phase.grows_move json _ _) quiet
        later

/-- A new request has no fill pending. -/
theorem enter_not_fills (request : CommentRequest) :
    ¬ (Phase.enter articleId request).Fills := by
  rcases Phase.enter_cases articleId request with
    ⟨_, -, shape⟩ | ⟨_, _, shape⟩ | ⟨_, -, shape⟩
  · rw [shape]
    exact not_false
  · rw [shape]
    exact not_false
  · rw [shape]
    exact not_false

theorem enter_tidy
    (request : CommentRequest) (database : Database)
    (pushed : List Comment) :
    (Phase.enter articleId request).Tidy articleId database pushed := by
  rcases Phase.enter_cases articleId request with
    ⟨limit, -, shape⟩ | ⟨status, message, shape⟩ | ⟨_, -, shape⟩
  · rw [shape]
    exact (clampLimit_range limit).1
  · rw [shape]
    exact finished_failure_tidy database pushed status message
  · rw [shape]
    trivial

/-- The arrival of a request. -/
theorem TidyPool.arrived
    {pool : Pool Phase World} {pushed : List Comment}
    (tidy : TidyPool json articleId pool pushed)
    (request : CommentRequest) :
    TidyPool json articleId
      { pool with
        threads := pool.threads ++ [Phase.enter articleId request] }
      pushed where
  list := tidy.list
  rows := tidy.rows
  alone := tidy.alone.arrived (enter_not_fills request)
  phases := by
    intro index phase present
    rcases Pool.getElem?_arrived_cases present with ⟨-, rfl⟩ | old
    · exact enter_tidy request _ pushed
    · exact tidy.phases index phase old

theorem TidyPool.step
    {pool : Pool Phase World} {event : PoolEvent CommentRequest}
    (tidy : ∃ pushed, TidyPool json articleId pool pushed)
    (apart : FillsApart articleId pool event) :
    ∃ pushed,
      TidyPool json articleId (phaseStep json articleId pool event)
        pushed := by
  rcases tidy with ⟨pushed, tidy⟩
  apply Pool.step_invariant
    (fun pool => ∃ pushed, TidyPool json articleId pool pushed)
    ⟨pushed, tidy⟩
  · intro request _
    exact ⟨pushed, tidy.arrived request⟩
  · rintro index phase rfl present
    exact ⟨_, tidy.moved present apart⟩

end

end LightningServer.Service
