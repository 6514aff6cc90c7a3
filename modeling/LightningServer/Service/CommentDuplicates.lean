import LightningServer.Foundation.JsonParser
import LightningServer.Service.CommentFill

/-!
# Comments shown twice

Requests that only read still race for the fill: two that find the list empty
both push their rows, and the list then has every row twice.  If each request
that finds the list empty does so while no other fill is pending, neither the
list nor any response repeats a comment; an article without comments has
nothing to push.
-/

namespace LightningServer.Service

open LightningServer.Foundation
open LightningServer.Foundation.Numerals
open LightningServer.Foundation.Transition
open LightningServer.Store
open LightningServer.Service.CommentService

/-! ## Statements about pools of programs -/

/-- The ids in the Redis list, as a request would read them. -/
def cachedIds (json : JsonLibrary) (redis : Redis) (articleId : Int) :
    List Int :=
  ((redis.lrange (commentListKey articleId) 0
    (-1)).filterMap json.parse).filterMap commentId?

/-- No response and no Redis list has a comment twice. -/
structure NoDuplicates (json : JsonLibrary) (articleId : Int)
    (pool : CommentPool) : Prop where
  responses :
    ∀ (index : Nat) (response : Json),
      pool.value? index = some response →
        (responseIds response).Nodup
  cached : (cachedIds json pool.world.redis articleId).Nodup

/-- The calls of a fill that are still to come when it is pending. -/
def fillCall : Call → Bool
  | .getCommentsByArticleId _ _ => true
  | .lpush _ _ => true
  | _ => false

/-- A request that will fill the list is the only one to do so. -/
def FillsAlone (articleId : Int) (pool : CommentPool) :
    PoolEvent CommentRequest → Prop
  | .arrive _ => True
  | .advance index =>
      findsNothing pool index = true →
        pool.world.database.commentsOf articleId = [] ∨
          pool.NobodyElse index fillCall

instance (articleId : Int) (pool : CommentPool) :
    ∀ event, Decidable (FillsAlone articleId pool event)
  | .arrive _ => .isTrue trivial
  | .advance _ => inferInstanceAs (Decidable (_ → _))

/-- The event is not the arrival of a `createComment`. -/
def onlyReads : PoolEvent CommentRequest → Bool
  | .arrive (.createComment _ _) => false
  | _ => true

/-! ## The statements on phases -/

section

variable {json : JsonLibrary} {articleId : Int}

theorem Phase.Fills.makes_fillCall
    (phase : Phase) (fills : phase.Fills) :
    ∃ call, phase.call? json articleId = some call ∧
      fillCall call = true := by
  cases phase with
  | selecting limit => exact ⟨_, rfl, rfl⟩
  | filling comment rest list => exact ⟨_, rfl, rfl⟩
  | _ => exact fills.elim

theorem ListHolds.cachedIds_eq
    {redis : Redis} {pushed : List Comment} {database : Database}
    (holds : ListHolds json articleId redis pushed)
    (rows : Rows database articleId pushed) :
    cachedIds json redis articleId =
      pushed.reverse.map Comment.id := by
  have parsed :
      (redis.lrange (commentListKey articleId) 0
          (-1)).filterMap json.parse =
        pushed.reverse.map commentToJson := by
    rw [holds.lrange_eq, Redis.slice_whole]
    exact filterMap_parse_of_own (rows.perm (List.reverse_perm _)).own
  rw [cachedIds, parsed, filterMap_commentId?]

theorem noDuplicates_map
    {pool : Pool Phase World} {pushed : List Comment}
    (tidy : TidyPool json articleId pool pushed) :
    NoDuplicates json articleId
      (pool.map (Phase.code json articleId)) where
  responses := by
    intro index response returned
    exact tidy.phases index _ (finished_of_value? returned)
  cached := by
    show (cachedIds json pool.world.redis articleId).Nodup
    rw [tidy.list.cachedIds_eq tidy.rows]
    exact ((tidy.rows.perm (List.reverse_perm _)).distinct)

/-! ## Requests that only read -/

/-- A phase of `getComments`, or of a request that has returned. -/
def Phase.Reads : Phase → Prop
  | .checking _ => False
  | .inserting _ => False
  | .stamping _ _ => False
  | .deleting _ _ => False
  | _ => True

theorem Phase.reads_pushing (comments : List Comment) (list : List Json) :
    (Phase.pushing comments list).Reads := by
  cases comments with
  | nil => trivial
  | cons comment rest => trivial

variable (json articleId) in
/-- A read stays one and does not touch the tables. -/
theorem Phase.Reads.move
    {phase : Phase} (reads : phase.Reads) (world : World) :
    (phase.move json articleId world).1.Reads ∧
      (phase.move json articleId world).2.database = world.database := by
  cases phase with
  | looking limit =>
      refine ⟨?_, rfl⟩
      simp only [Phase.move]
      split
      · trivial
      · trivial
  | selecting limit => exact ⟨Phase.reads_pushing _ _, rfl⟩
  | filling comment rest list => exact ⟨Phase.reads_pushing _ _, rfl⟩
  | expiring list => exact ⟨trivial, rfl⟩
  | counting list => exact ⟨trivial, rfl⟩
  | finished response => exact ⟨trivial, rfl⟩
  | _ => exact reads.elim

/-- Every request only reads, and the tables are as they were. -/
structure ReaderPool (database : Database) (pool : Pool Phase World) :
    Prop where
  same : pool.world.database = database
  reads : pool.All Phase.Reads

theorem readerPool_empty (database : Database) (clock : Nat → Text)
    (accepts : Nat → Bool) :
    ReaderPool database (.empty (.initial database clock accepts)) where
  same := rfl
  reads := Pool.all_empty _ _

theorem ReaderPool.step
    {database : Database} {pool : Pool Phase World}
    {event : PoolEvent CommentRequest}
    (readers : ReaderPool database pool)
    (reads : onlyReads event = true) :
    ReaderPool database (phaseStep json articleId pool event) where
  same := by
    apply Pool.step_invariant
      (fun pool : Pool Phase World => pool.world.database = database)
      readers.same
    · intro _ _
      exact readers.same
    · intro index phase _ present
      have moved :=
        (readers.reads index phase present).move json articleId pool.world
      exact moved.2.trans readers.same
  reads := by
    apply Pool.All.step readers.reads
    · rintro request rfl
      cases request with
      | getComments limit => trivial
      | createComment content commenter => cases reads
    · intro phase here
      exact (here.move json articleId pool.world).1

/-- Among readers of an article with comments, one fill at a time. -/
theorem fillsApart_of_fillsAlone
    {database : Database} {pool : Pool Phase World}
    {event : PoolEvent CommentRequest}
    (readers : ReaderPool database pool)
    (nonempty : database.commentsOf articleId ≠ [])
    (alone :
      FillsAlone articleId (pool.map (Phase.code json articleId)) event) :
    FillsApart articleId pool event := by
  cases event with
  | arrive request => trivial
  | advance index =>
      constructor
      · intro limit present nothing
        have found :
            findsNothing (pool.map (Phase.code json articleId)) index =
              true := by
          rw [findsNothing_of_looking present, nothing]
          rfl
        rcases alone found with empty | nobody
        · have same :
              (pool.map (Phase.code json articleId)).world = pool.world :=
            rfl
          rw [same, readers.same] at empty
          exact absurd empty nonempty
        · exact noOther_of_nobodyElse Phase.Fills.makes_fillCall nobody
      · intro row comment present
        exact (readers.reads index _ present).elim

/-! ## An article without comments -/

/-- What a reader has at hand when there are no comments. -/
def Phase.Bare : Phase → Prop
  | .filling _ _ _ => False
  | .expiring list => list = []
  | .counting list => list = []
  | .finished response => responseIds response = []
  | _ => True

variable (articleId) in
structure BarePool (pool : Pool Phase World) : Prop where
  absent :
    pool.world.redis.entries (commentListKey articleId) = none
  phases : pool.All Phase.Bare

theorem barePool_empty (database : Database) (clock : Nat → Text)
    (accepts : Nat → Bool) :
    BarePool articleId
      (.empty (.initial database clock accepts)) where
  absent := rfl
  phases := Pool.all_empty _ _

variable (json) in
/-- A reader of an article without comments pushes nothing. -/
theorem Phase.Bare.move
    {phase : Phase} (bare : phase.Bare) (reads : phase.Reads)
    {world : World}
    (absent : world.redis.entries (commentListKey articleId) = none)
    (empty : world.database.commentsOf articleId = []) :
    (phase.move json articleId world).1.Bare ∧
      (phase.move json articleId world).2.redis = world.redis := by
  cases phase with
  | looking limit =>
      have nothing :
          world.redis.lrange (commentListKey articleId) 0
            (limit - 1) = [] := by
        simp [Redis.lrange, absent]
      simp only [Phase.move, nothing, List.filterMap_nil,
        List.isEmpty_nil, if_true]
      exact ⟨trivial, trivial⟩
  | selecting limit =>
      have noRows :
          world.database.getCommentsByArticleId articleId limit = [] := by
        rw [Database.getCommentsByArticleId, empty, List.take_nil]
      simp only [Phase.move, noRows]
      exact ⟨rfl, trivial⟩
  | filling comment rest list => exact bare.elim
  | expiring list =>
      refine ⟨bare, ?_⟩
      simp only [Phase.move, Redis.expire, absent]
  | counting list =>
      refine ⟨?_, rfl⟩
      have nothing : list = [] := bare
      rw [nothing]
      exact responseIds_commentsResponse [] _
  | finished response => exact ⟨bare, rfl⟩
  | _ => exact reads.elim

variable (json) in
theorem BarePool.step
    {database : Database} {pool : Pool Phase World}
    {event : PoolEvent CommentRequest}
    (bare : BarePool articleId pool)
    (readers : ReaderPool database pool)
    (empty : database.commentsOf articleId = [])
    (reads : onlyReads event = true) :
    BarePool articleId (phaseStep json articleId pool event) := by
  apply Pool.step_invariant (BarePool articleId) bare
  · rintro request rfl
    refine ⟨bare.absent, ?_⟩
    intro index phase present
    rcases Pool.getElem?_arrived_cases present with ⟨-, rfl⟩ | old
    · cases request with
      | getComments limit => trivial
      | createComment content commenter => cases reads
    · exact bare.phases index phase old
  · intro index phase _ present
    have noComments : pool.world.database.commentsOf articleId = [] := by
      rw [readers.same, empty]
    have moved :=
      (bare.phases index phase present).move json
        (readers.reads index phase present) bare.absent noComments
    refine ⟨?_, ?_⟩
    · show (phase.move json articleId pool.world).2.redis.entries _ = none
      rw [moved.2, bare.absent]
    · intro other later there
      rcases Pool.getElem?_moved_cases there with ⟨-, rfl⟩ | ⟨-, old⟩
      · exact moved.1
      · exact bare.phases other later old

theorem BarePool.noDuplicates
    {pool : Pool Phase World} (bare : BarePool articleId pool) :
    NoDuplicates json articleId
      (pool.map (Phase.code json articleId)) where
  responses := by
    intro index response returned
    have nothing : responseIds response = [] :=
      bare.phases index _ (finished_of_value? returned)
    rw [nothing]
    exact List.nodup_nil
  cached := by
    show (cachedIds json pool.world.redis articleId).Nodup
    simp [cachedIds, Redis.lrange, bare.absent]

/-! ## Every run of readers -/

/--
In every run of requests that only read, no comment is repeated as long as
each request that finds the list empty is alone in filling it.
-/
theorem noDuplicates_of_fillsAlone
    (json : JsonLibrary) (database : Database) (clock : Nat → Text)
    (accepts : Nat → Bool) (articleId : Int)
    (events : List (PoolEvent CommentRequest))
    (reads : ∀ event ∈ events, onlyReads event = true)
    (alone :
      Along (commentStep json articleId) (FillsAlone articleId)
        (.empty (.initial database clock accepts)) events) :
    NoDuplicates json articleId
      (commentRun json articleId (.initial database clock accepts)
        events) := by
  have guarded :=
    (along_of_forall_mem (phaseStep json articleId)
      (.empty (.initial database clock accepts)) reads).and
      (along_phaseStep (.empty (.initial database clock accepts)) alone)
  rw [commentRun_eq_map]
  by_cases empty : database.commentsOf articleId = []
  · have bare :
        BarePool articleId
            (phaseRun json articleId (.initial database clock accepts)
              events) ∧
          ReaderPool database
            (phaseRun json articleId (.initial database clock accepts)
              events) := by
      refine run_invariant_along
        (fun pool =>
          BarePool articleId pool ∧ ReaderPool database pool)
        ?_ ?_ guarded
      · rintro pool event ⟨bare, readers⟩ ⟨read, -⟩
        exact ⟨bare.step json readers empty read, readers.step read⟩
      · exact ⟨barePool_empty database clock accepts,
          readerPool_empty database clock accepts⟩
    exact bare.1.noDuplicates
  · have tidy :
        (∃ pushed, TidyPool json articleId
            (phaseRun json articleId (.initial database clock accepts)
              events) pushed) ∧
          ReaderPool database
            (phaseRun json articleId (.initial database clock accepts)
              events) := by
      refine run_invariant_along
        (fun pool =>
          (∃ pushed, TidyPool json articleId pool pushed) ∧
            ReaderPool database pool)
        ?_ ?_ guarded
      · rintro pool event ⟨tidy, readers⟩ ⟨read, apart⟩
        exact ⟨TidyPool.step tidy
          (fillsApart_of_fillsAlone readers empty apart),
          readers.step read⟩
      · exact ⟨⟨[], tidyPool_empty database clock accepts⟩,
          readerPool_empty database clock accepts⟩
    rcases tidy with ⟨⟨pushed, tidy⟩, -⟩
    exact noDuplicates_map tidy

end

/-! ## Two readers -/

/-- Two requests, one after the other, at the default limit. -/
def readersInTurn : List (PoolEvent CommentRequest) :=
  .arrive (.getComments 20) :: List.replicate 6 (.advance 0) ++
    .arrive (.getComments 20) :: List.replicate 2 (.advance 1)

/-- Two requests whose LRANGEs precede both fills, and a third. -/
def readersTogether : List (PoolEvent CommentRequest) :=
  [.arrive (.getComments 20), .arrive (.getComments 20), .advance 0,
    .advance 1] ++ List.replicate 5 (.advance 0) ++
    List.replicate 5 (.advance 1) ++
    .arrive (.getComments 20) :: List.replicate 2 (.advance 2)

theorem noDuplicates_of_readersInTurn :
    NoDuplicates Json.compactLibrary 1
      (commentRun Json.compactLibrary 1
        (.initial twoComments (fun _ => []) (fun _ => true))
        readersInTurn) :=
  noDuplicates_of_fillsAlone Json.compactLibrary twoComments
    (fun _ => []) (fun _ => true) 1 readersInTurn (by decide)
    (by decide +kernel)

/-- Two fills push every comment twice, and the third request shows it. -/
theorem duplicates_of_readersTogether :
    ¬ NoDuplicates Json.compactLibrary 1
      (commentRun Json.compactLibrary 1
        (.initial twoComments (fun _ => []) (fun _ => true))
        readersTogether) := by
  intro none
  have shown :
      ((commentRun Json.compactLibrary 1
          (.initial twoComments (fun _ => []) (fun _ => true))
          readersTogether).value? 2).map responseIds =
        some [1, 2, 1, 2] := by
    decide +kernel
  rcases Option.map_eq_some_iff.mp shown with ⟨response, returned, ids⟩
  have distinct := none.responses 2 response returned
  rw [ids] at distinct
  revert distinct
  decide

end LightningServer.Service
