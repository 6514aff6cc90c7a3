import LightningServer.Foundation.JsonParser
import LightningServer.Service.CommentPushes

/-!
# When a later reader sees a posted comment

`createComment` inserts its row and then deletes the list, but a request that
made its SELECT before the INSERT can push its rows after the DEL, and later
readers are then served without the new comment until the list expires or is
deleted again.

A history is a post, from its INSERT to its return, and a reader that arrives
afterwards.  The reader sees the row exactly if its LRANGE finds nothing
pushed since the last DEL, or the row among the last texts pushed.  Between
the writer's DEL and that LRANGE only three things can hide the row: a DEL
while another request has rows to push that lack the new one or have been
pushed in part, a SELECT while another request has rows to push, and the
LRANGE at such a moment.  What happened before the DEL does not matter.
-/

namespace LightningServer.Service

open LightningServer.Foundation
open LightningServer.Foundation.Numerals
open LightningServer.Foundation.Transition
open LightningServer.Store
open LightningServer.Service.CommentService

/-! ## Fills that are not cut -/

/-- No fill is cut by this event. -/
def KeepsFill (row : Comment) (pool : Pool Phase World) :
    PoolEvent CommentRequest → Prop
  | .arrive _ => True
  | .advance index =>
      ∀ phase ∈ pool.threads[index]?, phase.CutsNone row pool index

/-- The DEL is next, or has been made. -/
def Phase.reachesDelete : Phase → Bool
  | .deleting _ _ => true
  | .finished _ => true
  | _ => false

/-- From the DEL of the writer on, no fill is cut. -/
def KeepsFillAfterDelete (row : Comment) (writer : Nat)
    (pool : Pool Phase World) (event : PoolEvent CommentRequest) : Prop :=
  pool.threads[writer]?.any Phase.reachesDelete = true →
    KeepsFill row pool event

instance : DecidablePred Phase.Pushes
  | .filling _ _ _ => .isTrue trivial
  | .looking _ => .isFalse not_false
  | .selecting _ => .isFalse not_false
  | .expiring _ => .isFalse not_false
  | .counting _ => .isFalse not_false
  | .checking _ => .isFalse not_false
  | .inserting _ => .isFalse not_false
  | .stamping _ _ => .isFalse not_false
  | .deleting _ _ => .isFalse not_false
  | .finished _ => .isFalse not_false

instance (row : Comment) : DecidablePred (Phase.Fresh row)
  | .filling comment rest [] =>
      inferInstanceAs (Decidable (row ∈ comment :: rest))
  | .filling _ _ (_ :: _) => .isFalse not_false
  | .looking _ => .isFalse not_false
  | .selecting _ => .isFalse not_false
  | .expiring _ => .isFalse not_false
  | .counting _ => .isFalse not_false
  | .checking _ => .isFalse not_false
  | .inserting _ => .isFalse not_false
  | .stamping _ _ => .isFalse not_false
  | .deleting _ _ => .isFalse not_false
  | .finished _ => .isFalse not_false

instance (row : Comment) (pool : Pool Phase World) (index : Nat) :
    DecidablePred (Phase.CutsNone row pool index)
  | .deleting _ _ =>
      inferInstanceAs (Decidable (pool.AtMostOne Phase.Pushes ∧
        pool.All fun phase => phase.Pushes → phase.Fresh row))
  | .selecting _ =>
      inferInstanceAs (Decidable (pool.NoOther index Phase.Pushes))
  | .filling _ _ _ => .isTrue trivial
  | .looking _ => .isTrue trivial
  | .expiring _ => .isTrue trivial
  | .counting _ => .isTrue trivial
  | .checking _ => .isTrue trivial
  | .inserting _ => .isTrue trivial
  | .stamping _ _ => .isTrue trivial
  | .finished _ => .isTrue trivial

instance (row : Comment) (pool : Pool Phase World) :
    DecidablePred (KeepsFill row pool)
  | .arrive _ => .isTrue trivial
  | .advance index =>
      inferInstanceAs (Decidable (∀ phase ∈ pool.threads[index]?, _))

instance (row : Comment) (writer : Nat) (pool : Pool Phase World) :
    DecidablePred (KeepsFillAfterDelete row writer pool) :=
  fun event => inferInstanceAs (Decidable (_ → KeepsFill row pool event))

/-! ## Histories -/

/-- The code of a response. -/
def responseCode? (response : Json) : Option Int :=
  (response.field? (text "code")).bind Json.number?

/-- The events around one post and one reader. -/
structure History where
  limit : Int
  before : List (PoolEvent CommentRequest)
  /-- the thread whose INSERT comes next -/
  writer : Nat
  middle : List (PoolEvent CommentRequest)
  -- here the reader arrives
  waiting : List (PoolEvent CommentRequest)
  -- here the reader makes its LRANGE
  after : List (PoolEvent CommentRequest)

namespace History

variable (json : JsonLibrary) (articleId : Int) (world : World)
variable (history : History)

/-- The events after the INSERT. -/
def afterInsert : List (PoolEvent CommentRequest) :=
  history.before ++ [.advance history.writer]

/-- The events before the reader arrives. -/
def posting : List (PoolEvent CommentRequest) :=
  history.afterInsert ++ history.middle

/-- The reader's arrival, and what comes before its LRANGE. -/
def arriving : List (PoolEvent CommentRequest) :=
  .arrive (.getComments history.limit) :: history.waiting

/-- The events before the reader's LRANGE. -/
def untilLookup : List (PoolEvent CommentRequest) :=
  history.posting ++ history.arriving

/-- The position of the reader. -/
def reader : Nat :=
  (commentRun json articleId world history.posting).threads.length

def events : List (PoolEvent CommentRequest) :=
  history.untilLookup ++
    .advance (history.reader json articleId world) :: history.after

/-- The row of the INSERT, as it is received. -/
def row (comment : Comment) : Comment :=
  let later := (commentRun json articleId world history.before).world
  (later.database.newRow comment later.now).received

/-- The post of the comment returned code 0 before the reader arrived. -/
structure PostsThenReads (comment : Comment) : Prop where
  range : 1 ≤ history.limit ∧ history.limit ≤ 50
  common :
    ∀ event ∈ history.events json articleId world,
      asksFor history.limit event = true
  inserts :
    (commentRun json articleId world history.before).nextCall?
        history.writer =
      some (.createComment comment)
  returned :
    ((commentRun json articleId world history.posting).value?
        history.writer).bind responseCode? =
      some 0
  /-- the reader's first call is its LRANGE -/
  waits :
    ∀ event ∈ history.waiting,
      event ≠ .advance (history.reader json articleId world)
  few :
    ∀ count,
      let pool :=
        commentRun json articleId world
          ((history.events json articleId world).take count)
      (pool.world.database.commentsOf articleId).length ≤
        history.limit.toNat

/-- The new comment is in the response of the reader. -/
def Shows (comment : Comment) (response : Json) : Prop :=
  commentToJson (history.row json articleId world comment) ∈
    responseList response

/--
The calls before the reader's LRANGE have pushed nothing since the last DEL,
or the text of the row among the last that a reader takes.
-/
def FindsPost (comment : Comment) : Prop :=
  let pushed :=
    pushedSinceDelete
      (commentCalls json articleId world history.untilLookup)
  pushed = [] ∨
    cacheText json (history.row json articleId world comment) ∈
      pushed.reverse.take history.limit.toNat

/-- No fill is cut between the writer's DEL and the reader's LRANGE. -/
structure KeepsFills (comment : Comment) : Prop where
  posting :
    Along (phaseStep json articleId)
      (KeepsFillAfterDelete (history.row json articleId world comment)
        history.writer)
      (phaseRun json articleId world history.afterInsert)
      history.middle
  arriving :
    Along (phaseStep json articleId)
      (KeepsFill (history.row json articleId world comment))
      (phaseRun json articleId world history.posting)
      history.arriving
  /-- the reader's LRANGE itself does not meet a fill either -/
  lookup :
    let pool := phaseRun json articleId world history.untilLookup
    pool.world.redis.lrange (commentListKey articleId) 0
          (history.limit - 1) =
        [] ∨
      pool.NoOther (history.reader json articleId world) Phase.Pushes

end History

/-! ## From the INSERT to the return -/

section

variable {json : JsonLibrary} {articleId limit : Int} {row : Comment}

variable (json articleId limit row) in
/-- The writer still has its DEL to make, or the list is settled. -/
def Posted (writer : Nat) (pool : Pool Phase World) : Prop :=
  (∃ comment,
      pool.threads[writer]? = some (.stamping row comment) ∨
        pool.threads[writer]? = some (.deleting row comment)) ∨
    (∃ response, pool.threads[writer]? = some (.finished response)) ∧
      ∃ pushed, Settled json articleId limit row pool pushed

variable (articleId limit row) in
/-- What holds at every step from the INSERT on. -/
structure Kept (pool : Pool Phase World) : Prop where
  serves : ServesAll articleId limit pool
  stocked : StockedAll articleId limit pool
  member : row ∈ pool.world.database.commentsOf articleId

theorem Kept.step
    (low : 1 ≤ limit) (high : limit ≤ 50) {pool : Pool Phase World}
    {event : PoolEvent CommentRequest}
    (kept : Kept articleId limit row pool)
    (asks : asksFor limit event = true) :
    Kept articleId limit row (phaseStep json articleId pool event) where
  serves := kept.serves.step low high asks
  stocked := kept.stocked.step kept.serves event
  member := by
    apply Pool.step_invariant
      (fun pool : Pool Phase World =>
        row ∈ pool.world.database.commentsOf articleId)
      kept.member
    · intro _ _
      exact kept.member
    · intro index phase _ _
      exact phase.grows_move json pool.world row kept.member

theorem Posted.step
    {pool : Pool Phase World} {writer : Nat}
    {event : PoolEvent CommentRequest}
    (posted : Posted json articleId limit row writer pool)
    (kept : Kept articleId limit row pool)
    (short :
      (pool.world.database.commentsOf articleId).length ≤ limit.toNat)
    (keeps : KeepsFillAfterDelete row writer pool event) :
    Posted json articleId limit row writer
      (phaseStep json articleId pool event) := by
  have uncut
      {index : Nat} {phase : Phase} (isEvent : event = .advance index)
      (present : pool.threads[index]? = some phase)
      (reaches :
        pool.threads[writer]?.any Phase.reachesDelete = true) :
      phase.CutsNone row pool index := by
    subst isEvent
    exact keeps reaches phase present
  apply Pool.step_invariant
    (Posted json articleId limit row writer) posted
  · rintro request rfl
    rcases posted with ⟨comment, present | present⟩ |
      ⟨⟨response, present⟩, pushed, settled⟩
    · exact Or.inl
        ⟨comment, Or.inl (Pool.getElem?_arrived_of_some present)⟩
    · exact Or.inl
        ⟨comment, Or.inr (Pool.getElem?_arrived_of_some present)⟩
    · exact Or.inr
        ⟨⟨response, Pool.getElem?_arrived_of_some present⟩, pushed,
          settled.arrived request⟩
  · intro index phase isEvent present
    by_cases same : index = writer
    · subst same
      have moved :=
        Pool.getElem?_moved_self present
          (phase.move json articleId pool.world)
      rcases posted with ⟨comment, there | there⟩ |
        ⟨⟨response, there⟩, pushed, settled⟩
      · rw [there] at present
        cases present
        exact Or.inl ⟨_, Or.inr moved⟩
      · have cuts := uncut isEvent present (by rw [there]; rfl)
        rw [there] at present
        cases present
        exact Or.inr ⟨⟨_, moved⟩, [],
          .deleted index row comment cuts.1 cuts.2 kept.stocked⟩
      · have cuts := uncut isEvent present (by rw [there]; rfl)
        refine Or.inr ⟨?_, _, settled.moved present cuts kept.stocked
          (kept.serves index phase present) kept.member short⟩
        rw [there] at present
        cases present
        exact ⟨response, moved⟩
    · have stays (result : Phase × World) :
          (pool.moved index result).threads[writer]? =
            pool.threads[writer]? :=
        Pool.getElem?_moved_of_ne pool (Ne.symm same) result
      rcases posted with ⟨comment, there | there⟩ |
        ⟨⟨response, there⟩, pushed, settled⟩
      · exact Or.inl ⟨comment, Or.inl ((stays _).trans there)⟩
      · exact Or.inl ⟨comment, Or.inr ((stays _).trans there)⟩
      · have cuts := uncut isEvent present (by rw [there]; rfl)
        exact Or.inr
          ⟨⟨response, (stays _).trans there⟩, _,
            settled.moved present cuts kept.stocked
              (kept.serves index phase present) kept.member short⟩

/-- A row that has settled stays so while no fill is cut. -/
theorem Settled.step
    {pool : Pool Phase World} {pushed : List Comment}
    {event : PoolEvent CommentRequest}
    (settled : Settled json articleId limit row pool pushed)
    (kept : Kept articleId limit row pool)
    (short :
      (pool.world.database.commentsOf articleId).length ≤ limit.toNat)
    (keeps : KeepsFill row pool event) :
    ∃ later, Settled json articleId limit row
      (phaseStep json articleId pool event) later := by
  apply Pool.step_invariant
    (fun pool : Pool Phase World =>
      ∃ later, Settled json articleId limit row pool later)
    ⟨pushed, settled⟩
  · rintro request rfl
    exact ⟨pushed, settled.arrived request⟩
  · rintro index phase rfl present
    exact ⟨_, settled.moved present (keeps phase present) kept.stocked
      (kept.serves index phase present) kept.member short⟩

variable (row) in
/-- The writer has its row in the table, and its DEL to make. -/
def Awaits (writer : Nat) (pool : Pool Phase World) : Prop :=
  ∃ comment,
    pool.threads[writer]? = some (.stamping row comment) ∨
      pool.threads[writer]? = some (.deleting row comment)

/-- It makes its DEL before it returns. -/
theorem deletes_run
    {pool : Pool Phase World} {writer : Nat}
    (awaits : Awaits row writer pool)
    (events : List (PoolEvent CommentRequest)) :
    Awaits row writer (run (phaseStep json articleId) pool events) ∨
      deletes (outputs (phaseStep json articleId)
        (phaseCalls json articleId) pool events) = true := by
  refine run_outputs_invariant
    (fun pool calls => Awaits row writer pool ∨ deletes calls = true)
    ?_ events (Or.inl awaits)
  rintro pool calls event (⟨comment, there⟩ | deleted)
  swap
  · right
    rw [deletes_append, deleted, Bool.true_or]
  cases event with
  | arrive request =>
      left
      rcases there with there | there
      · exact ⟨comment, Or.inl (Pool.getElem?_arrived_of_some there)⟩
      · exact ⟨comment, Or.inr (Pool.getElem?_arrived_of_some there)⟩
  | advance index =>
      by_cases same : index = writer
      · subst same
        rcases there with there | there
        · left
          rw [phaseStep, Pool.step_advance_of_some _ _ there]
          exact ⟨_, Or.inr (Pool.getElem?_moved_self there _)⟩
        · right
          rw [phaseCalls_of_some there, deletes_append, Bool.or_eq_true]
          exact Or.inr rfl
      · left
        have waits :
            ∀ other ∈ ([.advance index] : List (PoolEvent CommentRequest)),
              other ≠ .advance writer := by
          intro other member
          rw [List.mem_singleton.mp member]
          rintro ⟨⟩
          exact same rfl
        have stays {phase : Phase}
            (there : pool.threads[writer]? = some phase) :
            (run (phaseStep json articleId) pool
                [.advance index]).threads[writer]? =
              some phase :=
          Pool.getElem?_run_of_waiting there waits
        rcases there with there | there
        · exact ⟨comment, Or.inl (stays there)⟩
        · exact ⟨comment, Or.inr (stays there)⟩

/-! ## From the LRANGE to the response -/

variable (row) in
/-- The response will have the row. -/
def Phase.Has : Phase → Prop
  | .selecting _ => True
  | .filling comment rest list =>
      commentToJson row ∈ list ∨ row ∈ comment :: rest
  | .expiring list => commentToJson row ∈ list
  | .counting list => commentToJson row ∈ list
  | .finished response => commentToJson row ∈ responseList response
  | _ => False

theorem Phase.has_pushing
    {comments : List Comment} {list : List Json}
    (has : commentToJson row ∈ list ∨ row ∈ comments) :
    (Phase.pushing comments list).Has row := by
  cases comments with
  | nil =>
      rcases has with listed | left
      · exact listed
      · cases left
  | cons comment rest => exact has

variable (json) in
theorem Phase.Has.move
    {phase : Phase} {world : World} (has : phase.Has row)
    (serves : phase.Serves articleId limit)
    (member : row ∈ world.database.commentsOf articleId)
    (short :
      (world.database.commentsOf articleId).length ≤ limit.toNat) :
    (phase.move json articleId world).1.Has row := by
  cases phase with
  | selecting asked =>
      have equal : asked = limit := serves
      subst equal
      apply Phase.has_pushing
      right
      rw [getCommentsByArticleId_eq short]
      exact member
  | filling comment rest list =>
      apply Phase.has_pushing
      rcases has with listed | left
      · exact Or.inl (List.mem_append_left _ listed)
      · rcases List.mem_cons.mp left with rfl | later
        · exact Or.inl
            (List.mem_append_right _ (List.mem_singleton_self _))
        · exact Or.inr later
  | expiring list => exact has
  | counting list => exact has
  | finished response => exact has
  | _ => exact has.elim

/-- The response will have this list. -/
def Phase.Answers (list : List Json) (phase : Phase) : Prop :=
  phase = .counting list ∨
    ∃ response, phase = .finished response ∧ responseList response = list

variable (json articleId) in
theorem Phase.Answers.move
    {list : List Json} {phase : Phase} (answers : phase.Answers list)
    (world : World) : (phase.move json articleId world).1.Answers list := by
  rcases answers with rfl | ⟨response, rfl, same⟩
  · exact Or.inr ⟨_, rfl, responseList_commentsResponse _ _⟩
  · exact Or.inr ⟨response, rfl, same⟩

/-- What one thread is on its way to, through a run. -/
theorem thread_run
    (kind : Phase → Prop) {index : Nat}
    {condition : Pool Phase World → PoolEvent CommentRequest → Prop}
    (moves :
      ∀ pool event phase, condition pool event →
        pool.threads[index]? = some phase → kind phase →
          kind (phase.move json articleId pool.world).1)
    {pool : Pool Phase World} {events : List (PoolEvent CommentRequest)}
    (start : ∃ phase, pool.threads[index]? = some phase ∧ kind phase)
    (guarded : Along (phaseStep json articleId) condition pool events) :
    ∃ phase,
      (run (phaseStep json articleId) pool events).threads[index]? =
          some phase ∧
        kind phase := by
  refine run_invariant_along
    (fun pool : Pool Phase World =>
      ∃ phase, pool.threads[index]? = some phase ∧ kind phase)
    ?_ start guarded
  rintro pool event ⟨phase, there, isKind⟩ holds
  apply Pool.step_invariant
    (fun pool : Pool Phase World =>
      ∃ phase, pool.threads[index]? = some phase ∧ kind phase)
    ⟨phase, there, isKind⟩
  · intro request _
    exact ⟨phase, Pool.getElem?_arrived_of_some there, isKind⟩
  · intro mover moved _ present
    by_cases same : index = mover
    · subst same
      rw [there] at present
      cases present
      exact ⟨_, Pool.getElem?_moved_self there _,
        moves pool event phase holds there isKind⟩
    · exact ⟨phase, (Pool.getElem?_moved_of_ne pool same _).trans there,
        isKind⟩

/-! ## Runs -/

/-- A request that has returned stays so. -/
theorem finished_step
    {pool : Pool Phase World} {index : Nat} {response : Json}
    (finished : pool.threads[index]? = some (.finished response))
    (event : PoolEvent CommentRequest) :
    (phaseStep json articleId pool event).threads[index]? =
      some (.finished response) := by
  apply Pool.step_invariant
    (fun pool : Pool Phase World =>
      pool.threads[index]? = some (.finished response))
    finished
  · intro _ _
    exact Pool.getElem?_arrived_of_some finished
  · intro other phase _ present
    by_cases same : index = other
    · subst same
      rw [finished] at present
      cases present
      exact Pool.getElem?_moved_self finished _
    · exact (Pool.getElem?_moved_of_ne pool same _).trans finished

theorem inserting_of_nextCall?
    {pool : Pool Phase World} {index : Nat} {comment : Comment}
    (next :
      (pool.map (Phase.code json articleId)).nextCall? index =
        some (.createComment comment)) :
    pool.threads[index]? = some (.inserting comment) := by
  rw [Pool.nextCall?, Pool.map, List.getElem?_map] at next
  rcases Option.bind_eq_some_iff.mp next with ⟨code, there, call⟩
  rcases Option.map_eq_some_iff.mp there with ⟨phase, present, rfl⟩
  rw [Phase.nextCall_code] at call
  cases phase with
  | inserting other =>
      cases call
      exact present
  | _ => cases call

variable (json) in
/-- The INSERT is refused, or the row is in the table. -/
theorem inserting_moved
    {pool : Pool Phase World} {writer : Nat} {comment : Comment}
    (present : pool.threads[writer]? = some (.inserting comment))
    (own : comment.articleId = articleId) :
    let later :=
      pool.moved writer
        ((Phase.inserting comment).move json articleId pool.world)
    let inserted :=
      (pool.world.database.newRow comment pool.world.now).received
    later.threads[writer]? =
        some (.finished
          (failure 500 (text "Failed to create comment"))) ∨
      later.threads[writer]? = some (.stamping inserted comment) ∧
        inserted ∈ later.world.database.commentsOf articleId := by
  intro later inserted
  have moved :=
    Pool.getElem?_moved_self present
      ((Phase.inserting comment).move json articleId pool.world)
  rcases pool.world.database.createComment_cases comment
      (pool.world.accepts pool.world.ticks) pool.world.now with
    ⟨refused, -⟩ | ⟨-, created, -, appended, -⟩
  · left
    have next :
        ((Phase.inserting comment).move json articleId pool.world).1 =
          .finished (failure 500 (text "Failed to create comment")) := by
      simp only [Phase.move, refused, Bool.false_eq_true, if_false]
    rw [next] at moved
    exact moved
  · right
    have next :
        ((Phase.inserting comment).move json articleId pool.world).1 =
          .stamping inserted comment := by
      simp only [Phase.move, created, if_true, inserted]
    rw [next] at moved
    refine ⟨moved, ?_⟩
    rw [Database.mem_commentsOf]
    refine ⟨?_, own⟩
    show inserted ∈
      (pool.world.database.createComment comment
        (pool.world.accepts pool.world.ticks) pool.world.now).2.comments
    rw [Database.comments_of_append appended]
    exact List.mem_append_right _ (List.mem_singleton_self _)

variable (articleId limit) in
/-- The table is short enough, and every request has the common limit. -/
def Common (pool : Pool Phase World)
    (event : PoolEvent CommentRequest) : Prop :=
  (pool.world.database.commentsOf articleId).length ≤ limit.toNat ∧
    asksFor limit event = true

theorem kept_run
    (low : 1 ≤ limit) (high : limit ≤ 50) {pool : Pool Phase World}
    {events : List (PoolEvent CommentRequest)}
    (kept : Kept articleId limit row pool)
    (common :
      Along (phaseStep json articleId) (Common articleId limit) pool
        events) :
    Kept articleId limit row (run (phaseStep json articleId) pool events) :=
  run_invariant_along (Kept articleId limit row)
    (fun _ _ kept holds => kept.step low high holds.2) kept common

theorem posted_run
    (low : 1 ≤ limit) (high : limit ≤ 50) {pool : Pool Phase World}
    {writer : Nat} {events : List (PoolEvent CommentRequest)}
    (posted : Posted json articleId limit row writer pool)
    (kept : Kept articleId limit row pool)
    (common :
      Along (phaseStep json articleId) (Common articleId limit) pool
        events)
    (keeps :
      Along (phaseStep json articleId) (KeepsFillAfterDelete row writer)
        pool events) :
    Posted json articleId limit row writer
      (run (phaseStep json articleId) pool events) := by
  refine (run_invariant_along
    (fun pool =>
      Posted json articleId limit row writer pool ∧
        Kept articleId limit row pool)
    ?_ ⟨posted, kept⟩ (common.and keeps)).1
  rintro pool event ⟨posted, kept⟩ ⟨⟨short, asks⟩, keeps⟩
  exact ⟨posted.step kept short keeps, kept.step low high asks⟩

theorem settled_run
    (low : 1 ≤ limit) (high : limit ≤ 50) {pool : Pool Phase World}
    {pushed : List Comment} {events : List (PoolEvent CommentRequest)}
    (settled : Settled json articleId limit row pool pushed)
    (kept : Kept articleId limit row pool)
    (common :
      Along (phaseStep json articleId) (Common articleId limit) pool
        events)
    (keeps :
      Along (phaseStep json articleId) (KeepsFill row) pool events) :
    ∃ later, Settled json articleId limit row
      (run (phaseStep json articleId) pool events) later := by
  refine (run_invariant_along
    (fun pool =>
      (∃ later, Settled json articleId limit row pool later) ∧
        Kept articleId limit row pool)
    ?_ ⟨⟨pushed, settled⟩, kept⟩ (common.and keeps)).1
  rintro pool event ⟨⟨later, settled⟩, kept⟩ ⟨⟨short, asks⟩, keeps⟩
  exact ⟨settled.step kept short keeps, kept.step low high asks⟩

theorem traced_run
    (low : 1 ≤ limit) (high : limit ≤ 50) (world : World)
    {events : List (PoolEvent CommentRequest)}
    (common :
      Along (phaseStep json articleId) (Common articleId limit)
        (.empty world) events) :
    Traced json articleId limit (phaseRun json articleId world events)
      (commentCalls json articleId world events) := by
  rw [commentCalls_eq]
  exact run_outputs_invariant_along (Traced json articleId limit)
    (fun _ _ _ traced holds => traced.step low high holds.2)
    (traced_empty limit world) common

/-- The post that returned code 0 has its row in the table. -/
theorem stamping_of_returned
    {pool : Pool Phase World} {writer : Nat} {comment : Comment}
    {middle : List (PoolEvent CommentRequest)}
    (serves : ServesAll articleId limit pool)
    (present : pool.threads[writer]? = some (.inserting comment))
    (inserted :
      (pool.world.database.newRow comment pool.world.now).received = row)
    {response : Json}
    (finished :
      (run (phaseStep json articleId) pool
          (.advance writer :: middle)).threads[writer]? =
        some (.finished response))
    (code : responseCode? response = some 0) :
    let later := phaseStep json articleId pool (.advance writer)
    later.threads[writer]? = some (.stamping row comment) ∧
      row ∈ later.world.database.commentsOf articleId := by
  intro later
  have moved :
      later =
        pool.moved writer
          ((Phase.inserting comment).move json articleId pool.world) :=
    Pool.step_advance_of_some _ _ present
  have outcome := inserting_moved json present
    (serves writer _ present)
  rw [← moved, inserted] at outcome
  rcases outcome with refused | stamping
  · -- the response has code 500
    have stays :
        (run (phaseStep json articleId) pool
            (.advance writer :: middle)).threads[writer]? =
          some (.finished
            (failure 500 (text "Failed to create comment"))) :=
      run_invariant
        (fun pool : Pool Phase World =>
          pool.threads[writer]? =
            some (.finished
              (failure 500 (text "Failed to create comment"))))
        (fun _ event there => finished_step there event) middle refused
    cases finished.symm.trans stays
    cases code
  · exact stamping

/-- The texts in the list do not depend on how it is described. -/
theorem ListHolds.texts_eq
    {redis : Redis} {pushed others : List Comment}
    (holds : ListHolds json articleId redis pushed)
    (same : ListHolds json articleId redis others) :
    pushed.map (cacheText json) = others.map (cacheText json) := by
  rcases holds with ⟨rfl, absent⟩ | ⟨-, volatile, present⟩
  · rcases same with ⟨rfl, -⟩ | ⟨-, volatile, present⟩
    · rfl
    · rw [absent] at present
      cases present
  · rcases same with ⟨-, absent⟩ | ⟨-, other, there⟩
    · rw [absent] at present
      cases present
    · rw [present] at there
      have equal :
          pushed.map (cacheText json) = others.map (cacheText json) ∧
            volatile = other := by
        simpa using there
      exact equal.1

/-- What a reader finds, in texts and in rows. -/
theorem shows_iff_texts
    {database : Database} {pushed : List Comment}
    (own : ∀ comment ∈ pushed, comment ∈ database.commentsOf articleId)
    (member : row ∈ database.commentsOf articleId) :
    Shows limit row pushed ↔
      pushed.map (cacheText json) = [] ∨
        cacheText json row ∈
          (pushed.map (cacheText json)).reverse.take limit.toNat := by
  rw [Shows, List.map_eq_nil_iff, ← List.map_reverse, ← List.map_take]
  apply or_congr_right
  constructor
  · exact fun listed => List.mem_map.mpr ⟨row, listed, rfl⟩
  · intro listed
    rcases List.mem_map.mp listed with ⟨other, found, equal⟩
    have isOwn := own other
      (List.mem_reverse.mp (List.mem_of_mem_take found))
    rw [cacheText_inj json
      (database.commentsFit row (Database.mem_commentsOf.mp member).1)
      (database.commentsFit other (Database.mem_commentsOf.mp isOwn).1)
      equal.symm]
    exact found

/-- The response of a reader whose LRANGE comes next. -/
theorem response_of_lookup
    (low : 1 ≤ limit) (high : limit ≤ 50) {pool : Pool Phase World}
    {reader : Nat} {pushed : List Comment}
    (present : pool.threads[reader]? = some (.looking limit))
    (holds : ListHolds json articleId pool.world.redis pushed)
    (own :
      ∀ comment ∈ pushed,
        comment ∈ pool.world.database.commentsOf articleId)
    (kept : Kept articleId limit row pool)
    {after : List (PoolEvent CommentRequest)}
    (common :
      Along (phaseStep json articleId) (Common articleId limit) pool
        (.advance reader :: after))
    {response : Json}
    (finished :
      (run (phaseStep json articleId) pool
          (.advance reader :: after)).threads[reader]? =
        some (.finished response)) :
    commentToJson row ∈ responseList response ↔ Shows limit row pushed := by
  have moved :
      phaseStep json articleId pool (.advance reader) =
        pool.moved reader
          ((Phase.looking limit).move json articleId pool.world) :=
    Pool.step_advance_of_some _ _ present
  have there :=
    Pool.getElem?_moved_self present
      ((Phase.looking limit).move json articleId pool.world)
  rw [← moved] at there
  rw [run_cons] at finished
  have later := common.2
  have keptNext :
      Kept articleId limit row
        (phaseStep json articleId pool (.advance reader)) :=
    kept.step low high common.1.2
  rcases holds.move_looking own low with ⟨none, next⟩ | ⟨some, next⟩
  · -- the reader selects the row itself
    refine iff_of_true ?_ (Or.inl none)
    rw [next] at there
    have guarded :
        Along (phaseStep json articleId)
          (fun pool event =>
            Common articleId limit pool event ∧
              Kept articleId limit row pool)
          (phaseStep json articleId pool (.advance reader)) after :=
      later.keeping (Kept articleId limit row)
        (fun _ _ kept holds => kept.step low high holds.2) keptNext
    rcases thread_run (Phase.Has row)
        (fun pool event phase holds isThere has =>
          Phase.Has.move json has (holds.2.serves reader phase isThere)
            holds.2.member holds.1.1)
        ⟨_, there, trivial⟩ guarded with
      ⟨phase, isThere, has⟩
    cases isThere.symm.trans finished
    exact has
  · -- the reader answers what it has found
    rw [next] at there
    rcases thread_run
        (Phase.Answers
          ((pushed.reverse.take limit.toNat).map commentToJson))
        (fun pool event phase _ _ answers =>
          answers.move json articleId pool.world)
        ⟨_, there, Or.inl rfl⟩ later with
      ⟨phase, isThere, answers⟩
    cases isThere.symm.trans finished
    rcases answers with impossible | ⟨_, ⟨⟩, same⟩
    · cases impossible
    · rw [same, Shows, or_iff_right some,
        List.mem_map_of_injective commentToJson_injective]

end

namespace History

variable (json : JsonLibrary) (articleId : Int) (world : World)
variable (history : History)

theorem reader_eq :
    history.reader json articleId world =
      (phaseRun json articleId world history.posting).threads.length := by
  rw [reader, commentRun_eq_map, Pool.map, List.length_map]

theorem phaseRun_afterInsert :
    phaseRun json articleId world history.afterInsert =
      phaseStep json articleId
        (phaseRun json articleId world history.before)
        (.advance history.writer) := by
  rw [phaseRun, afterInsert, run_append]
  rfl

theorem phaseRun_posting :
    phaseRun json articleId world history.posting =
      run (phaseStep json articleId)
        (phaseRun json articleId world history.afterInsert)
        history.middle := by
  rw [phaseRun, posting, run_append]
  rfl

theorem phaseRun_untilLookup :
    phaseRun json articleId world history.untilLookup =
      run (phaseStep json articleId)
        (phaseRun json articleId world history.posting)
        history.arriving := by
  rw [phaseRun, untilLookup, run_append]
  rfl

theorem phaseRun_events :
    phaseRun json articleId world (history.events json articleId world) =
      run (phaseStep json articleId)
        (phaseRun json articleId world history.untilLookup)
        (.advance (history.reader json articleId world) ::
          history.after) := by
  rw [phaseRun, events, run_append]
  rfl

/-- The calls of the history, from the INSERT on. -/
theorem deletes_untilLookup
    (deleted :
      deletes (outputs (phaseStep json articleId)
        (phaseCalls json articleId)
        (phaseRun json articleId world history.afterInsert)
        history.middle) = true) :
    deletes (commentCalls json articleId world history.untilLookup) =
      true := by
  rw [commentCalls_eq, untilLookup, posting, outputs_append, outputs_append,
    deletes_append, deletes_append]
  rw [phaseRun] at deleted
  rw [deleted, Bool.or_true, Bool.true_or]

/-- The reader comes to its LRANGE. -/
theorem looking_untilLookup
    (range : 1 ≤ history.limit ∧ history.limit ≤ 50)
    (waits :
      ∀ event ∈ history.waiting,
        event ≠ .advance (history.reader json articleId world)) :
    (phaseRun json articleId world history.untilLookup).threads[
        history.reader json articleId world]? =
      some (.looking history.limit) := by
  rw [phaseRun_untilLookup, arriving, run_cons]
  apply Pool.getElem?_run_of_waiting _ waits
  rw [reader_eq]
  show ((phaseRun json articleId world history.posting).threads ++
      [Phase.looking (clampLimit history.limit)])[
    (phaseRun json articleId world history.posting).threads.length]? = _
  rw [List.getElem?_concat_length, clampLimit_of_range range.1 range.2]

/-- The conditions on the runs, in the parts of a history. -/
theorem common_parts
    {comment : Comment}
    (scenario : history.PostsThenReads json articleId world comment) :
    Along (phaseStep json articleId) (Common articleId history.limit)
        (.empty world) history.before ∧
      Common articleId history.limit
        (phaseRun json articleId world history.before)
        (.advance history.writer) ∧
      Along (phaseStep json articleId) (Common articleId history.limit)
        (phaseRun json articleId world history.afterInsert)
        history.middle ∧
      Along (phaseStep json articleId) (Common articleId history.limit)
        (phaseRun json articleId world history.posting)
        history.arriving ∧
      Along (phaseStep json articleId) (Common articleId history.limit)
        (phaseRun json articleId world history.untilLookup)
        (.advance (history.reader json articleId world) ::
          history.after) := by
  have codes :
      Along (commentStep json articleId)
        (fun pool event =>
          (pool.world.database.commentsOf articleId).length ≤
              history.limit.toNat ∧
            asksFor history.limit event = true)
        (.empty world) (history.events json articleId world) :=
    Along.and (along_of_forall_take scenario.few)
      (along_of_forall_mem _ _ scenario.common)
  have phases := along_phaseStep (.empty world) codes
  rw [events, along_append, untilLookup, along_append, posting,
    along_append, afterInsert, along_append] at phases
  rcases phases with ⟨⟨⟨⟨before, insert, -⟩, middle⟩, arriving⟩, after⟩
  exact ⟨before, insert, middle, arriving, after⟩

end History

namespace History

instance (json : JsonLibrary) (articleId : Int) (world : World)
    (history : History) (comment : Comment) :
    Decidable (history.PostsThenReads json articleId world comment) :=
  let few (pool : CommentPool) : Prop :=
    (pool.world.database.commentsOf articleId).length ≤
      history.limit.toNat
  let steps :=
    forall_take_iff (commentStep json articleId) few (.empty world)
      (history.events json articleId world)
  haveI : DecidablePred few := fun _ => Nat.decLe _ _
  decidable_of_iff
    ((1 ≤ history.limit ∧ history.limit ≤ 50) ∧
      (∀ event ∈ history.events json articleId world,
        asksFor history.limit event = true) ∧
      (commentRun json articleId world history.before).nextCall?
          history.writer =
        some (.createComment comment) ∧
      ((commentRun json articleId world history.posting).value?
          history.writer).bind responseCode? =
        some 0 ∧
      (∀ event ∈ history.waiting,
        event ≠ .advance (history.reader json articleId world)) ∧
      few (.empty world) ∧
        Along (commentStep json articleId)
          (fun pool event => few (commentStep json articleId pool event))
          (.empty world) (history.events json articleId world))
    ⟨fun ⟨range, common, inserts, returned, waits, short⟩ =>
        ⟨range, common, inserts, returned, waits, steps.mpr short⟩,
      fun ⟨range, common, inserts, returned, waits, short⟩ =>
        ⟨range, common, inserts, returned, waits, steps.mp short⟩⟩

variable (json : JsonLibrary) (articleId : Int) (world : World)
variable (history : History)

/-- The reader is answered, without the new comment. -/
def Hides (comment : Comment) : Prop :=
  ∃ response,
    (commentRun json articleId world
          (history.events json articleId world)).value?
        (history.reader json articleId world) =
      some response ∧
    ¬ history.Shows json articleId world comment response

variable {json articleId world history} in
/-- A response whose ids do not include the row's. -/
theorem hides_of_ids
    {comment : Comment} {ids : List Int}
    (answered :
      ((commentRun json articleId world
            (history.events json articleId world)).value?
          (history.reader json articleId world)).map responseIds =
        some ids)
    (missing : (history.row json articleId world comment).id ∉ ids) :
    history.Hides json articleId world comment := by
  rcases Option.map_eq_some_iff.mp answered with ⟨response, value, rfl⟩
  refine ⟨response, value, fun shows => missing ?_⟩
  exact List.mem_filterMap.mpr
    ⟨_, shows, commentId?_commentToJson _⟩

end History

/-- The first post reads the clock twice, the second one later. -/
def lunchTime : World :=
  .initial twoComments
    (fun reading =>
      if reading < 2 then text "2026-06-01 14:00:00"
      else text "2026-06-01 14:00:09")
    (fun _ => true)

def third : Comment where
  articleId := 1
  content := text "third"
  commenter := text "reader"

def post : PoolEvent CommentRequest :=
  .arrive (.createComment third.content third.commenter)

/-- The DEL meets a fill that has selected the new row, and pushed nothing. -/
def freshFill : History where
  limit := 20
  before := [post, .advance 0]
  writer := 0
  middle :=
    [.arrive (.getComments 20), .advance 1, .advance 1, .advance 0,
      .advance 0]
  waiting := List.replicate 3 (.advance 1)
  after := [.advance 2]

/-- A request pushes, after the DEL, what it selected before the INSERT. -/
def staleFill : History where
  limit := 20
  before :=
    [.arrive (.getComments 20), .advance 0, .advance 0, post, .advance 1]
  writer := 1
  middle := [.advance 1, .advance 1]
  waiting := [.advance 0, .advance 0]
  after := [.advance 2]

/-- Two fills after the DEL leave three entries for each two rows. -/
def doubleFill : History where
  limit := 3
  before := [post, .advance 0]
  writer := 0
  middle :=
    [.advance 0, .advance 0, .arrive (.getComments 3),
      .arrive (.getComments 3), .advance 1, .advance 2, .advance 1,
      .advance 2, .advance 1, .advance 2, .advance 1, .advance 2,
      .advance 1, .advance 2]
  waiting := []
  after := [.advance 3]

/-- The reader's LRANGE finds the first row of a fill, a newer comment. -/
def partialFill : History where
  limit := 20
  before := [post, .advance 0]
  writer := 0
  middle :=
    [.advance 0, .advance 0, post, .advance 1, .advance 1, .advance 1,
      .advance 1, .arrive (.getComments 20), .advance 2, .advance 2,
      .advance 2]
  waiting := []
  after := [.advance 3]

end LightningServer.Service
