import LightningServer.Service.CommentFill

/-!
# A comment that fills put into the list

Fix a row of the table and a number of entries that every reader takes.  Right
after a DEL the list is empty; a fill that has selected the row and pushed
nothing yet, or that starts then, pushes it.  While no DEL and no SELECT
happens between the pushes of another request, the list is empty, or being
filled with the row, or shows it among its first entries.

`Settled` is that invariant.  It allows fills one after the other, so it does
not need the lists to be free of duplicates.
-/

namespace LightningServer.Service

open LightningServer.Foundation
open LightningServer.Foundation.Numerals
open LightningServer.Foundation.Transition
open LightningServer.Store
open LightningServer.Service.CommentService

/-! ## Requests with a common limit -/

/-- A request other than a `getComments` with another limit. -/
def asksFor (limit : Int) : PoolEvent CommentRequest → Bool
  | .arrive (.getComments other) => other == limit
  | _ => true

/-! ## The list around the row -/

section

variable {json : JsonLibrary} {articleId limit : Int} {row : Comment}

variable (limit row) in
/-- The list is empty, or the row is among the entries a reader takes. -/
def Shows (pushed : List Comment) : Prop :=
  pushed = [] ∨ row ∈ pushed.reverse.take limit.toNat

variable (limit row) in
/-- A fill of at most `limit` rows with these left, the row among them all. -/
def Filling (pushed rest : List Comment) : Prop :=
  ∃ old fresh, pushed = old ++ fresh ∧ row ∈ fresh ++ rest ∧
    (fresh ++ rest).length ≤ limit.toNat

theorem Filling.start
    {rows : List Comment} (pushed : List Comment) (member : row ∈ rows)
    (short : rows.length ≤ limit.toNat) :
    Filling limit row pushed rows :=
  ⟨pushed, [], (List.append_nil pushed).symm, member, short⟩

theorem Filling.push
    {pushed rest : List Comment} {comment : Comment}
    (filling : Filling limit row pushed (comment :: rest)) :
    Filling limit row (pushed ++ [comment]) rest := by
  rcases filling with ⟨old, fresh, rfl, member, short⟩
  rw [List.append_cons] at member short
  exact ⟨old, fresh ++ [comment], List.append_assoc old fresh [comment],
    member, short⟩

theorem Filling.shows
    {pushed : List Comment} (filling : Filling limit row pushed []) :
    Shows limit row pushed := by
  rcases filling with ⟨old, fresh, rfl, member, short⟩
  rw [List.append_nil] at member short
  right
  rw [List.reverse_append, List.take_append,
    List.take_of_length_le (by rwa [List.length_reverse])]
  exact List.mem_append_left _ (List.mem_reverse.mpr member)

/-! ## The state after the DEL -/

variable (json articleId limit row) in
/-- The row is in the list, or some fill is going to put it there. -/
structure Settled (pool : Pool Phase World) (pushed : List Comment) :
    Prop where
  list : ListHolds json articleId pool.world.redis pushed
  own :
    ∀ comment ∈ pushed,
      comment ∈ pool.world.database.commentsOf articleId
  alone : pool.AtMostOne Phase.Pushes
  filling :
    ∀ (index : Nat) (comment : Comment) (rest : List Comment)
      (list : List Json),
      pool.threads[index]? = some (.filling comment rest list) →
        Filling limit row pushed (comment :: rest) ∧
          ∀ other ∈ comment :: rest,
            other ∈ pool.world.database.commentsOf articleId
  shows :
    (∀ (index : Nat) (phase : Phase),
      pool.threads[index]? = some phase → ¬ phase.Pushes) →
        Shows limit row pushed

/-- A move of a thread while no other has rows to push. -/
theorem Settled.of_alone_move
    {pool : Pool Phase World} {later : List Comment} {index : Nat}
    {result : Phase × World}
    (nobody : pool.NoOther index Phase.Pushes)
    (list : ListHolds json articleId result.2.redis later)
    (own :
      ∀ comment ∈ later, comment ∈ result.2.database.commentsOf articleId)
    (filling :
      ∀ comment rest list, result.1 = .filling comment rest list →
        Filling limit row later (comment :: rest) ∧
          ∀ other ∈ comment :: rest,
            other ∈ result.2.database.commentsOf articleId)
    (shows : ¬ result.1.Pushes → Shows limit row later)
    (there : ∃ phase, pool.threads[index]? = some phase) :
    Settled json articleId limit row (pool.moved index result) later where
  list := list
  own := own
  alone := .of_noOther nobody result
  filling := by
    intro other comment rest list present
    rcases Pool.getElem?_moved_cases present with
      ⟨rfl, moved⟩ | ⟨different, old⟩
    · exact filling comment rest list moved.symm
    · exact absurd trivial (nobody other _ different old)
  shows := by
    intro quiet
    rcases there with ⟨phase, present⟩
    exact shows (quiet index _ (Pool.getElem?_moved_self present result))

/-- A move that has nothing to do with a fill. -/
theorem Settled.of_quiet_move
    {pool : Pool Phase World} {pushed : List Comment}
    (settled : Settled json articleId limit row pool pushed)
    {index : Nat} {phase : Phase} {result : Phase × World}
    (present : pool.threads[index]? = some phase)
    (was : ¬ phase.Pushes)
    (list : ListHolds json articleId result.2.redis pushed)
    (grows :
      Grows articleId pool.world.database result.2.database)
    (quiet : ¬ result.1.Pushes) :
    Settled json articleId limit row (pool.moved index result)
      pushed where
  list := list
  own := fun comment member => grows comment (settled.own comment member)
  alone := settled.alone.moved fun pushes => absurd pushes quiet
  filling := by
    intro other comment rest list found
    rcases Pool.getElem?_moved_cases found with ⟨-, moved⟩ | ⟨-, old⟩
    · rw [← moved] at quiet
      exact absurd trivial quiet
    · rcases settled.filling other comment rest list old with
        ⟨filling, own⟩
      exact ⟨filling, fun each member => grows each (own each member)⟩
  shows := by
    intro nobody
    apply settled.shows
    intro other old found
    by_cases same : other = index
    · subst same
      rw [present] at found
      rw [← Option.some.inj found]
      exact was
    · apply nobody other old
      rw [Pool.getElem?_moved_of_ne pool same]
      exact found

variable (json articleId) in
/-- Only a SELECT or an LPUSH leaves rows to push. -/
theorem Phase.not_pushes_move
    {phase : Phase} (idle : ¬ phase.Fills) (world : World) :
    ¬ (phase.move json articleId world).1.Pushes := by
  cases phase with
  | looking limit =>
      simp only [Phase.move]
      split
      · exact not_false
      · exact not_false
  | selecting limit => exact absurd trivial idle
  | filling comment rest list => exact absurd trivial idle
  | checking comment =>
      simp only [Phase.move]
      split
      · exact not_false
      · exact not_false
  | inserting comment =>
      simp only [Phase.move]
      split
      · exact not_false
      · exact not_false
  | _ => exact not_false

theorem Phase.eq_of_pushing
    {comments rest : List Comment} {list left : List Json}
    {comment : Comment}
    (equal : Phase.pushing comments list = .filling comment rest left) :
    comments = comment :: rest := by
  cases comments with
  | nil => cases equal
  | cons first others =>
      cases equal
      rfl

theorem Phase.eq_nil_of_not_pushes
    {comments : List Comment} {list : List Json}
    (quiet : ¬ (Phase.pushing comments list).Pushes) :
    comments = [] := by
  cases comments with
  | nil => rfl
  | cons first others => exact absurd trivial quiet

/-- A move of the fill. -/
theorem Settled.of_fill_move
    {pool : Pool Phase World} {later rest : List Comment} {index : Nat}
    {list : List Json} {world : World}
    (there : ∃ phase, pool.threads[index]? = some phase)
    (nobody : pool.NoOther index Phase.Pushes)
    (holds : ListHolds json articleId world.redis later)
    (own : ∀ comment ∈ later, comment ∈ world.database.commentsOf articleId)
    (filling : Filling limit row later rest)
    (ownRest :
      ∀ comment ∈ rest, comment ∈ world.database.commentsOf articleId) :
    Settled json articleId limit row
      (pool.moved index (Phase.pushing rest list, world)) later := by
  apply Settled.of_alone_move nobody holds own
  · intro comment others left equal
    have shape := Phase.eq_of_pushing equal
    subst shape
    exact ⟨filling, ownRest⟩
  · intro quiet
    have none := Phase.eq_nil_of_not_pushes quiet
    subst none
    exact filling.shows
  · exact there

variable (articleId limit) in
/-- The request is about this article, and reads this many comments. -/
def Phase.Serves : Phase → Prop
  | .looking asked => asked = limit
  | .selecting asked => asked = limit
  | .checking comment => comment.articleId = articleId
  | .inserting comment => comment.articleId = articleId
  | _ => True

/-- A SELECT of an article with at most `limit` comments returns them all. -/
theorem getCommentsByArticleId_eq
    {database : Database}
    (short : (database.commentsOf articleId).length ≤ limit.toNat) :
    database.getCommentsByArticleId articleId limit =
      database.commentsOf articleId :=
  List.take_of_length_le short

variable (row) in
/-- The request has selected the row, and pushed nothing yet. -/
def Phase.Fresh : Phase → Prop
  | .filling comment rest [] => row ∈ comment :: rest
  | _ => False

variable (articleId limit) in
/-- The rows that a request has left to push are a SELECT of the table. -/
def Phase.Stocked (database : Database) : Phase → Prop
  | .filling comment rest _ =>
      (comment :: rest).length ≤ limit.toNat ∧
        ∀ other ∈ comment :: rest, other ∈ database.commentsOf articleId
  | _ => True

variable (articleId limit) in
/-- So it is for every request. -/
def StockedAll (pool : Pool Phase World) : Prop :=
  pool.All (Phase.Stocked articleId limit pool.world.database)

theorem Settled.deleted
    {pool : Pool Phase World} (index : Nat) (other comment : Comment)
    (alone : pool.AtMostOne Phase.Pushes)
    (fresh :
      pool.All fun phase => phase.Pushes → phase.Fresh row)
    (stocked : StockedAll articleId limit pool) :
    Settled json articleId limit row
      (pool.moved index
        ((Phase.deleting other comment).move json articleId pool.world))
      [] where
  list := .del pool.world.redis
  own := by
    intro listed member
    cases member
  alone := alone.moved fun pushes => pushes.elim
  filling := by
    intro filler first rest list found
    rcases Pool.getElem?_moved_cases found with ⟨-, moved⟩ | ⟨-, old⟩
    · cases moved
    · have selected := fresh filler _ old trivial
      rcases stocked filler _ old with ⟨short, own⟩
      cases list with
      | nil => exact ⟨Filling.start [] selected short, own⟩
      | cons pushed list => exact selected.elim
  shows := fun _ => Or.inl rfl

variable (row) in
/--
The move cuts no fill: a DEL only meets one of the row that has pushed
nothing, and a SELECT meets none.
-/
def Phase.CutsNone (pool : Pool Phase World) (index : Nat) : Phase → Prop
  | .deleting _ _ =>
      pool.AtMostOne Phase.Pushes ∧
        pool.All fun phase => phase.Pushes → phase.Fresh row
  | .selecting _ => pool.NoOther index Phase.Pushes
  | _ => True

theorem Settled.moved
    {pool : Pool Phase World} {pushed : List Comment}
    (settled : Settled json articleId limit row pool pushed)
    {index : Nat} {phase : Phase}
    (present : pool.threads[index]? = some phase)
    (uncut : phase.CutsNone row pool index)
    (stocked : StockedAll articleId limit pool)
    (serves : phase.Serves articleId limit)
    (member : row ∈ pool.world.database.commentsOf articleId)
    (short :
      (pool.world.database.commentsOf articleId).length ≤ limit.toNat) :
    Settled json articleId limit row
      (pool.moved index (phase.move json articleId pool.world))
      (phase.pushedAfter pushed) := by
  have list := settled.list.move phase
  cases phase with
  | selecting asked =>
      have equal : asked = limit := serves
      subst equal
      simp only [Phase.move, Phase.pushedAfter,
        getCommentsByArticleId_eq short]
      apply Settled.of_fill_move ⟨_, present⟩ uncut settled.list
        settled.own
      · exact Filling.start pushed member short
      · exact fun _ listed => listed
  | filling comment rest held =>
      have nobody := settled.alone index _ present trivial
      rcases settled.filling index comment rest held present with
        ⟨filling, own⟩
      rw [List.forall_mem_cons] at own
      apply Settled.of_fill_move ⟨_, present⟩ nobody list
      · intro other listed
        rcases List.mem_append.mp listed with old | new
        · exact settled.own other old
        · rw [List.mem_singleton.mp new]
          exact own.1
      · exact filling.push
      · exact own.2
  | deleting other comment =>
      exact .deleted index other comment uncut.1 uncut.2 stocked
  | _ =>
      apply settled.of_quiet_move present not_false list
      · exact Phase.grows_move json _ pool.world
      · apply Phase.not_pushes_move
        exact not_false

theorem enter_not_pushes (request : CommentRequest) :
    ¬ (Phase.enter articleId request).Pushes :=
  fun pushes => enter_not_fills request pushes.fills

theorem Settled.arrived
    {pool : Pool Phase World} {pushed : List Comment}
    (settled : Settled json articleId limit row pool pushed)
    (request : CommentRequest) :
    Settled json articleId limit row
      { pool with
        threads := pool.threads ++ [Phase.enter articleId request] }
      pushed where
  list := settled.list
  own := settled.own
  alone := settled.alone.arrived (enter_not_pushes request)
  filling := by
    intro index comment rest list present
    rcases Pool.getElem?_arrived_cases present with ⟨-, equal⟩ | old
    · have pushes : (Phase.enter articleId request).Pushes := by
        rw [← equal]
        trivial
      exact absurd pushes (enter_not_pushes request)
    · exact settled.filling index comment rest list old
  shows := by
    intro nobody
    apply settled.shows
    intro index phase present
    exact nobody index phase (Pool.getElem?_arrived_of_some present)

/-! ## What every request keeps -/

theorem Phase.serves_pushing
    (comments : List Comment) (list : List Json) :
    (Phase.pushing comments list).Serves articleId limit := by
  cases comments with
  | nil => trivial
  | cons first others => trivial

variable (json) in
theorem Phase.Serves.move
    {phase : Phase} (serves : phase.Serves articleId limit)
    (world : World) :
    (phase.move json articleId world).1.Serves articleId limit := by
  cases phase with
  | looking asked =>
      simp only [Phase.move]
      split
      · exact serves
      · trivial
  | selecting asked => exact Phase.serves_pushing _ _
  | filling comment rest list => exact Phase.serves_pushing _ _
  | checking comment =>
      simp only [Phase.move]
      split
      · trivial
      · exact serves
  | inserting comment =>
      simp only [Phase.move]
      split
      · trivial
      · trivial
  | _ => trivial

theorem clampLimit_of_range (low : 1 ≤ limit) (high : limit ≤ 50) :
    clampLimit limit = limit := by
  rw [clampLimit, if_neg]
  rintro (below | above)
  · exact absurd low (not_le.mpr below)
  · exact absurd high (not_le.mpr above)

theorem enter_serves
    (low : 1 ≤ limit) (high : limit ≤ 50) {request : CommentRequest}
    (asks : asksFor limit (.arrive request) = true) :
    (Phase.enter articleId request).Serves articleId limit := by
  rcases Phase.enter_cases articleId request with
    ⟨other, rfl, shape⟩ | ⟨_, _, shape⟩ | ⟨_, own, shape⟩
  · have equal : other = limit := by
      simpa only [asksFor, beq_iff_eq] using asks
    rw [shape, equal]
    exact clampLimit_of_range low high
  · rw [shape]
    trivial
  · rw [shape]
    exact own

variable (articleId limit) in
/-- Every request serves this article and this limit. -/
def ServesAll (pool : Pool Phase World) : Prop :=
  pool.All (Phase.Serves articleId limit)

theorem ServesAll.step
    (low : 1 ≤ limit) (high : limit ≤ 50) {pool : Pool Phase World}
    {event : PoolEvent CommentRequest}
    (serves : ServesAll articleId limit pool)
    (asks : asksFor limit event = true) :
    ServesAll articleId limit (phaseStep json articleId pool event) := by
  apply Pool.All.step serves
  · rintro request rfl
    exact enter_serves low high asks
  · intro phase here
    exact here.move json pool.world

theorem Phase.Stocked.grows
    {phase : Phase} {before after : Database}
    (stocked : phase.Stocked articleId limit before)
    (grows : Grows articleId before after) :
    phase.Stocked articleId limit after := by
  cases phase with
  | filling comment rest list =>
      exact ⟨stocked.1, fun other member =>
        grows other (stocked.2 other member)⟩
  | _ => exact stocked

theorem Phase.stocked_pushing
    {database : Database} {comments : List Comment} {list : List Json}
    (short : comments.length ≤ limit.toNat)
    (own :
      ∀ other ∈ comments, other ∈ database.commentsOf articleId) :
    (Phase.pushing comments list).Stocked articleId limit database := by
  cases comments with
  | nil => trivial
  | cons comment rest => exact ⟨short, own⟩

variable (json) in
theorem Phase.Stocked.move
    {phase : Phase} {world : World}
    (stocked : phase.Stocked articleId limit world.database)
    (serves : phase.Serves articleId limit) :
    (phase.move json articleId world).1.Stocked articleId limit
      (phase.move json articleId world).2.database := by
  cases phase with
  | looking asked =>
      simp only [Phase.move]
      split
      · trivial
      · trivial
  | selecting asked =>
      have equal : asked = limit := serves
      subst equal
      apply Phase.stocked_pushing
      · exact List.length_take_le _ _
      · exact fun other member => List.mem_of_mem_take member
  | filling comment rest list =>
      apply Phase.stocked_pushing
      · exact Nat.le_of_succ_le stocked.1
      · exact fun other member =>
          stocked.2 other (List.mem_cons_of_mem comment member)
  | checking comment =>
      simp only [Phase.move]
      split
      · trivial
      · trivial
  | inserting comment =>
      simp only [Phase.move]
      split
      · trivial
      · trivial
  | _ => trivial

theorem StockedAll.step
    {pool : Pool Phase World} (stocked : StockedAll articleId limit pool)
    (serves : ServesAll articleId limit pool)
    (event : PoolEvent CommentRequest) :
    StockedAll articleId limit (phaseStep json articleId pool event) := by
  apply Pool.step_invariant (StockedAll articleId limit) stocked
  · intro request _ index phase present
    rcases Pool.getElem?_arrived_cases present with ⟨-, rfl⟩ | old
    · rcases Phase.enter_cases articleId request with
        ⟨_, -, shape⟩ | ⟨_, _, shape⟩ | ⟨_, -, shape⟩
      · rw [shape]
        trivial
      · rw [shape]
        trivial
      · rw [shape]
        trivial
    · exact stocked index phase old
  · intro index phase _ present other later found
    rcases Pool.getElem?_moved_cases found with ⟨-, rfl⟩ | ⟨-, old⟩
    · exact (stocked index phase present).move json
        (serves index phase present)
    · exact (stocked other later old).grows
        (phase.grows_move json pool.world)

end

end LightningServer.Service
