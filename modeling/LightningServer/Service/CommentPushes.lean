import LightningServer.Service.CommentSettled

/-!
# The list, from the calls alone

Whatever the list of an article's comments held at first, a DEL empties it and
each LPUSH adds a text at its head, and no other call changes it.  Once there
has been a DEL, the list is what the calls have pushed since the last one, and
that alone decides what an LRANGE finds.
-/

namespace LightningServer.Service

open LightningServer.Foundation
open LightningServer.Foundation.Numerals
open LightningServer.Foundation.Transition
open LightningServer.Store
open LightningServer.Service.CommentService

/-! ## Calls -/

def deleteCall : Call → Bool
  | .del _ => true
  | _ => false

/-- There is a DEL among the calls, each with its thread. -/
def deletes (calls : List (Nat × Call)) : Bool :=
  calls.any fun made => deleteCall made.2

/-- What a call does to the texts pushed since the last DEL. -/
def pushedBy (pushed : List Text) (made : Nat × Call) : List Text :=
  match made.2 with
  | .del _ => []
  | .lpush _ value => pushed ++ [value]
  | _ => pushed

/-- The texts pushed since the last DEL. -/
def pushedSinceDelete (calls : List (Nat × Call)) : List Text :=
  calls.foldl pushedBy []

theorem pushedSinceDelete_concat
    (calls : List (Nat × Call)) (made : Nat × Call) :
    pushedSinceDelete (calls ++ [made]) =
      pushedBy (pushedSinceDelete calls) made :=
  List.foldl_concat ..

theorem deletes_append (first second : List (Nat × Call)) :
    deletes (first ++ second) = (deletes first || deletes second) :=
  List.any_append

section

variable (json : JsonLibrary) (articleId : Int)

/-- The calls of a run, each with the thread that made it. -/
def commentCalls (world : World)
    (events : List (PoolEvent CommentRequest)) : List (Nat × Call) :=
  outputs (commentStep json articleId) Pool.callMade (.empty world) events

/-- The calls of an event, on phases. -/
def phaseCalls (pool : Pool Phase World) :
    PoolEvent CommentRequest → List (Nat × Call) :=
  Pool.callMade (pool.map (Phase.code json articleId))

theorem commentCalls_eq
    (world : World) (events : List (PoolEvent CommentRequest)) :
    commentCalls json articleId world events =
      outputs (phaseStep json articleId) (phaseCalls json articleId)
        (.empty world) events :=
  Pool.outputs_map (Phase.program_eq_code json articleId)
    (Phase.move_code json articleId) Pool.callMade (.empty world) events

variable {json} {articleId}

theorem phaseCalls_of_none
    {pool : Pool Phase World} {index : Nat}
    (absent : pool.threads[index]? = none) :
    phaseCalls json articleId pool (.advance index) = [] := by
  simp [phaseCalls, Pool.callMade, Pool.nextCall?, Pool.map, absent]

theorem phaseCalls_of_some
    {pool : Pool Phase World} {index : Nat} {phase : Phase}
    (present : pool.threads[index]? = some phase) :
    phaseCalls json articleId pool (.advance index) =
      (phase.call? json articleId).toList.map
        fun call => (index, call) := by
  rw [phaseCalls, Pool.callMade, Pool.nextCall?_map present,
    Phase.nextCall_code]

/-- A phase pushes what its call pushes. -/
theorem pushedSinceDelete_move
    {calls : List (Nat × Call)} {pushed : List Comment}
    (same :
      pushedSinceDelete calls = pushed.map (cacheText json))
    (phase : Phase) (index : Nat) :
    pushedSinceDelete
        (calls ++ (phase.call? json articleId).toList.map
          fun call => (index, call)) =
      (phase.pushedAfter pushed).map (cacheText json) := by
  cases phase with
  | finished response =>
      rw [Phase.call?, Option.toList_none, List.map_nil, List.append_nil]
      exact same
  | filling comment rest list =>
      rw [Phase.call?, Option.toList_some, List.map_singleton,
        pushedSinceDelete_concat, pushedBy, same, Phase.pushedAfter,
        List.map_append, List.map_singleton]
  | deleting row comment =>
      rw [Phase.call?, Option.toList_some, List.map_singleton,
        pushedSinceDelete_concat, pushedBy, Phase.pushedAfter,
        List.map_nil]
  | _ =>
      rw [Phase.call?, Option.toList_some, List.map_singleton,
        pushedSinceDelete_concat]
      exact same

/-! ## The list after the first DEL -/

variable (json articleId) in
/-- After a DEL the list holds what has been pushed since, rows of the table. -/
structure Traced (limit : Int) (pool : Pool Phase World)
    (calls : List (Nat × Call)) : Prop where
  serves : ServesAll articleId limit pool
  stocked : StockedAll articleId limit pool
  list :
    deletes calls = true →
      ∃ pushed, ListHolds json articleId pool.world.redis pushed ∧
        (∀ comment ∈ pushed,
          comment ∈ pool.world.database.commentsOf articleId) ∧
        pushedSinceDelete calls = pushed.map (cacheText json)

theorem traced_empty (limit : Int) (world : World) :
    Traced json articleId limit (.empty world) [] where
  serves := Pool.all_empty world _
  stocked := Pool.all_empty world _
  list := by
    intro impossible
    cases impossible

/-- The rows in the list after a move are rows of the table. -/
theorem Phase.Stocked.own_pushedAfter
    {limit : Int} {phase : Phase} {database : Database}
    {pushed : List Comment}
    (stocked : phase.Stocked articleId limit database)
    (own :
      ∀ comment ∈ pushed, comment ∈ database.commentsOf articleId) :
    ∀ comment ∈ phase.pushedAfter pushed,
      comment ∈ database.commentsOf articleId := by
  intro comment member
  cases phase with
  | filling first rest list =>
      rcases List.mem_append.mp member with old | new
      · exact own comment old
      · rw [List.mem_singleton.mp new]
        exact stocked.2 first List.mem_cons_self
  | deleting row posted => cases member
  | _ => exact own comment member

theorem Traced.step
    {limit : Int} (low : 1 ≤ limit) (high : limit ≤ 50)
    {pool : Pool Phase World} {calls : List (Nat × Call)}
    (traced : Traced json articleId limit pool calls)
    {event : PoolEvent CommentRequest}
    (asks : asksFor limit event = true) :
    Traced json articleId limit (phaseStep json articleId pool event)
      (calls ++ phaseCalls json articleId pool event) where
  serves := traced.serves.step low high asks
  stocked := traced.stocked.step traced.serves event
  list := by
    cases event with
    | arrive request =>
        rw [phaseCalls, Pool.callMade, List.append_nil]
        exact traced.list
    | advance index =>
        cases present : pool.threads[index]? with
        | none =>
            rw [phaseCalls_of_none present, List.append_nil, phaseStep,
              Pool.step_advance_of_none _ _ present]
            exact traced.list
        | some phase =>
            rw [phaseCalls_of_some present, phaseStep,
              Pool.step_advance_of_some _ _ present]
            have stocked := traced.stocked index phase present
            have grows :
                Grows articleId pool.world.database
                  (phase.move json articleId pool.world).2.database :=
              phase.grows_move json pool.world
            intro deleted
            by_cases before : deletes calls = true
            · rcases traced.list before with ⟨pushed, holds, own, same⟩
              exact ⟨phase.pushedAfter pushed, holds.move phase,
                fun comment member => grows comment
                  (stocked.own_pushedAfter own comment member),
                pushedSinceDelete_move same phase index⟩
            · -- the move is the first DEL
              rw [deletes_append, Bool.or_eq_true,
                or_iff_right before] at deleted
              cases phase with
              | deleting row comment =>
                  refine ⟨[], .del pool.world.redis, ?_, ?_⟩
                  · intro other member
                    cases member
                  · rw [Phase.call?, Option.toList_some,
                      List.map_singleton, pushedSinceDelete_concat]
                    rfl
              | _ => cases deleted

end

end LightningServer.Service
