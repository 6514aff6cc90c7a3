import LightningServer.Service.ForumThreads
import LightningServer.Service.ViewTally

/-!
# Which visits are counted

A detail that is not cached moves the counter of its article by one, up to
the last 64-bit number; a cached one is answered with code 0 all the same, and
counts nothing.  The counter is therefore the number of visits only as long as
no visit is answered from the cache.
-/

namespace LightningServer.Service

open LightningServer.Foundation
open LightningServer.Foundation.Numerals
open LightningServer.Foundation.Transition
open LightningServer.Store
open LightningServer.Service.ArticleService

/-! ## Visits of a run -/

/-- The code of a response. -/
def code? (response : Json) : Option Int :=
  (response.field? (text "code")).bind Json.number?

@[simp]
theorem code?_detailResponse (article : Article) :
    code? (detailResponse article) = some 0 := by
  rfl

/-- A detail of this article that returned code 0. -/
def Answer.isVisit (id : Int) (answer : Answer) : Bool :=
  match answer.request, answer.result with
  | .getArticleDetail other, .ok response =>
      other = id && code? response = some 0
  | _, _ => false

/-- The number of details of this article that returned code 0. -/
def visitsIn (id : Int) (answers : List Answer) : Nat :=
  (answers.filter (Answer.isVisit id)).length

/-- The number of details of this article that were asked for. -/
def openings (id : Int) (events : List Event) : Nat :=
  (events.filter (Event.opens id)).length

/-- If the event asks for the detail, then it is not cached. -/
def Uncached (id : Int) (world : World) (event : Event) : Prop :=
  event.opens id = true → world.redis.get (articleCacheKey id) = none

instance (id : Int) (world : World) (event : Event) :
    Decidable (Uncached id world event) :=
  inferInstanceAs (Decidable (_ → _))

theorem openings_concat (id : Int) (events : List Event) (event : Event) :
    openings id (events ++ [event]) =
      openings id events + if event.opens id then 1 else 0 := by
  rw [openings, openings, List.filter_append, List.length_append]
  cases opens : event.opens id with
  | false => simp [opens]
  | true => simp [opens]

section Steps

variable {json : JsonLibrary} {initial : Database} {world : World}
variable {id : Int}

/-- Other events are no visits of the article. -/
theorem visitsIn_answersTo_of_other
    {event : Event} (other : event.opens id = false) :
    visitsIn id (answersTo json world event) = 0 := by
  cases event with
  | timeOut key => rfl
  | request request =>
      cases request with
      | getArticleDetail opened =>
          have different : opened ≠ id := by
            simpa [Event.opens] using other
          rw [visitsIn, answersTo]
          cases ((requestCode json (.getArticleDetail opened)).run
              exec world).1 with
          | ok response => simp [Answer.isVisit, different]
          | error exception => simp [Answer.isVisit]
      | _ => rfl

/-- The detail of an article that exists is a visit. -/
theorem visitsIn_answersTo_of_opens
    (caches : CachesCopies json initial world)
    (known : initial.getArticleById id ≠ none) :
    visitsIn id
      (answersTo json world (.request (.getArticleDetail id))) = 1 := by
  rcases ((getArticleDetail_ensures json initial id).run caches).2 with
    ⟨row, updateTime, viewCount, -, shown⟩ | ⟨absent, -⟩
  · rw [visitsIn, answersTo, requestCode, shown]
    simp [Answer.isVisit]
  · exact absurd absent known

/-- A cached detail counts nothing. -/
theorem counted_step_of_cached
    {value : Text}
    (cached : world.redis.get (articleCacheKey id) = some value) :
    counted
        (step json world (.request (.getArticleDetail id))).redis
        (decimal id) =
      counted world.redis (decimal id) := by
  rw [step, serve, run_getArticleDetail_hit json cached]

/-- One that is not cached counts one more, if there is room. -/
theorem counted_step_of_uncached
    (tallied : Tallied initial world)
    (known : initial.getArticleById id ≠ none)
    (uncached : world.redis.get (articleCacheKey id) = none) :
    counted world.redis (decimal id) + 1 < 2 ^ 63 ∧
        counted
            (step json world (.request (.getArticleDetail id))).redis
            (decimal id) =
          counted world.redis (decimal id) + 1 ∨
      counted world.redis (decimal id) + 1 = 2 ^ 63 ∧
        counted
            (step json world (.request (.getArticleDetail id))).redis
            (decimal id) =
          counted world.redis (decimal id) := by
  cases found : world.database.getArticleById id with
  | none =>
      have same := Database.getArticleById_fixed tallied.rows id
      rw [found] at same
      exact absurd (Option.map_eq_none_iff.mp same.symm) known
  | some article =>
      have same := (Database.getArticleById_eq_some found).2
      rw [step, serve, run_getArticleDetail_miss json uncached found]
      simp only [counted, counter_visit, same]
      rcases tallied.ranked.counter_incr (decimal id) with
        ⟨room, -, present⟩ | ⟨last, -, present⟩
      · left
        rw [present]
        exact ⟨room, rfl⟩
      · right
        rw [present]
        exact ⟨last, rfl⟩

/-- A detail counts one more if it is not cached, and there is room. -/
theorem counted_step_opening
    (json : JsonLibrary) (tallied : Tallied initial world)
    (known : initial.getArticleById id ≠ none) :
    counted
          (step json world (.request (.getArticleDetail id))).redis
          (decimal id) ≤
        counted world.redis (decimal id) + 1 ∧
      (counted
            (step json world (.request (.getArticleDetail id))).redis
            (decimal id) =
          counted world.redis (decimal id) + 1 ↔
        world.redis.get (articleCacheKey id) = none ∧
          counted world.redis (decimal id) + 1 < 2 ^ 63) := by
  cases cached : world.redis.get (articleCacheKey id) with
  | some value =>
      rw [counted_step_of_cached cached]
      simp only [reduceCtorEq, false_and, iff_false]
      omega
  | none =>
      simp only [true_and]
      rcases counted_step_of_uncached tallied known cached with
        ⟨room, counts⟩ | ⟨last, stays⟩
      · rw [counts]
        omega
      · rw [stays]
        omega

end Steps

/-! ## Whole runs -/

section Runs

variable (json : JsonLibrary) (database : Database) (clock : Nat → Text)
variable (accepts : Nat → Bool) (events : List Event) {id : Int}

/-- Every detail of an article that exists returns code 0. -/
theorem visitsIn_answers (known : database.getArticleById id ≠ none) :
    visitsIn id (answers json database clock accepts events) =
      openings id events := by
  induction events using List.reverseRecOn with
  | nil => rfl
  | append_singleton rest event induction =>
      have split :
          visitsIn id
              (answers json database clock accepts (rest ++ [event])) =
            openings id rest +
              visitsIn id
                (answersTo json
                  (runFrom json database clock accepts rest) event) := by
        rw [← induction, answers_concat, visitsIn, visitsIn, visitsIn,
          List.filter_append, List.length_append]
      rw [split, openings_concat]
      cases opens : event.opens id with
      | false => rw [visitsIn_answersTo_of_other opens, if_neg (by simp)]
      | true =>
          rw [eq_of_opens opens,
            visitsIn_answersTo_of_opens
              (cachesCopies_runFrom json database clock accepts rest)
              known, if_pos rfl]

/-- The counter against the number of details that were asked for. -/
theorem counted_eq_openings_iff
    (known : database.getArticleById id ≠ none) :
    counted (runFrom json database clock accepts events).redis
          (decimal id) ≤ openings id events ∧
      (counted (runFrom json database clock accepts events).redis
            (decimal id) = openings id events ↔
        Along (step json) (Uncached id)
            (.initial database clock accepts) events ∧
          openings id events < 2 ^ 63) := by
  induction events using List.reverseRecOn with
  | nil =>
      have nothing :
          counted (runFrom json database clock accepts []).redis
            (decimal id) = 0 := by
        rfl
      rw [nothing]
      simp [openings]
  | append_singleton rest event induction =>
      have tallied := tallied_runFrom json database clock accepts rest
      rcases induction with ⟨atMost, equal⟩
      rw [runFrom_concat, openings_concat, along_append, along_cons]
      cases opens : event.opens id with
      | false =>
          have same :
              counted
                  (step json
                    (runFrom json database clock accepts rest)
                    event).redis (decimal id) =
                counted (runFrom json database clock accepts rest).redis
                  (decimal id) := by
            rw [counted, counter_step tallied.ranked json opens,
              ← counted]
          have free :
              Uncached id
                (run (step json) (.initial database clock accepts) rest)
                event := by
            intro isOpening
            rw [opens] at isOpening
            cases isOpening
          rw [same, if_neg (by simp), Nat.add_zero]
          simp only [free, along_nil, and_true]
          exact ⟨atMost, equal⟩
      | true =>
          cases eq_of_opens opens
          rcases counted_step_opening json tallied known with
            ⟨bound, grows⟩
          rw [if_pos rfl]
          constructor
          · omega
          · constructor
            · intro isEqual
              have before := equal.mp (by omega)
              have here := grows.mp (by omega)
              exact ⟨⟨before.1, fun _ => here.1, trivial⟩, by omega⟩
            · rintro ⟨⟨uncached, here, -⟩, few⟩
              have before := equal.mpr ⟨uncached, by omega⟩
              have more := grows.mpr ⟨here opens, by omega⟩
              omega

/--
After a run, the counter of an article is the number of its details that
returned code 0 if and only if none of them found it in the cache, and there
were fewer than 2^63 of them.
-/
theorem counted_eq_visitsIn_iff
    (known : database.getArticleById id ≠ none) :
    counted (runFrom json database clock accepts events).redis
          (decimal id) =
        visitsIn id (answers json database clock accepts events) ↔
      Along (step json) (Uncached id) (.initial database clock accepts)
          events ∧
        openings id events < 2 ^ 63 := by
  rw [visitsIn_answers json database clock accepts events known]
  exact (counted_eq_openings_iff json database clock accepts events
    known).2

end Runs

/-- Two visits with an expiry between them are both counted. -/
theorem counted_eq_visitsIn_of_expiry :
    counted
        (runFrom Json.compactLibrary seededDatabase (fun _ => [])
          (fun _ => true)
          [.request (.getArticleDetail 1),
            .timeOut (articleCacheKey 1),
            .request (.getArticleDetail 1)]).redis (decimal 1) =
      visitsIn 1
        (answers Json.compactLibrary seededDatabase (fun _ => [])
          (fun _ => true)
          [.request (.getArticleDetail 1),
            .timeOut (articleCacheKey 1),
            .request (.getArticleDetail 1)]) :=
  (counted_eq_visitsIn_iff Json.compactLibrary seededDatabase
    (fun _ => []) (fun _ => true)
    [.request (.getArticleDetail 1), .timeOut (articleCacheKey 1),
      .request (.getArticleDetail 1)] (by decide)).mpr
    (by decide +kernel)

/-- Two visits in a row count as one. -/
theorem counted_ne_visitsIn_in_a_row :
    counted
        (runFrom Json.compactLibrary seededDatabase (fun _ => [])
          (fun _ => true)
          [.request (.getArticleDetail 1),
            .request (.getArticleDetail 1)]).redis (decimal 1) ≠
      visitsIn 1
        (answers Json.compactLibrary seededDatabase (fun _ => [])
          (fun _ => true)
          [.request (.getArticleDetail 1),
            .request (.getArticleDetail 1)]) := by
  decide +kernel

end LightningServer.Service
