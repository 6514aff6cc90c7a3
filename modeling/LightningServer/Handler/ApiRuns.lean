import LightningServer.Handler.Routes
import LightningServer.Service.Documents

/-!
# Runs of the API

Requests of clients one after the other, with the periodic sync and the keys
that time out between them.  A request of the API does to the servers what at
most one request of a service does, so every state that the API reaches is
one that the forum reaches, and all invariants of the forum hold in it.
-/

namespace LightningServer.Handler

open LightningServer.Foundation
open LightningServer.Foundation.Numerals
open LightningServer.Net
open LightningServer.Store
open LightningServer.Service
open LightningServer.Handler.ApiHandler

/-! ## Events and runs -/

inductive ApiEvent where
  | request (req : HttpRequest) (resp : HttpResponse)
  | syncViewCounts
  /-- the time to live of a key runs out -/
  | timeOut (key : Text)

section

variable (json : JsonLibrary)

/-- The outcome of a request when the servers answer. -/
def handled (req : HttpRequest) (resp : HttpResponse) (world : World) :
    Except StdException HttpResponse × World :=
  (handleRequest json req resp).run exec world

def apiStep (world : World) : ApiEvent → World
  | .request req resp => (handled json req resp world).2
  | .syncViewCounts => (ArticleService.syncViewCounts.run exec world).2
  | .timeOut key => world.timeOut key

/-- The world after a sequence of events from an empty Redis. -/
def apiRun (database : Database) (clock : Nat → Text)
    (accepts : Nat → Bool) (events : List ApiEvent) : World :=
  Transition.run (apiStep json) (.initial database clock accepts) events

/-! ## What a request does to the servers -/

/-- The world stays as it is, or a service has served one request. -/
def ServesAtMostOne (world later : World) : Prop :=
  later = world ∨ ∃ request, later = serve json world request

variable {json}

/-- What comes after a service makes no call. -/
theorem servesAtMostOne_bind
    {Value : Type} {program : Service Value}
    {next : Value → Service HttpResponse} {world : World}
    (silent : ∀ value world, ((next value).run exec world).2 = world)
    (serves :
      ServesAtMostOne json world (program.run exec world).2) :
    ServesAtMostOne json world ((program >>= next).run exec world).2 := by
  rw [Program.world_run_bind exec silent]
  exact serves

theorem servesAtMostOne_ofExcept_bind
    {Value : Type} {result : Except StdException Value}
    {next : Value → Service HttpResponse} {world : World}
    (serves :
      ∀ value,
        ServesAtMostOne json world ((next value).run exec world).2) :
    ServesAtMostOne json world
      ((Program.ofExcept result >>= next).run exec world).2 := by
  cases result with
  | ok value => exact serves value
  | error exception => exact Or.inl rfl

variable (req : HttpRequest) (resp : HttpResponse) (world : World)

theorem servesAtMostOne_detail (id : Int) :
    ServesAtMostOne json world
      ((handleGetArticleDetail json resp id).run exec world).2 := by
  apply servesAtMostOne_bind
  · intro document later
    apply (Program.world_run_bind exec ?_ _ _).trans
      (Program.world_run_ofExcept exec _ _)
    intro code last
    split
    · rfl
    · rfl
  · exact Or.inr ⟨.getArticleDetail id, rfl⟩

theorem servesAtMostOne_createComment (articleId : Int) :
    ServesAtMostOne json world
      ((handleCreateComment json req resp articleId).run exec world).2 := by
  rw [handleCreateComment,
    Program.world_run_catching exec (fun _ _ => rfl)]
  rw [tryCreateComment]
  apply servesAtMostOne_ofExcept_bind
  intro body
  apply servesAtMostOne_ofExcept_bind
  intro content
  apply servesAtMostOne_ofExcept_bind
  intro commenter
  apply servesAtMostOne_bind
  · intro document later
    exact (Program.world_run_bind exec (fun _ _ => rfl) _ _).trans
      (Program.world_run_ofExcept exec _ _)
  · exact Or.inr ⟨.createComment articleId content commenter, rfl⟩

theorem servesAtMostOne_handled :
    ServesAtMostOne json world (handled json req resp world).2 := by
  rw [handled, handleRequest_eq]
  cases route req with
  | health => exact Or.inl rfl
  | articles =>
      apply servesAtMostOne_bind
      · intro document later
        rfl
      · exact Or.inr ⟨.listArticles _ _, rfl⟩
  | hot =>
      apply servesAtMostOne_bind
      · intro document later
        rfl
      · exact Or.inr ⟨.getHotArticles _, rfl⟩
  | detail digits =>
      apply servesAtMostOne_ofExcept_bind
      intro id
      exact servesAtMostOne_detail resp world id
  | getComments digits =>
      apply servesAtMostOne_ofExcept_bind
      intro articleId
      apply servesAtMostOne_bind
      · intro document later
        rfl
      · exact Or.inr ⟨.getComments articleId _, rfl⟩
  | createComment digits =>
      apply servesAtMostOne_ofExcept_bind
      intro articleId
      exact servesAtMostOne_createComment req resp world articleId
  | wrongMethod digits =>
      apply servesAtMostOne_ofExcept_bind
      intro articleId
      exact Or.inl rfl
  | unknown => exact Or.inl rfl

end

/-! ## The states that the API reaches -/

/-- Every state of a run of the API is a state of a run of the forum. -/
theorem exists_runFrom
    (json : JsonLibrary) (database : Database) (clock : Nat → Text)
    (accepts : Nat → Bool) (events : List ApiEvent) :
    ∃ forumEvents,
      apiRun json database clock accepts events =
        runFrom json database clock accepts forumEvents := by
  refine Transition.run_invariant
    (fun world => ∃ forumEvents,
      world = runFrom json database clock accepts forumEvents)
    ?_ events ⟨[], rfl⟩
  rintro world event ⟨forumEvents, rfl⟩
  have one (event : Event) :
      ∃ later,
        step json (runFrom json database clock accepts forumEvents) event =
          runFrom json database clock accepts later :=
    ⟨forumEvents ++ [event], (runFrom_concat database clock accepts
      forumEvents event).symm⟩
  cases event with
  | timeOut key => exact one (.timeOut key)
  | syncViewCounts => exact one (.request .syncViewCounts)
  | request req resp =>
      rcases servesAtMostOne_handled req resp
          (runFrom json database clock accepts forumEvents) with
        same | ⟨request, served⟩
      · exact ⟨forumEvents, same⟩
      · rcases one (.request request) with ⟨later, isLater⟩
        exact ⟨later, served.trans isLater⟩

/-- What the answers rest on, in every state that the API reaches. -/
structure ForumState (json : JsonLibrary) (initial : Database)
    (world : World) : Prop where
  tallied : Tallied initial world
  caches : ArticleService.CachesCopies json initial world
  comments : ∀ articleId, CommentService.CacheShape json world articleId

theorem forumState_apiRun
    (json : JsonLibrary) (database : Database) (clock : Nat → Text)
    (accepts : Nat → Bool) (events : List ApiEvent) :
    ForumState json database
      (apiRun json database clock accepts events) := by
  rcases exists_runFrom json database clock accepts events with
    ⟨forumEvents, same⟩
  rw [same]
  constructor
  · exact tallied_runFrom json database clock accepts forumEvents
  · exact cachesCopies_runFrom json database clock accepts
      forumEvents
  · exact CommentService.cacheShape_runFrom json database clock accepts
      forumEvents

end LightningServer.Handler
