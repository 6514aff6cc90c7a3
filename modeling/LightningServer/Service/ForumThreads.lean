import LightningServer.Foundation.JsonParser
import LightningServer.Service.ArticleCache

/-!
# The forum with several threads

Requests of all kinds run side by side, one call at a time, while keys expire
between their calls.  Every thread keeps what `CachesCopies` says of the
article cache: a detail because it writes its own row under its own key, every
other request because it writes no such key at all.
-/

namespace LightningServer.Service

open LightningServer.Foundation
open LightningServer.Store
open LightningServer.Service.ArticleService
open LightningServer.Service.CommentService

/-! ## Threads and steps -/

section

variable (json : JsonLibrary)

/-- A request arrives, a thread makes a call, or a key expires. -/
abbrev ForumEvent :=
  OpenEvent Request Text

/-- The threads and their world, from an empty Redis. -/
def forumRun (database : Database) (clock : Nat → Text)
    (accepts : Nat → Bool) (events : List ForumEvent) :
    Pool (Service Json) World :=
  Transition.run
    (Pool.openStep exec (requestCode json)
      fun key world => world.timeOut key)
    (.empty (.initial database clock accepts)) events

end

/-! ## Requests that write no cached detail -/

theorem sparesCache_of_readOnly
    {call : Call} (readOnly : call.ReadOnly) :
    SparesCache call := by
  apply sparesCache_of_noKey
  cases call with
  | setViewCount id count => exact readOnly.elim
  | createComment comment => exact readOnly.elim
  | _ => exact readOnly

theorem sparesCache_of_writesOnly
    {articleId : Int} {call : Call}
    (only : call.WritesOnly (commentListKey articleId)) :
    SparesCache call := by
  intro written isWritten id
  rw [only written isWritten]
  exact articleCacheKey_ne_commentListKey id articleId

theorem requestCode_sparesCache
    (json : JsonLibrary) {request : Request}
    (noDetail : ∀ id, request ≠ .getArticleDetail id) :
    (requestCode json request).Asks SparesCache := by
  cases request with
  | getArticleDetail id => exact absurd rfl (noDetail id)
  | listArticles page pageSize =>
      exact (listArticles_readOnly page pageSize).weaken
        fun _ => sparesCache_of_readOnly
  | getHotArticles limit =>
      exact (getHotArticles_readOnly limit).weaken
        fun _ => sparesCache_of_readOnly
  | syncViewCounts =>
      apply Program.asks_bind
      · exact syncViewCounts_keepsComments.weaken
          fun _ keeps => sparesCache_of_noKey keeps.1
      · intro _
        trivial
  | getComments articleId limit =>
      exact (getComments_writesOnly json articleId limit).weaken
        fun _ => sparesCache_of_writesOnly
  | createComment articleId content commenter =>
      exact (createComment_writesOnly articleId content commenter).weaken
        fun _ => sparesCache_of_writesOnly

theorem requestCode_ensures
    (json : JsonLibrary) (initial : Database) (request : Request) :
    (requestCode json request).Ensures exec (CachesCopies json initial)
      fun _ => True := by
  by_cases detail : ∃ id, request = .getArticleDetail id
  · rcases detail with ⟨id, rfl⟩
    exact (getArticleDetail_ensures json initial id).weaken
      fun _ _ => trivial
  · apply Program.ensures_of_asks
      (requestCode_sparesCache json (not_exists.mp detail))
    intro _ _ spared caches
    exact caches.exec spared

/-- Served one after the other, the requests keep it too. -/
theorem cachesCopies_step
    {json : JsonLibrary} {initial : Database} {world : World}
    (caches : CachesCopies json initial world) (event : Event) :
    CachesCopies json initial (Service.step json world event) := by
  cases event with
  | timeOut key => exact caches.timeOut key
  | request request =>
      show CachesCopies json initial (serve json world request)
      rw [serve_eq]
      exact ((requestCode_ensures json initial request).run caches).1

theorem cachesCopies_runFrom
    (json : JsonLibrary) (database : Database) (clock : Nat → Text)
    (accepts : Nat → Bool) (events : List Event) :
    CachesCopies json database
      (runFrom json database clock accepts events) :=
  Transition.run_invariant (CachesCopies json database)
    (fun _ event caches => cachesCopies_step caches event)
    events (cachesCopies_initial json database clock accepts)

/-! ## Every interleaving -/

theorem safe_forumRun
    (json : JsonLibrary) (database : Database) (clock : Nat → Text)
    (accepts : Nat → Bool) (events : List ForumEvent) :
    (forumRun json database clock accepts events).Safe exec
      (CachesCopies json database) := by
  have start :
      (Pool.empty (World.initial database clock accepts) :
        Pool (Service Json) World).Safe exec
          (CachesCopies json database) :=
    ⟨cachesCopies_initial json database clock accepts,
      Pool.all_empty _ _⟩
  exact start.run (requestCode_ensures json database)
    (fun key _ caches => caches.timeOut key) events

/--
In every interleaving, a detail that has arrived is still short of its five
calls and waits for its next one, or it has returned the row of its id as the
proxy receives it, or 404 when there is none.
-/
theorem getArticleDetail_showsReceived
    (json : JsonLibrary) (database : Database) (clock : Nat → Text)
    (accepts : Nat → Bool) (before after : List ForumEvent) (id : Int) :
    let index :=
      (forumRun json database clock accepts before).threads.length
    let later :=
      forumRun json database clock accepts
        (before ++ .inside (.arrive (.getArticleDetail id)) :: after)
    (later.nextCall? index ≠ none ∧
        (after.filter (OpenEvent.moves index)).length < 5) ∨
      ∃ response, later.value? index = some response ∧
        ShowsRow (database.getArticleById id) (.ok response) := by
  intro index later
  have safe := safe_forumRun json database clock accepts
    (before ++ [.inside (.arrive (.getArticleDetail id))])
  have arrived :
      (forumRun json database clock accepts
          (before ++
            [.inside (.arrive (.getArticleDetail id))])).threads[index]? =
        some (getArticleDetail json id) := by
    rw [forumRun, Transition.run_append]
    exact List.getElem?_concat_length
  rcases safe.run_thread (requestCode_ensures json database)
      (fun key _ caches => caches.timeOut key) arrived
      (getArticleDetail_ensures json database id)
      (getArticleDetail_within json id) after with
    ⟨code, there, ensures, within⟩
  have present : later.threads[index]? = some code := by
    rw [← there]
    simp only [later, forumRun, Transition.run_append,
      Transition.run_cons, Transition.run_nil]
  cases code with
  | ret response =>
      right
      refine ⟨response, ?_, ensures⟩
      simp [Pool.value?, present, Program.value?]
  | throw exception =>
      exact absurd ensures (not_showsRow_error _ exception)
  | call request next =>
      left
      constructor
      · simp [Pool.nextCall?, present, Program.nextCall]
      · by_contra enough
        rw [Nat.sub_eq_zero_of_le (Nat.le_of_not_lt enough)] at within
        exact within

/--
What a detail returns shows the row of its id, or 404 when there is none, if
and only if no text of that row holds a NUL.
-/
theorem getArticleDetail_showsRow_iff
    (json : JsonLibrary) (database : Database) (clock : Nat → Text)
    (accepts : Nat → Bool) (before after : List ForumEvent) (id : Int) :
    let index :=
      (forumRun json database clock accepts before).threads.length
    let later :=
      forumRun json database clock accepts
        (before ++ .inside (.arrive (.getArticleDetail id)) :: after)
    (later.nextCall? index ≠ none ∧
        (after.filter (OpenEvent.moves index)).length < 5) ∨
      ∃ response, later.value? index = some response ∧
        (ShowsRow (database.storedArticle id) (.ok response) ↔
          ∀ row ∈ database.storedArticle id, row.Plain) := by
  intro index later
  rcases getArticleDetail_showsReceived json database clock accepts before
      after id with waiting | ⟨response, returned, shows⟩
  · exact Or.inl waiting
  · rw [Database.getArticleById_eq_received] at shows
    exact Or.inr ⟨response, returned, shows.of_received_iff⟩

/-- An article with a NUL in its title, and a comment. -/
def nulTitle : Database where
  storedArticles := [{ id := 1, title := ['a', Char.ofNat 0, 'b'] }]
  storedComments := [{ id := 4, articleId := 1 }]
  nextCommentId := 5
  tieRank := fun id => id
  storedArticleIds := by decide
  storedArticlesFit := by decide
  storedCommentIds := by decide
  storedCommentsFit := by decide
  storedCommentsBelow := by decide

/-- Its detail shows the title up to the NUL. -/
theorem getArticleDetail_cuts_title :
    ∃ response,
      (forumRun Json.compactLibrary nulTitle (fun _ => []) (fun _ => true)
        (.inside (.arrive (.getArticleDetail 1)) ::
          List.replicate 5 (.inside (.advance 0)))).value? 0 =
          some response ∧
        ¬ ShowsRow (nulTitle.storedArticle 1) (.ok response) := by
  rcases getArticleDetail_showsReceived Json.compactLibrary nulTitle
      (fun _ => []) (fun _ => true) []
      (List.replicate 5 (.inside (.advance 0))) 1 with
    ⟨-, few⟩ | ⟨response, returned, shows⟩
  · exact absurd few (by decide)
  · rw [Database.getArticleById_eq_received] at shows
    exact ⟨response, returned, shows.of_received_iff.not.mpr (by decide)⟩

end LightningServer.Service
