import LightningServer.Foundation.Promise
import LightningServer.Service.Documents
import LightningServer.Store.ProxyActions

/-!
# What the services rely on

Several threads work on one Redis and one database, servers fail in the middle
of a request, and keys expire at any time.  `Sound` is what still holds before
every call: a cached detail is a copy of its row, the ranking holds ids, no
counter is larger than the number of events so far, and each element of a
comment list is a document.  From this alone the services promise that they
end with a document, as long as the counters are `int` values.
-/

namespace LightningServer.Service

open LightningServer.Foundation
open LightningServer.Foundation.Numerals
open LightningServer.Store
open LightningServer.Service.ArticleService
open LightningServer.Service.CommentService

/-! ## The invariant -/

/-- No counter is above this number. -/
def CountsUpTo (bound : Nat) (redis : Redis) : Prop :=
  ∀ idStr, counted redis idStr ≤ bound

/-- The comment lists hold texts of documents. -/
def ListsDocuments (json : JsonLibrary) (redis : Redis) : Prop :=
  ∀ articleId entry, redis.entries (commentListKey articleId) = some entry →
    ∃ elements, entry.value = .list elements ∧
      ∀ element ∈ elements,
        ∃ document : Json, document.Canonical ∧
          element = json.dump document

/-- What holds before every call, after this many events. -/
structure Sound (json : JsonLibrary) (initial : Database) (age : Nat)
    (world : World) : Prop where
  caches : CachesCopies json initial world
  ranked : Ranked world.redis
  counts : CountsUpTo age world.redis
  lists : ListsDocuments json world.redis

/-- A call as the services make it. -/
inductive Permitted (json : JsonLibrary) (initial : Database) :
    Call → Prop where
  | keyless {call : Call} (noKey : call.writes = none) :
      Permitted json initial call
  | count (idStr : Text) :
      Permitted json initial (.incr (articleViewKey idStr))
  | rank (score : Int) {id : Int} (fits : IsInt id) :
      Permitted json initial (.zadd hotKey score (decimal id))
  | cache {id : Int} {article : Article}
      (copy : IsCopy initial id article) (ttlSec : Int) :
      Permitted json initial
        (.set (articleCacheKey id) (json.dump (detailResponse article))
          ttlSec)
  | push (articleId : Int) {document : Json}
      (canonical : document.Canonical) :
      Permitted json initial
        (.lpush (commentListKey articleId) (json.dump document))
  | expireList (articleId ttlSec : Int) :
      Permitted json initial (.expire (commentListKey articleId) ttlSec)
  | dropList (articleId : Int) :
      Permitted json initial (.del (commentListKey articleId))

/-! ## Keys that a write leaves alone -/

section Frame

variable {json : JsonLibrary} {initial : Database}
variable {redis later : Redis} {age : Nat}

theorem CountsUpTo.congr
    (counts : CountsUpTo age redis)
    (same : ∀ idStr, later.entries (articleViewKey idStr) =
      redis.entries (articleViewKey idStr)) :
    CountsUpTo age later := by
  intro idStr
  rw [counted, counter_congr (same idStr)]
  exact counts idStr

theorem CountsUpTo.older
    (counts : CountsUpTo age redis) : CountsUpTo (age + 1) redis := by
  intro idStr
  have below := counts idStr
  omega

theorem ListsDocuments.congr
    (lists : ListsDocuments json redis)
    (same : ∀ articleId, later.entries (commentListKey articleId) =
      redis.entries (commentListKey articleId)) :
    ListsDocuments json later := by
  intro articleId
  rw [same articleId]
  exact lists articleId

/-- INCR adds at most one to one counter. -/
theorem CountsUpTo.incr
    (counts : CountsUpTo age redis) (ranked : Ranked redis)
    (idStr : Text) :
    CountsUpTo (age + 1) (redis.incr (articleViewKey idStr)).2 := by
  intro other
  have below := counts other
  by_cases same : other = idStr
  · subst same
    rcases ranked.counter_incr other with
      ⟨-, -, present⟩ | ⟨-, -, present⟩
    · rw [counted_of_some present]
      omega
    · rw [counted_of_some present]
      omega
  · have unchanged : articleViewKey other ≠ articleViewKey idStr :=
      fun equal => same (articleViewKey_injective equal)
    rw [counted,
      counter_congr (redis.entries_incr_of_ne unchanged)]
    exact counts.older other

/-- LPUSH of a document. -/
theorem ListsDocuments.lpush
    (lists : ListsDocuments json redis) (articleId : Int)
    {document : Json} (canonical : document.Canonical) :
    ListsDocuments json
      (redis.lpush (commentListKey articleId) (json.dump document)).2 := by
  intro other entry found
  by_cases same : other = articleId
  · subst same
    unfold Redis.lpush at found
    cases present : redis.entries (commentListKey other) with
    | none =>
        simp only [present, Redis.entries_put_self,
          Option.some.injEq] at found
        subst found
        refine ⟨_, rfl, ?_⟩
        intro element member
        exact ⟨document, canonical, List.mem_singleton.mp member⟩
    | some before =>
        rcases lists other before present with ⟨elements, isList, each⟩
        rcases before with ⟨value, volatile⟩
        simp only at isList
        subst isList
        simp only [present, Redis.entries_put_self,
          Option.some.injEq] at found
        subst found
        refine ⟨_, rfl, ?_⟩
        intro element member
        rcases List.mem_cons.mp member with rfl | old
        · exact ⟨document, canonical, rfl⟩
        · exact each element old
  · rw [Redis.entries_lpush_of_ne _ _
      (fun equal => same (commentListKey_injective equal))] at found
    exact lists other entry found

/-- EXPIRE leaves a list as it is, or deletes it. -/
theorem ListsDocuments.expire
    (lists : ListsDocuments json redis) (articleId ttlSec : Int) :
    ListsDocuments json
      (redis.expire (commentListKey articleId) ttlSec).2 := by
  intro other entry found
  by_cases same : other = articleId
  · subst same
    unfold Redis.expire at found
    cases present : redis.entries (commentListKey other) with
    | none =>
        simp only [present] at found
        cases found
    | some before =>
        simp only [present] at found
        split at found
        · simp only [Redis.entries_put_self, Option.some.injEq] at found
          subst found
          exact lists other before present
        · simp only [Redis.entries_put_self] at found
          cases found
  · rw [Redis.entries_expire_of_ne _ _
      (fun equal => same (commentListKey_injective equal))] at found
    exact lists other entry found

theorem ListsDocuments.del
    (lists : ListsDocuments json redis) (articleId : Int) :
    ListsDocuments json (redis.del (commentListKey articleId)).2 := by
  intro other entry found
  by_cases same : other = articleId
  · subst same
    simp only [Redis.del, Redis.entries_put_self] at found
    cases found
  · rw [Redis.entries_del_of_ne _
      (fun equal => same (commentListKey_injective equal))] at found
    exact lists other entry found

theorem ListsDocuments.timeOut
    (lists : ListsDocuments json redis) (key : Text) :
    ListsDocuments json (redis.timeOut key) := by
  intro articleId entry found
  rcases redis.entries_timeOut key (commentListKey articleId) with
    same | ⟨gone, -⟩
  · exact lists articleId entry (same ▸ found)
  · rw [gone] at found
    cases found

end Frame

/-! ## Every call keeps the invariant -/

section Sound

variable {json : JsonLibrary} {initial : Database}
variable {age : Nat} {world : World}

theorem sound_initial
    (json : JsonLibrary) (database : Database) (clock : Nat → Text)
    (accepts : Nat → Bool) :
    Sound json database 0 (.initial database clock accepts) where
  caches := cachesCopies_initial json database clock accepts
  ranked := ranked_empty
  counts := by
    intro idStr
    exact Int.le_refl 0
  lists := by
    intro articleId entry found
    cases found

theorem Sound.older
    (sound : Sound json initial age world) :
    Sound json initial (age + 1) world :=
  { sound with counts := sound.counts.older }

theorem Sound.timeOut
    (sound : Sound json initial age world) (key : Text) :
    Sound json initial (age + 1) (world.timeOut key) where
  caches := sound.caches.timeOut key
  ranked := sound.ranked.timeOut key
  counts :=
    (sound.counts.congr (sound.ranked.entries_timeOut key).2).older
  lists := sound.lists.timeOut key

/-- A write of a comment list touches nothing of the articles. -/
theorem Sound.writeList
    (sound : Sound json initial age world) {articleId : Int} {call : Call}
    (only : call.WritesOnly (commentListKey articleId))
    (lists : ListsDocuments json (exec call world).2.redis) :
    Sound json initial (age + 1) (exec call world).2 where
  caches := sound.caches.exec (sparesCache_of_writesOnly only)
  ranked :=
    sound.ranked.congr
      (entries_exec only (hotKey_ne_commentListKey articleId) world)
      (fun idStr => entries_exec only
        (articleViewKey_ne_commentListKey idStr articleId) world)
  counts :=
    (sound.counts.congr fun idStr => entries_exec only
      (articleViewKey_ne_commentListKey idStr articleId) world).older
  lists := lists

theorem Sound.exec
    (sound : Sound json initial age world) {call : Call}
    (permitted : Permitted json initial call) :
    Sound json initial (age + 1) (exec call world).2 := by
  cases permitted with
  | keyless noKey =>
      have same := redis_exec noKey world
      refine ⟨sound.caches.exec (sparesCache_of_noKey noKey), ?_, ?_, ?_⟩
      · rw [same]
        exact sound.ranked
      · rw [same]
        exact sound.counts.older
      · rw [same]
        exact sound.lists
  | count idStr =>
      refine ⟨sound.caches.exec (sparesCache_incr idStr),
        sound.ranked.incr idStr, sound.counts.incr sound.ranked idStr, ?_⟩
      exact sound.lists.congr fun articleId =>
        Redis.entries_incr_of_ne _
          (articleViewKey_ne_commentListKey idStr articleId).symm
  | @rank score id fits =>
      refine ⟨sound.caches.exec (sparesCache_zadd score _),
        sound.ranked.zadd score fits, ?_, ?_⟩
      · exact (sound.counts.congr fun idStr =>
          Redis.entries_zadd_of_ne _ _ _
            (articleViewKey_ne_hotKey idStr)).older
      · exact sound.lists.congr fun articleId =>
          Redis.entries_zadd_of_ne _ _ _
            (hotKey_ne_commentListKey articleId).symm
  | @cache id article copy ttlSec =>
      refine ⟨sound.caches.set copy ttlSec, ?_, ?_, ?_⟩
      · exact sound.ranked.congr
          (Redis.entries_set_of_ne _ _ _
            (articleCacheKey_ne_hotKey id).symm)
          (fun idStr => Redis.entries_set_of_ne _ _ _
            (articleCacheKey_ne_articleViewKey id idStr).symm)
      · exact (sound.counts.congr fun idStr =>
          Redis.entries_set_of_ne _ _ _
            (articleCacheKey_ne_articleViewKey id idStr).symm).older
      · exact sound.lists.congr fun articleId =>
          Redis.entries_set_of_ne _ _ _
            (articleCacheKey_ne_commentListKey id articleId).symm
  | @push articleId document canonical =>
      apply @Sound.writeList json initial age world sound articleId
      · rintro written (rfl | _)
        rfl
      · exact sound.lists.lpush articleId canonical
  | expireList articleId ttlSec =>
      apply @Sound.writeList json initial age world sound articleId
      · rintro written (rfl | _)
        rfl
      · exact sound.lists.expire articleId ttlSec
  | dropList articleId =>
      apply @Sound.writeList json initial age world sound articleId
      · rintro written (rfl | _)
        rfl
      · exact sound.lists.del articleId

/-- Under a ruling a call has its effect, or none. -/
theorem Sound.execRuled
    (sound : Sound json initial age world) {call : Call}
    (permitted : Permitted json initial call) (ruling : Ruling) :
    Sound json initial (age + 1) (execRuled ruling call world).2 := by
  rcases execRuled_cases ruling call world with same | executed
  · rw [same]
    exact sound.older
  · rw [executed]
    exact sound.exec permitted

end Sound

/-! ## Replies under a ruling -/

section Replies

variable {ruling : Ruling} {world : World}

theorem get_of_reply {key value : Text} :
    (execRuled ruling (.get key) world).1 = some value →
      world.redis.get key = some value := by
  apply reply_execRuled (.get key)
    (motive := fun reply =>
      reply = some value → world.redis.get key = some value)
  · exact id
  · exact fun impossible => by cases impossible
  · exact fun _ => id

theorem getArticleById_of_reply {articleId : Int} {article : Article} :
    (execRuled ruling (.getArticleById articleId) world).1 = some article →
      world.database.getArticleById articleId = some article := by
  apply reply_execRuled (.getArticleById articleId)
    (motive := fun reply =>
    reply = some article →
      world.database.getArticleById articleId = some article)
  · exact id
  · exact id
  · exact fun _ impossible => by cases impossible

/-- A page holds rows of the table, and its total is a count. -/
theorem getArticles_of_reply (page pageSize : Int) :
    (∀ article ∈
        (execRuled ruling (.getArticles page pageSize) world).1.1,
      article ∈ world.database.articles) ∧
      IsCount (execRuled ruling (.getArticles page pageSize) world).1.2 := by
  have isCount := isCount_articles world.database
  have executed :
      (∀ article ∈ (world.database.getArticles page pageSize).1,
          article ∈ world.database.articles) ∧
        IsCount (world.database.getArticles page pageSize).2 := by
    refine ⟨fun article listed => Database.mem_of_mem_getArticles listed, ?_⟩
    rw [Database.getArticles]
    split
    · exact isCount
    · exact isCount
  apply reply_execRuled (.getArticles page pageSize)
    (motive := fun reply : List Article × Int =>
    (∀ article ∈ reply.1, article ∈ world.database.articles) ∧
      IsCount reply.2)
  · exact executed
  · exact executed
  · intro fault
    refine ⟨fun article impossible => absurd impossible
      List.not_mem_nil, ?_⟩
    show IsCount (if _ then _ else _)
    split
    · exact isCount
    · exact ⟨by decide, by decide⟩

theorem getHotArticles_of_reply (limit : Int) :
    ∀ article ∈ (execRuled ruling (.getHotArticles limit) world).1,
      article ∈ world.database.articles := by
  have executed :
      ∀ article ∈ world.database.getHotArticles limit,
        article ∈ world.database.articles :=
    fun article shown => mem_orderBy.mp (List.mem_of_mem_take shown)
  apply reply_execRuled (.getHotArticles limit)
    (motive := fun reply : List Article =>
    ∀ article ∈ reply, article ∈ world.database.articles)
  · exact executed
  · exact executed
  · exact fun _ article impossible => absurd impossible List.not_mem_nil

theorem getComments_of_reply (articleId limit : Int) :
    ∀ comment ∈
        (execRuled ruling (.getCommentsByArticleId articleId limit)
          world).1,
      comment ∈ world.database.comments := by
  have executed :
      ∀ comment ∈ world.database.getCommentsByArticleId articleId limit,
        comment ∈ world.database.comments :=
    fun comment shown =>
      (Database.mem_commentsOf.mp (List.mem_of_mem_take shown)).1
  apply reply_execRuled (.getCommentsByArticleId articleId limit)
    (motive := fun reply : List Comment =>
    ∀ comment ∈ reply, comment ∈ world.database.comments)
  · exact executed
  · exact executed
  · exact fun _ comment impossible => absurd impossible List.not_mem_nil

theorem isCount_of_reply (articleId : Int) :
    IsCount (execRuled ruling (.getCommentCount articleId) world).1 := by
  have isCount := isCount_getCommentCount world.database articleId
  apply reply_execRuled (.getCommentCount articleId)
    (motive := fun reply : Int => IsCount reply)
  · exact isCount
  · exact isCount
  · exact fun _ => ⟨show (0 : Int) ≤ 0 by decide,
      show (0 : Int) < 2 ^ 64 by decide⟩

theorem mem_of_mem_slice
    {Element : Type} {start stop : Int} {elements : List Element}
    {element : Element}
    (listed : element ∈ Redis.slice start stop elements) :
    element ∈ elements := by
  simp only [Redis.slice, List.mem_ite_nil_left] at listed
  exact List.mem_of_mem_drop (List.mem_of_mem_take listed.2)

/-- What is listed of the ranking are ids. -/
theorem zrevrange_of_reply
    (ranked : Ranked world.redis) (start stop : Int) :
    ∀ idStr ∈ (execRuled ruling (.zrevrange hotKey start stop) world).1,
      ∃ id, IsInt id ∧ idStr = decimal id := by
  have executed :
      ∀ idStr ∈ world.redis.zrevrange hotKey start stop,
        ∃ id, IsInt id ∧ idStr = decimal id := by
    intro idStr shown
    rcases ranked.ranking_cases with absent | ⟨set, present, members⟩
    · simp [Redis.zrevrange, absent] at shown
    · simp only [Redis.zrevrange, present] at shown
      exact members idStr (mem_of_mem_slice shown)
  apply reply_execRuled (.zrevrange hotKey start stop)
    (motive := fun reply : List Text =>
    ∀ idStr ∈ reply, ∃ id, IsInt id ∧ idStr = decimal id)
  · exact executed
  · exact fun idStr impossible => absurd impossible List.not_mem_nil
  · exact fun _ => executed

/-- What is listed of the comments are documents. -/
theorem lrange_of_reply
    {json : JsonLibrary} (lists : ListsDocuments json world.redis)
    (articleId start stop : Int) :
    ∀ element ∈
        (execRuled ruling (.lrange (commentListKey articleId) start stop)
          world).1,
      ∃ document : Json, document.Canonical ∧
        element = json.dump document := by
  have executed :
      ∀ element ∈ world.redis.lrange (commentListKey articleId) start stop,
        ∃ document : Json, document.Canonical ∧
          element = json.dump document := by
    intro element shown
    cases present : world.redis.entries (commentListKey articleId) with
    | none => simp [Redis.lrange, present] at shown
    | some entry =>
        rcases lists articleId entry present with ⟨elements, isList, each⟩
        rcases entry with ⟨value, volatile⟩
        simp only at isList
        subst isList
        simp only [Redis.lrange, present] at shown
        exact each element (mem_of_mem_slice shown)
  apply reply_execRuled (.lrange (commentListKey articleId) start stop)
    (motive := fun reply : List Text =>
    ∀ element ∈ reply,
      ∃ document : Json, document.Canonical ∧
        element = json.dump document)
  · exact executed
  · exact fun element impossible => absurd impossible List.not_mem_nil
  · exact fun _ => executed

/-- A young counter is read as an `int`. -/
theorem Sound.stoi_counter
    {json : JsonLibrary} {initial : Database} {age : Nat}
    (sound : Sound json initial age world) (young : age < 2 ^ 31)
    {idStr viewStr : Text}
    (found : world.redis.get (articleViewKey idStr) = some viewStr) :
    ∃ number, IsInt number ∧ stoi viewStr = .ok number := by
  rcases sound.ranked.get_counter idStr with
    ⟨absent, -⟩ | ⟨number, value, present⟩
  · rw [absent] at found
    cases found
  · have low := (sound.ranked.counter_range present).1
    have high := sound.counts idStr
    rw [counted_of_some present] at high
    have fits : IsInt number := ⟨by omega, by omega⟩
    rw [value] at found
    cases found
    exact ⟨number, fits, by rw [stoi_decimal, if_pos fits]⟩

end Replies

/-! ## What the services promise -/

/-- The outcome is a document that the library holds, with such a code. -/
def IsAnswer (codes : Int → Prop) (outcome : Except StdException Json) :
    Prop :=
  ∃ code document, outcome = .ok document ∧ HasCode code document ∧
    codes code

section Promises

variable (json : JsonLibrary) (initial : Database) (limit : Nat)

/-- The outcome of a service, whatever happens between its calls. -/
abbrev Delivers {Value : Type} (program : Service Value)
    (post : Except StdException Value → Prop) : Prop :=
  program.Promises execRuled (Sound json initial) limit post

variable {json initial limit}

/-- A permitted call, and what comes after its reply. -/
theorem delivers_call
    {Value : Type} {call : Call} {next : call.Reply → Service Value}
    {post : Except StdException Value → Prop}
    (permitted : Permitted json initial call)
    (later :
      ∀ ruling age world, age < limit → Sound json initial age world →
        Delivers json initial limit (next (execRuled ruling call world).1)
          post) :
    Delivers json initial limit (call.perform >>= next) post :=
  Program.promises_perform_bind fun ruling age world young sound =>
    ⟨sound.execRuled permitted ruling, later ruling age world young sound⟩

/-- A permitted call whose reply does not matter. -/
theorem delivers_any
    {Value : Type} {call : Call} {next : call.Reply → Service Value}
    {post : Except StdException Value → Prop}
    (permitted : Permitted json initial call)
    (later :
      ∀ reply, Delivers json initial limit (next reply) post) :
    Delivers json initial limit (call.perform >>= next) post :=
  delivers_call permitted fun _ _ _ _ _ => later _

theorem delivers_listArticles
    {page pageSize : Int} (pageFits : IsInt page)
    (pageSizeFits : IsInt pageSize) :
    Delivers json initial limit (listArticles page pageSize)
      (IsAnswer (· = 0)) := by
  have shownPage : IsInt (if page < 1 then 1 else page) := by
    split
    · decide
    · exact pageFits
  have shownSize :
      IsInt (if pageSize < 1 ∨ 50 < pageSize then 10 else pageSize) := by
    split
    · decide
    · exact pageSizeFits
  refine delivers_call (.keyless rfl) fun ruling age world young sound => ?_
  rcases @getArticles_of_reply ruling world
      (if page < 1 then 1 else page)
      (if pageSize < 1 ∨ 50 < pageSize then 10 else pageSize) with
    ⟨rows, isCount⟩
  refine ⟨0, _, rfl, ⟨?_, rfl⟩, rfl⟩
  refine ⟨show [text "code", text "data"].Pairwise
      (fun left right => left < right) by decide,
    canonical_number (by decide), ⟨?_, ?_, ?_, ?_, ?_, trivial⟩, trivial⟩
  · show [text "list", text "page", text "pageSize", text "total"].Pairwise
      (fun left right => left < right)
    decide
  · exact canonicalItems_listItem fun article listed =>
      world.database.articlesFit article (rows article listed)
  · exact canonical_number shownPage
  · exact canonical_number shownSize
  · exact canonical_count isCount

/-- A detail is code 0, or code 404. -/
theorem delivers_getArticleDetail (id : Int) :
    Delivers json initial limit (getArticleDetail json id)
      (IsAnswer fun code => code = 0 ∨ code = 404) := by
  refine delivers_call (.keyless rfl) fun ruling age world young sound => ?_
  cases cached :
      (execRuled ruling (.get (articleCacheKey id)) world).1 with
  | some value =>
      rcases sound.caches.parse_cached (get_of_reply cached) with
        ⟨article, copy, -, parsed⟩
      apply (Program.promises_ofExcept_iff _).mpr
      exact ⟨0, _, parsed, hasCode_detailResponse copy.2, Or.inl rfl⟩
  | none =>
      refine delivers_call (.keyless rfl)
        fun ruling age world young sound => ?_
      cases found : (execRuled ruling (.getArticleById id) world).1 with
      | none =>
          exact ⟨404, _, rfl, hasCode_failure (by decide) _, Or.inr rfl⟩
      | some article =>
          have row := isCopy_of_found sound.caches.rows
            (getArticleById_of_reply found)
          refine delivers_any (.count _) fun redisViews => ?_
          have copy :=
            row.withViews (isInt_max row.2.2 (isInt_toInt32 redisViews))
          refine delivers_any
            (.rank _ (row.id_eq ▸ row.2.1)) fun ranked => ?_
          refine delivers_any (.cache copy 3600) fun stored => ?_
          exact ⟨0, _, rfl, hasCode_detailResponse copy.2, Or.inl rfl⟩

/-- A list of documents, collected in a loop. -/
def Collects (outcome : Except StdException (List Json)) : Prop :=
  ∃ list, outcome = .ok list ∧ ∀ item ∈ list, item.Canonical

theorem forall_mem_concat
    {Element : Type} {kind : Element → Prop} {list : List Element}
    {last : Element} (each : ∀ element ∈ list, kind element)
    (here : kind last) : ∀ element ∈ list ++ [last], kind element := by
  intro element member
  rcases List.mem_append.mp member with old | new
  · exact each element old
  · rw [List.mem_singleton.mp new]
    exact here

section Young

variable (small : limit ≤ 2 ^ 31)

include small

theorem delivers_hotLoop
    {hotIds : List Text}
    (decimals : ∀ idStr ∈ hotIds, ∃ id, IsInt id ∧ idStr = decimal id)
    {list : List Json} (canonical : ∀ item ∈ list, item.Canonical) :
    Delivers json initial limit (hotLoop hotIds list) Collects := by
  induction hotIds generalizing list with
  | nil => exact ⟨list, rfl, canonical⟩
  | cons idStr rest induction =>
      rw [List.forall_mem_cons] at decimals
      rcases decimals with ⟨⟨id, fits, rfl⟩, others⟩
      have readId : stoi (decimal id) = .ok id := by
        rw [stoi_decimal, if_pos fits]
      rw [hotLoop, readId, Program.ofExcept_ok, Program.ret_bind]
      refine delivers_call (.keyless rfl)
        fun ruling age world young sound => ?_
      cases found : (execRuled ruling (.getArticleById id) world).1 with
      | none => exact induction others canonical
      | some article =>
          have inTable := (Database.getArticleById_eq_some
            (getArticleById_of_reply found)).1
          have rowFits := world.database.articlesFit article inTable
          refine delivers_call (.keyless rfl)
            fun ruling age world young sound => ?_
          cases viewed :
              (execRuled ruling (.get (articleViewKey (decimal id)))
                world).1 with
          | none =>
              exact induction others
                (forall_mem_concat canonical (canonical_listItem rowFits))
          | some viewStr =>
              rcases sound.stoi_counter (by omega) (get_of_reply viewed)
                with ⟨number, narrow, isNumber⟩
              show Delivers json initial limit
                (Program.ofExcept (stoi viewStr) >>= _) Collects
              rw [isNumber, Program.ofExcept_ok, Program.ret_bind]
              exact induction others
                (forall_mem_concat canonical (canonical_listItem
                  ⟨rowFits.1, isInt_max rowFits.2 narrow⟩))

theorem delivers_hotList
    (wanted : Int) {hotIds : List Text}
    (decimals : ∀ idStr ∈ hotIds, ∃ id, IsInt id ∧ idStr = decimal id) :
    Delivers json initial limit (hotList wanted hotIds) Collects := by
  rw [hotList]
  split
  · exact delivers_hotLoop small decimals
      fun item impossible => absurd impossible List.not_mem_nil
  · refine delivers_call (.keyless rfl)
      fun ruling age world young sound => ?_
    refine ⟨_, rfl, ?_⟩
    intro item member
    rcases List.mem_map.mp member with ⟨article, listed, rfl⟩
    exact canonical_listItem (world.database.articlesFit article
      (getHotArticles_of_reply _ article listed))

theorem delivers_getHotArticles (wanted : Int) :
    Delivers json initial limit (getHotArticles wanted)
      (IsAnswer (· = 0)) := by
  refine delivers_call (.keyless rfl) fun ruling age world young sound => ?_
  have decimals := @zrevrange_of_reply ruling world sound.ranked 0
    ((if wanted < 1 ∨ 20 < wanted then 10 else wanted) - 1)
  generalize (execRuled ruling (.zrevrange hotKey 0 _) world).1 = hotIds
    at decimals ⊢
  apply Program.promises_bind (delivers_hotList small _ decimals)
  · rintro failure ⟨list, impossible, -⟩
    cases impossible
  · rintro list ⟨items, isList, canonical⟩
    cases isList
    exact ⟨0, _, rfl, hasCode_hotResponse (canonicalItems canonical), rfl⟩

theorem delivers_syncLoop
    {hotIds : List Text}
    (decimals : ∀ idStr ∈ hotIds, ∃ id, IsInt id ∧ idStr = decimal id) :
    Delivers json initial limit (syncLoop hotIds) (· = .ok ()) := by
  induction hotIds with
  | nil => rfl
  | cons idStr rest induction =>
      rw [List.forall_mem_cons] at decimals
      rcases decimals with ⟨⟨id, fits, rfl⟩, others⟩
      have readId : stoi (decimal id) = .ok id := by
        rw [stoi_decimal, if_pos fits]
      refine delivers_call (.keyless rfl)
        fun ruling age world young sound => ?_
      cases viewed :
          (execRuled ruling (.get (articleViewKey (decimal id)))
            world).1 with
      | none => exact induction others
      | some viewStr =>
          rcases sound.stoi_counter (by omega) (get_of_reply viewed) with
            ⟨number, narrow, isNumber⟩
          show Delivers json initial limit
            (Program.ofExcept (stoi (decimal id)) >>= _) _
          rw [readId, Program.ofExcept_ok, Program.ret_bind, isNumber,
            Program.ofExcept_ok, Program.ret_bind]
          exact delivers_any (.keyless rfl) fun updated =>
            induction others

/-- The sync does not throw. -/
theorem delivers_syncViewCounts :
    Delivers json initial limit syncViewCounts (· = .ok ()) := by
  refine delivers_call (.keyless rfl) fun ruling age world young sound => ?_
  exact delivers_syncLoop small
    (zrevrange_of_reply sound.ranked 0 99)

end Young

theorem delivers_fillLoop
    (articleId : Int) {comments : List Comment}
    (fit : ∀ comment ∈ comments,
      IsInt comment.id ∧ IsInt comment.articleId)
    {list : List Json} (canonical : ∀ item ∈ list, item.Canonical) :
    Delivers json initial limit (fillLoop json articleId comments list)
      Collects := by
  induction comments generalizing list with
  | nil => exact ⟨list, rfl, canonical⟩
  | cons comment rest induction =>
      rw [List.forall_mem_cons] at fit
      have item := canonical_commentToJson fit.1
      exact delivers_any (.push articleId item) fun pushed =>
        induction fit.2 (forall_mem_concat canonical item)

theorem delivers_fill (articleId wanted : Int) :
    Delivers json initial limit (fill json articleId wanted)
      Collects := by
  refine delivers_call (.keyless rfl) fun ruling age world young sound => ?_
  have fit :
      ∀ comment ∈
          (execRuled ruling
            (.getCommentsByArticleId articleId wanted) world).1,
        IsInt comment.id ∧ IsInt comment.articleId :=
    fun comment listed => world.database.commentsFit comment
      (getComments_of_reply articleId wanted comment listed)
  apply Program.promises_bind (delivers_fillLoop articleId fit
    fun item impossible => absurd impossible List.not_mem_nil)
  · rintro failure ⟨list, impossible, -⟩
    cases impossible
  · rintro list collected
    exact delivers_any (.expireList articleId 1800) fun expired => collected

/-- Whatever is cached, by whichever fill, the answer is code 0. -/
theorem delivers_getComments (articleId wanted : Int) :
    Delivers json initial limit (getComments json articleId wanted)
      (IsAnswer (· = 0)) := by
  refine delivers_call (.keyless rfl) fun ruling age world young sound => ?_
  have documents := @lrange_of_reply ruling world json sound.lists articleId
    0 (clampLimit wanted - 1)
  generalize
    (execRuled ruling (.lrange (commentListKey articleId) 0 _) world).1 =
      cached at documents ⊢
  have collected :
      Delivers json initial limit
        (if (cached.filterMap json.parse).isEmpty then
          fill json articleId (clampLimit wanted)
        else pure (cached.filterMap json.parse)) Collects := by
    split
    · exact delivers_fill articleId _
    · refine ⟨_, rfl, ?_⟩
      intro item member
      rcases List.mem_filterMap.mp member with ⟨element, listed, parsed⟩
      rcases documents element listed with ⟨document, canonical, rfl⟩
      rw [json.parse_dump document canonical] at parsed
      cases parsed
      exact canonical
  apply Program.promises_bind collected
  · rintro failure ⟨list, impossible, -⟩
    cases impossible
  · rintro list ⟨items, isList, canonical⟩
    cases isList
    refine delivers_call (.keyless rfl)
      fun ruling age world young sound => ?_
    exact ⟨0, _, rfl, hasCode_commentsResponse (canonicalItems canonical)
      (isCount_of_reply articleId), rfl⟩

/-- The codes of a comment post. -/
def IsPostCode (code : Int) : Prop :=
  code = 0 ∨ code = 400 ∨ code = 404 ∨ code = 500

theorem delivers_createComment
    {articleId : Int} (fits : IsInt articleId) (content commenter : Text) :
    Delivers json initial limit
      (createComment articleId content commenter)
      (IsAnswer IsPostCode) := by
  rw [createComment]
  split
  · exact ⟨400, _, rfl, hasCode_failure (by decide) _, Or.inr (Or.inl rfl)⟩
  split
  · exact ⟨400, _, rfl, hasCode_failure (by decide) _, Or.inr (Or.inl rfl)⟩
  refine delivers_any (.keyless rfl) fun found => ?_
  cases found with
  | none =>
      exact ⟨404, _, rfl, hasCode_failure (by decide) _,
        Or.inr (Or.inr (Or.inl rfl))⟩
  | some article =>
      refine delivers_any (.keyless rfl) fun created => ?_
      cases created with
      | false =>
          exact ⟨500, _, rfl, hasCode_failure (by decide) _,
            Or.inr (Or.inr (Or.inr rfl))⟩
      | true =>
          refine delivers_any (.keyless rfl) fun now => ?_
          refine delivers_any (.dropList articleId) fun dropped => ?_
          exact ⟨0, _, rfl,
            hasCode_commentCreated ⟨show IsInt 0 by decide, fits⟩,
            Or.inl rfl⟩

end Promises

end LightningServer.Service
