import LightningServer.Foundation.JsonParser
import LightningServer.Service.CommentCache
import LightningServer.Store.Mock
import Mathlib.Algebra.Order.Ring.Nat

/-!
# Reading comments in the mock build

The mock cache keeps the pushed comments of an article as one string.  While
that is the dump of one comment it parses, and a read leaves it alone; once it
is the dumps of several, no read can parse it, and every read puts the dumps of
its rows in front again.  So with two comments or more the string grows with
every read, unless the first read asked for one comment only.
-/

namespace LightningServer.Service.MockComments

open LightningServer.Foundation
open LightningServer.Foundation.Numerals
open LightningServer.Foundation.Transition
open LightningServer.Store
open LightningServer.Service.CommentService

/-! ## Reads -/

/-- The process at its start: nothing in the cache. -/
def initial (articles : List Article) (comments : List Comment)
    (clock : Nat → Text) : MockWorld :=
  { cache := .empty, articles := articles, comments := comments
    ticks := 0, clock := clock }

/-- A call of `getComments`: the article and the limit. -/
abbrev Read := Int × Int

variable (json : JsonLibrary)

def readStep (world : MockWorld) (read : Read) : MockWorld :=
  ((getComments json read.1 read.2).run mockExec world).2

/-- `std::string::size` of what is stored for the article. -/
def storedSize (world : MockWorld) (articleId : Int) : Nat :=
  byteSize ((world.cache.store (commentListKey articleId)).getD [])

def dumpOf (comment : Comment) : Text :=
  json.dump (commentToJson comment)

/-- The length of the dumps of all these comments. -/
def totalSize (comments : List Comment) : Nat :=
  (comments.map fun comment => byteSize (dumpOf json comment)).sum

/-- The length of the dumps of the first comments. -/
def firstSize (comments : List Comment) (count : Nat) : Nat :=
  totalSize json (comments.take count)

/-! ## What a read pushes -/

@[simp]
theorem byteSize_append (first second : Text) :
    byteSize (first ++ second) = byteSize first + byteSize second := by
  simp [byteSize]

/-- The string for these comments, the last pushed first. -/
def storeOf (pushed : List Comment) : Option Text :=
  if pushed = [] then none
  else some (pushed.map (dumpOf json)).flatten

theorem getD_storeOf (pushed : List Comment) :
    (storeOf json pushed).getD [] = (pushed.map (dumpOf json)).flatten := by
  rw [storeOf]
  split
  · next empty =>
      subst empty
      rfl
  · rfl

theorem byteSize_storeOf (pushed : List Comment) :
    byteSize ((storeOf json pushed).getD []) = totalSize json pushed := by
  rw [getD_storeOf]
  induction pushed with
  | nil => rfl
  | cons comment rest induction =>
      rw [List.map_cons, List.flatten_cons, byteSize_append, induction]
      rfl

theorem storeOf_cons (comment : Comment) (pushed : List Comment) :
    storeOf json (comment :: pushed) =
      some (dumpOf json comment ++ (storeOf json pushed).getD []) := by
  rw [getD_storeOf, storeOf, if_neg (List.cons_ne_nil _ _), List.map_cons,
    List.flatten_cons]

/-- The world with this string for the article. -/
def withStore (world : MockWorld) (articleId : Int)
    (value : Option Text) : MockWorld :=
  { world with
    cache := world.cache.put (commentListKey articleId) value }

@[simp]
theorem store_withStore
    (world : MockWorld) (articleId : Int) (value : Option Text) :
    (withStore world articleId value).cache.store
      (commentListKey articleId) = value :=
  MockCache.store_put_self _ _ _

theorem store_withStore_of_ne
    (world : MockWorld) {articleId other : Int} (value : Option Text)
    (different : other ≠ articleId) :
    (withStore world articleId value).cache.store (commentListKey other) =
      world.cache.store (commentListKey other) :=
  MockCache.store_put_of_ne _ _
    fun same => different (commentListKey_injective same)

theorem withStore_withStore
    (world : MockWorld) (articleId : Int) (first second : Option Text) :
    withStore (withStore world articleId first) articleId second =
      withStore world articleId second := by
  simp only [withStore, MockCache.put, MockWorld.mk.injEq,
    MockCache.mk.injEq, and_true]
  ext key : 1
  split
  · rfl
  · rfl

theorem withStore_self
    {world : MockWorld} {articleId : Int} {value : Option Text}
    (store : world.cache.store (commentListKey articleId) = value) :
    withStore world articleId value = world := by
  have same :
      (world.cache.put (commentListKey articleId) value).store =
        world.cache.store := by
    ext key : 1
    by_cases here : key = commentListKey articleId
    · subst here
      rw [MockCache.store_put_self, store]
    · exact MockCache.store_put_of_ne _ _ here
  rcases world with ⟨⟨oldStore, counters⟩, articles, comments, ticks, clock⟩
  simp only [withStore, MockWorld.mk.injEq, and_true]
  simp only [MockCache.put, MockCache.mk.injEq, and_true] at same ⊢
  exact same

/-- The loop puts the dumps of its rows in front, the last one first. -/
theorem run_fillLoop
    (articleId : Int) (comments : List Comment) {pushed : List Comment}
    (list : List Json) {world : MockWorld}
    (store :
      world.cache.store (commentListKey articleId) = storeOf json pushed) :
    (fillLoop json articleId comments list).run mockExec world =
      (.ok (list ++ comments.map commentToJson),
        withStore world articleId
          (storeOf json (comments.reverse ++ pushed))) := by
  induction comments generalizing pushed list world with
  | nil =>
      rw [List.map_nil, List.append_nil, List.reverse_nil,
        List.nil_append, withStore_self store]
      rfl
  | cons comment rest induction =>
      have pushes :
          (mockExec (.lpush (commentListKey articleId)
            (dumpOf json comment)) world).2 =
            withStore world articleId (storeOf json (comment :: pushed)) := by
        rw [storeOf_cons, ← store]
        rfl
      have next :=
        @induction (comment :: pushed) (list ++ [commentToJson comment])
          (withStore world articleId (storeOf json (comment :: pushed)))
          (store_withStore _ _ _)
      rw [withStore_withStore] at next
      show (fillLoop json articleId rest _).run mockExec
        (mockExec (.lpush (commentListKey articleId)
          (dumpOf json comment)) world).2 = _
      rw [pushes, next]
      simp

/-! ## One read -/

section Run

variable {json}

/-- The comments that a read leaves pushed, from those before it. -/
def pushedAfter (rows pushed : List Comment) (limit : Nat) : List Comment :=
  if pushed.length = 1 then pushed else (rows.take limit).reverse ++ pushed

/-- The string parses exactly when it is the dump of one comment. -/
theorem filterMap_parse_storeOf
    (rejects : json.RejectsMore) {pushed : List Comment}
    (fits :
      ∀ comment ∈ pushed, IsInt comment.id ∧ IsInt comment.articleId) :
    ((storeOf json pushed).toList.filterMap json.parse).isEmpty =
      decide (pushed.length ≠ 1) := by
  cases pushed with
  | nil => rfl
  | cons first others =>
      have canonical := canonical_commentToJson (fits first (by simp))
      rw [storeOf_cons, getD_storeOf]
      cases others with
      | nil =>
          have reads :
              json.parse (dumpOf json first) = some (commentToJson first) :=
            json.parse_dump _ canonical
          simp [reads]
      | cons second rest =>
          have alsoCanonical :=
            canonical_commentToJson (fits second (by simp))
          rw [commentToJson_eq] at canonical alsoCanonical
          have fails :=
            rejects _ _ (rest.map (dumpOf json)).flatten canonical
              alsoCanonical
          rw [← commentToJson_eq, ← commentToJson_eq,
            List.append_assoc] at fails
          simp only [List.map_cons, List.flatten_cons,
            Option.toList_some, List.filterMap_cons, List.filterMap_nil]
          rw [show json.parse (dumpOf json first ++ (dumpOf json second ++
            (rest.map (dumpOf json)).flatten)) = none from fails]
          simp

theorem commentsOf_take
    (world : MockWorld) (articleId : Int) {limit : Int}
    (positive : 1 ≤ limit) :
    world.getCommentsByArticleId articleId limit =
      (world.commentsOf articleId).take limit.toNat := by
  simp only [MockWorld.getCommentsByArticleId]
  split
  · rfl
  · rw [List.take_of_length_le (by omega)]

theorem clampLimit_pos (limit : Int) : 1 ≤ clampLimit limit := by
  rw [clampLimit]
  split
  · decide
  · omega

theorem readStep_eq
    (rejects : json.RejectsMore) {world : MockWorld} (read : Read)
    {pushed : List Comment}
    (fits :
      ∀ comment ∈ pushed, IsInt comment.id ∧ IsInt comment.articleId)
    (store :
      world.cache.store (commentListKey read.1) = storeOf json pushed) :
    readStep json world read =
      withStore world read.1
        (storeOf json
          (pushedAfter (world.commentsOf read.1) pushed
            (clampLimit read.2).toNat)) := by
  rcases read with ⟨articleId, limit⟩
  have cached :
      world.cache.lrange (commentListKey articleId) =
        (storeOf json pushed).toList := by
    rw [MockCache.lrange, store]
  have runs :
      readStep json world (articleId, limit) =
        (((if ((world.cache.lrange (commentListKey articleId)).filterMap
                json.parse).isEmpty then
              fill json articleId (clampLimit limit)
            else
              pure ((world.cache.lrange (commentListKey articleId)).filterMap
                json.parse) : Service (List Json)) >>=
          fun list => Call.perform (.getCommentCount articleId) >>=
            fun total => pure (commentsResponse list total)).run
              mockExec world).2 :=
    rfl
  rw [runs, Program.world_run_bind mockExec (fun _ _ => rfl), cached,
    filterMap_parse_storeOf rejects fits, pushedAfter]
  by_cases settled : pushed.length = 1
  · simp only [settled, ne_eq, not_true_eq_false, decide_false,
      Bool.false_eq_true, if_false, if_true]
    exact (withStore_self store).symm
  · simp only [settled, ne_eq, not_false_eq_true, decide_true, if_true,
      if_false]
    have fills :
        ((fill json articleId (clampLimit limit)).run mockExec world).2 =
          ((fillLoop json articleId
              (world.getCommentsByArticleId articleId (clampLimit limit))
              [] >>= fun list =>
            Call.perform (.expire (commentListKey articleId) 1800) >>=
              fun _ => pure list).run mockExec world).2 :=
      rfl
    rw [fills, Program.world_run_bind mockExec (fun _ _ => rfl),
      run_fillLoop json articleId _ [] store,
      commentsOf_take world articleId (clampLimit_pos limit)]

end Run

/-! ## The sizes -/

section Sizes

variable {json}

@[simp]
theorem totalSize_append (first second : List Comment) :
    totalSize json (first ++ second) =
      totalSize json first + totalSize json second := by
  simp [totalSize]

@[simp]
theorem totalSize_reverse (comments : List Comment) :
    totalSize json comments.reverse = totalSize json comments := by
  simp [totalSize]

theorem firstSize_mono
    (comments : List Comment) {fewer more : Nat} (less : fewer ≤ more) :
    firstSize json comments fewer ≤ firstSize json comments more := by
  have isPrefix : comments.take fewer <+: comments.take more :=
    List.take_prefix_take_left less
  rcases isPrefix with ⟨rest, equal⟩
  rw [firstSize, firstSize, ← equal, totalSize_append]
  exact Nat.le_add_right _ _

/-- All comments that reads with these limits leave pushed. -/
def pushedOver (rows : List Comment) (limits : List Nat) : List Comment :=
  limits.foldl (pushedAfter rows) []

theorem mem_pushedOver
    {rows : List Comment} {limits : List Nat} {comment : Comment}
    (member : comment ∈ pushedOver rows limits) : comment ∈ rows := by
  induction limits using List.reverseRecOn with
  | nil => cases member
  | append_singleton limits limit induction =>
      rw [pushedOver, List.foldl_append, List.foldl_cons, List.foldl_nil,
        pushedAfter] at member
      split at member
      · exact induction member
      · rcases List.mem_append.mp member with new | old
        · exact List.mem_of_mem_take (List.mem_reverse.mp new)
        · exact induction old

theorem foldl_of_settled
    (rows : List Comment) {pushed : List Comment}
    (settled : pushed.length = 1) (limits : List Nat) :
    limits.foldl (pushedAfter rows) pushed = pushed := by
  induction limits with
  | nil => rfl
  | cons limit rest induction =>
      rw [List.foldl_cons, pushedAfter, if_pos settled]
      exact induction

/-- From two pushed comments on, every read pushes its rows. -/
theorem totalSize_foldl_of_growing
    (rows : List Comment) {pushed : List Comment}
    (several : 2 ≤ pushed.length) (limits : List Nat) :
    totalSize json (limits.foldl (pushedAfter rows) pushed) =
      (limits.map (firstSize json rows)).sum + totalSize json pushed := by
  induction limits generalizing pushed with
  | nil => simp
  | cons limit rest induction =>
      have notOne : pushed.length ≠ 1 := by omega
      have more :
          2 ≤ (pushedAfter rows pushed limit).length := by
        rw [pushedAfter, if_neg notOne, List.length_append]
        omega
      rw [List.foldl_cons, induction more, pushedAfter, if_neg notOne,
        totalSize_append, totalSize_reverse, List.map_cons, List.sum_cons,
        ← firstSize]
      omega

/-- Reading does not grow the string. -/
def Stable (json : JsonLibrary) (rows : List Comment) (limits : List Nat) : Prop :=
  rows.length ≤ 1 ∨ (∀ limit ∈ limits.head?, limit = 1) ∨
    (limits.map (firstSize json rows)).sum ≤ firstSize json rows 50

theorem totalSize_pushedOver_le_iff
    (rows : List Comment) {limits : List Nat}
    (inForce : ∀ limit ∈ limits, 1 ≤ limit ∧ limit ≤ 50) :
    totalSize json (pushedOver rows limits) ≤ firstSize json rows 50 ↔
      Stable json rows limits := by
  cases limits with
  | nil =>
      refine iff_of_true (Nat.zero_le _) (Or.inr (Or.inl ?_))
      simp
  | cons limit rest =>
      rcases inForce limit List.mem_cons_self with ⟨positive, atMost⟩
      have first :
          pushedOver rows (limit :: rest) =
            rest.foldl (pushedAfter rows) (rows.take limit).reverse := by
        simp [pushedOver, pushedAfter]
      have length :
          (rows.take limit).reverse.length = min limit rows.length := by
        rw [List.length_reverse, List.length_take]
      rw [first]
      rcases Nat.lt_trichotomy (min limit rows.length) 1 with
        none | one | several
      · have noRows : rows = [] := by
          rw [← List.length_eq_zero_iff]
          omega
        subst noRows
        have nothing :
            pushedOver [] (limit :: rest) = [] := by
          rw [List.eq_nil_iff_forall_not_mem]
          intro comment member
          exact absurd (mem_pushedOver member) List.not_mem_nil
        rw [← first, nothing]
        exact iff_of_true (Nat.zero_le _) (Or.inl (Nat.zero_le 1))
      · -- one dump is there, and every later read can parse it
        rw [foldl_of_settled rows (length.trans one), totalSize_reverse,
          ← firstSize]
        refine iff_of_true (firstSize_mono rows atMost) ?_
        rcases Nat.le_total limit rows.length with less | few
        · right
          left
          intro other isFirst
          cases isFirst
          omega
        · left
          omega
      · rw [totalSize_foldl_of_growing rows (by omega), totalSize_reverse,
          ← firstSize]
        constructor
        · intro bounded
          right
          right
          rw [List.map_cons, List.sum_cons]
          omega
        · rintro (few | one | bounded)
          · omega
          · have isOne : limit = 1 := one limit rfl
            omega
          · rw [List.map_cons, List.sum_cons] at bounded
            omega

/-- A prefix of stable reads is stable. -/
theorem Stable.of_prefix
    {rows : List Comment} {fewer limits : List Nat}
    (stable : Stable json rows limits)
    (isPrefix : fewer <+: limits) : Stable json rows fewer := by
  rcases isPrefix with ⟨rest, rfl⟩
  rcases stable with few | one | bounded
  · exact Or.inl few
  · right
    left
    intro limit isFirst
    apply one
    rw [List.head?_append, isFirst]
    rfl
  · right
    right
    rw [List.map_append, List.sum_append] at bounded
    omega

end Sizes

/-! ## Every run of reads -/

section Runs

variable {json}

/-- The limits in force when this article is read. -/
def limitsOf (articleId : Int) (reads : List Read) : List Nat :=
  reads.filterMap fun read =>
    if read.1 = articleId then some (clampLimit read.2).toNat else none

/-- What the reads have left for every article. -/
theorem run_reads
    (rejects : json.RejectsMore) {articles : List Article}
    {comments : List Comment} {clock : Nat → Text}
    (fits :
      ∀ comment ∈ comments, IsInt comment.id ∧ IsInt comment.articleId)
    (reads : List Read) :
    (run (readStep json) (initial articles comments clock)
        reads).comments = comments ∧
      ∀ articleId,
        (run (readStep json) (initial articles comments clock)
            reads).cache.store (commentListKey articleId) =
          storeOf json (pushedOver
            ((initial articles comments clock).commentsOf articleId)
            (limitsOf articleId reads)) := by
  induction reads using List.reverseRecOn with
  | nil => exact ⟨rfl, fun articleId => rfl⟩
  | append_singleton reads read induction =>
      rcases induction with ⟨sameRows, stores⟩
      have rows (articleId : Int) :
          (run (readStep json) (initial articles comments clock)
              reads).commentsOf articleId =
            (initial articles comments clock).commentsOf articleId := by
        rw [MockWorld.commentsOf, sameRows]
        rfl
      have fitting :
          ∀ comment ∈ pushedOver
              ((initial articles comments clock).commentsOf read.1)
              (limitsOf read.1 reads),
            IsInt comment.id ∧ IsInt comment.articleId := fun comment member =>
        fits comment (List.mem_of_mem_filter (mem_pushedOver member))
      have reading := readStep_eq rejects read fitting (stores read.1)
      rw [rows] at reading
      rw [run_append, run_cons, run_nil, reading]
      refine ⟨sameRows, ?_⟩
      intro articleId
      by_cases same : articleId = read.1
      · subst same
        have here : limitsOf read.1 (reads ++ [read]) =
            limitsOf read.1 reads ++ [(clampLimit read.2).toNat] := by
          simp [limitsOf]
        rw [store_withStore, here]
        simp [pushedOver]
      · have other : limitsOf articleId (reads ++ [read]) =
            limitsOf articleId reads := by
          simp [limitsOf, Ne.symm same]
        rw [store_withStore_of_ne _ _ same, other]
        exact stores articleId

theorem limitsOf_inForce
    {articleId : Int} {reads : List Read} {limit : Nat}
    (member : limit ∈ limitsOf articleId reads) :
    1 ≤ limit ∧ limit ≤ 50 := by
  rcases List.mem_filterMap.mp member with ⟨read, -, found⟩
  split at found
  · cases found
    rw [clampLimit]
    split
    · decide
    · omega
  · cases found

/--
In every state of the run the string of the article is at most as long as the
dumps of its first 50 comments.
-/
def StoredBounded (json : JsonLibrary) (world : MockWorld)
    (articleId : Int) (reads : List Read) : Prop :=
  ∀ count,
    storedSize (run (readStep json) world (reads.take count)) articleId ≤
      firstSize json (world.commentsOf articleId) 50

/--
The string stays within the bound exactly when the article has at most one
comment, or the first read of it asks for one, or all its reads together ask
for no more than the first 50.
-/
theorem stored_bounded_iff
    (rejects : json.RejectsMore) (articles : List Article)
    (comments : List Comment) (clock : Nat → Text)
    (fits :
      ∀ comment ∈ comments, IsInt comment.id ∧ IsInt comment.articleId)
    (articleId : Int) (reads : List Read) :
    StoredBounded json (initial articles comments clock) articleId reads ↔
      Stable json
        ((initial articles comments clock).commentsOf articleId)
        (limitsOf articleId reads) := by
  have each (reads : List Read) :
      storedSize
            (run (readStep json) (initial articles comments clock) reads)
            articleId ≤
          firstSize json
            ((initial articles comments clock).commentsOf articleId) 50 ↔
        Stable json
          ((initial articles comments clock).commentsOf articleId)
          (limitsOf articleId reads) := by
    rw [storedSize, (run_reads rejects fits reads).2 articleId,
      byteSize_storeOf]
    exact totalSize_pushedOver_le_iff _ fun limit member =>
      limitsOf_inForce member
  constructor
  · intro always
    have whole := always reads.length
    rw [List.take_length] at whole
    exact (each reads).mp whole
  · intro stable count
    refine (each _).mpr (stable.of_prefix ?_)
    exact (List.take_prefix count reads).filterMap _

end Runs

/-- The rows of the mock database. -/
def mockComments : List Comment :=
  [{ id := 1, articleId := 1
     content := text "写得很详细，Reactor 模式讲解清晰！"
     commenter := text "读者A", createTime := text "2026-06-01 12:00:00" },
    { id := 2, articleId := 1
      content := text "One Loop Per Thread 的设计思路很有启发"
      commenter := text "读者B", createTime := text "2026-06-01 13:30:00" },
    { id := 3, articleId := 2
      content := text "Cache-Aside 模式在实际项目中确实好用"
      commenter := text "读者C", createTime := text "2026-06-01 16:00:00" }]

/-- The first read of the article asks for one comment. -/
theorem stored_bounded_of_single :
    StoredBounded Json.compactLibrary
      (initial [] mockComments fun _ => []) 1 [(1, 1), (2, 20), (1, 20)] :=
  (stored_bounded_iff Json.rejectsMore_compactLibrary [] mockComments
    (fun _ => []) (by decide) 1 [(1, 1), (2, 20), (1, 20)]).mpr
      (Or.inr (Or.inl (by decide)))

/-- Two reads of an article with two comments store them twice. -/
theorem stored_unbounded_of_two :
    ¬ StoredBounded Json.compactLibrary
      (initial [] mockComments fun _ => []) 1 [(1, 20), (1, 20)] := by
  intro always
  exact absurd (always 2) (by decide +kernel)

end LightningServer.Service.MockComments
