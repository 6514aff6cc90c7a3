import LightningServer.Service.CommentOrder

/-!
# The cached comments and the rows of the table

`CacheShape` speaks of the comments as the proxy receives them.  A text of a
row ends there at its first NUL, so the lists are made of the rows of the
table exactly as long as no fill meets a row with one.
-/

namespace LightningServer.Service

open LightningServer.Foundation
open LightningServer.Foundation.Numerals
open LightningServer.Foundation.Transition
open LightningServer.Store
open LightningServer.Service.CommentService

namespace CommentService

section

variable (json : JsonLibrary)

/-- The elements are the first rows of the article, the last of them first. -/
structure ListsRows (database : Database) (articleId : Int) (count : Nat)
    (elements : List Text) : Prop where
  positive : 1 ≤ count
  small : count ≤ 50
  enough : count ≤ (database.storedCommentsOf articleId).length
  reversed :
    elements =
      (((database.storedCommentsOf articleId).take count).map
        (cacheText json)).reverse
  distinct : elements.Nodup
  /-- every element is a comment of the article -/
  own :
    ∀ element ∈ elements,
      ∃ row ∈ database.storedComments,
        row.articleId = articleId ∧ element = cacheText json row
  /-- the newest comment is there -/
  newest :
    ∀ row ∈ (database.storedCommentsOf articleId).head?,
      cacheText json row ∈ elements

/-- The list of the article is absent, or made of the rows of the table. -/
def KeepsRows (articleId : Int) (world : World) : Prop :=
  world.redis.entries (commentListKey articleId) = none ∨
    ∃ count elements volatile,
      world.redis.entries (commentListKey articleId) =
          some ⟨.list elements, volatile⟩ ∧
        ListsRows json world.database articleId count elements

variable {json}

/-- The first rows have no duplicate, and the newest is among them. -/
theorem listsRows_take
    (database : Database) (articleId : Int) {count : Nat}
    (positive : 1 ≤ count) (small : count ≤ 50)
    (enough : count ≤ (database.storedCommentsOf articleId).length) :
    ListsRows json database articleId count
      (((database.storedCommentsOf articleId).take count).map
        (cacheText json)).reverse where
  positive := positive
  small := small
  enough := enough
  reversed := rfl
  distinct := by
    rw [List.nodup_reverse]
    apply nodup_cacheText
    · intro row taken
      exact database.fits_of_mem_storedCommentsOf
        (List.mem_of_mem_take taken)
    · exact (database.nodup_storedCommentsOf articleId).sublist
        ((List.take_sublist count _).map Comment.id)
  own := by
    intro element member
    rcases List.mem_map.mp (List.mem_reverse.mp member) with
      ⟨row, taken, rfl⟩
    rcases Database.mem_storedCommentsOf.mp
      (List.mem_of_mem_take taken) with ⟨inTable, same⟩
    exact ⟨row, inTable, same, rfl⟩
  newest := by
    intro row first
    apply List.mem_reverse.mpr
    apply List.mem_map_of_mem
    rcases List.head?_eq_some_iff.mp first with ⟨rest, rows⟩
    rcases Nat.exists_eq_add_of_lt positive with ⟨more, size⟩
    rw [rows, size, Nat.zero_add]
    exact List.mem_cons_self

/-- Only the list and the rows of the article matter. -/
theorem KeepsRows.congr
    {world later : World} {articleId : Int}
    (keeps : KeepsRows json articleId world)
    (sameList :
      later.redis.entries (commentListKey articleId) =
        world.redis.entries (commentListKey articleId))
    (sameRows :
      later.database.storedCommentsOf articleId =
        world.database.storedCommentsOf articleId) :
    KeepsRows json articleId later := by
  rw [KeepsRows, sameList]
  rcases keeps with absent | ⟨count, elements, volatile, found, lists⟩
  · exact Or.inl absent
  · refine Or.inr ⟨count, elements, volatile, found, ?_⟩
    rw [lists.reversed, ← sameRows]
    exact listsRows_take later.database articleId lists.positive
      lists.small (sameRows ▸ lists.enough)

/-- The received rows are the rows exactly when no text is cut. -/
theorem map_cacheText_received_iff
    (json : JsonLibrary) {rows : List Comment}
    (fit : ∀ row ∈ rows, IsInt row.id ∧ IsInt row.articleId) :
    (rows.map Comment.received).map (cacheText json) =
        rows.map (cacheText json) ↔
      ∀ row ∈ rows, row.Plain := by
  rw [List.map_map, List.map_inj_left]
  refine forall₂_congr fun row member => ?_
  rw [← Comment.received_eq_self_iff]
  constructor
  · exact cacheText_inj json (fit row member) (fit row member)
  · exact congrArg (cacheText json)

/-- A list of received rows keeps the rows of the table if none is cut. -/
theorem keepsRows_iff_plain
    {world : World} {articleId : Int} {count : Nat}
    (holds : HoldsReversed json world articleId count) :
    KeepsRows json articleId world ↔
      ∀ row ∈ (world.database.storedCommentsOf articleId).take count,
        row.Plain := by
  rcases holdsReversed_iff_stored.mp holds with
    ⟨positive, small, enough, volatile, present⟩
  have fit :
      ∀ row ∈ (world.database.storedCommentsOf articleId).take count,
        IsInt row.id ∧ IsInt row.articleId :=
    fun row taken => world.database.fits_of_mem_storedCommentsOf
      (List.mem_of_mem_take taken)
  rw [← map_cacheText_received_iff json fit]
  constructor
  · rintro (absent | ⟨other, elements, volatile', found, lists⟩)
    · rw [absent] at present
      cases present
    · have same := Option.some_inj.mp (present.symm.trans found)
      simp only [RedisEntry.mk.injEq, RedisValue.list.injEq] at same
      have reversed := same.1.trans lists.reversed
      rw [List.reverse_inj] at reversed
      have sizes := congrArg List.length reversed
      simp only [List.length_map, List.length_take] at sizes
      have enough' := lists.enough
      have sameCount : other = count := by omega
      rw [reversed, sameCount]
  · intro same
    refine Or.inr ⟨count, _, volatile, present, ?_⟩
    rw [same]
    exact listsRows_take world.database articleId positive small enough

/-- One event keeps the rows in the list if it puts none into it cut. -/
theorem keepsRows_step_iff
    {world : World} {articleId : Int}
    (shape : CacheShape json world articleId)
    (keeps : KeepsRows json articleId world) (event : Event) :
    KeepsRows json articleId (step json world event) ↔
      ∀ row ∈ filledRows articleId world event, row.Plain := by
  have stepped := listStep json shape event
  generalize step json world event = later at stepped ⊢
  generalize filledRows articleId world event = rows at stepped ⊢
  cases stepped with
  | kept sameList sameRows =>
      exact iff_of_true (keeps.congr sameList sameRows) (by simp)
  | gone absent => exact iff_of_true (Or.inl absent) (by simp)
  | filled nonempty small first list =>
      rw [keepsRows_iff_plain
        (holdsReversed_of_filled nonempty small first list),
        ← List.prefix_iff_eq_take.mp first]

end

end CommentService

/--
In a run from an empty Redis the list of an article is always absent or made
of its first rows, between one and fifty of them, the last of them first, if
and only if no fill of the run reads a row of which a text holds a NUL.
-/
theorem commentCache_shape_iff
    (json : JsonLibrary) (database : Database) (clock : Nat → Text)
    (accepts : Nat → Bool) (events : List Event) (articleId : Int) :
    (∀ count, KeepsRows json articleId
        (runFrom json database clock accepts (events.take count))) ↔
      Along (step json)
        (fun world event =>
          ∀ row ∈ filledRows articleId world event, row.Plain)
        (.initial database clock accepts) events := by
  have start : KeepsRows json articleId
      (.initial database clock accepts) := Or.inl rfl
  refine (forall_take_iff (step json) (KeepsRows json articleId) _
    events).trans ((and_iff_right start).trans ?_)
  refine along_iff
    (fun world => CacheShape json world articleId ∧
      KeepsRows json articleId world) ?_ ?_
    ⟨Or.inl rfl, start⟩
    (along_of_forall_mem (step json) _ fun event _ => trivial)
  · rintro world event ⟨shape, keeps⟩ -
    exact keepsRows_step_iff shape keeps event
  · rintro world event ⟨shape, keeps⟩ - plain
    exact ⟨shape.step event,
      (keepsRows_step_iff shape keeps event).mpr plain⟩

/-- A comment with a NUL is posted, and then read. -/
def nulPosted : List Event :=
  [.request (.createComment 1 ['a', Char.ofNat 0, 'b'] ['x']),
    .request (.getComments 1 20)]

/-- It is in the list up to its NUL, and so is not the row. -/
theorem commentCache_cuts :
    ¬ KeepsRows Json.compactLibrary 1
      (runFrom Json.compactLibrary twoComments
        (fun _ => text "2026-06-02 12:00:00") (fun _ => true)
        nulPosted) := by
  have shape :=
    cacheShape_runFrom Json.compactLibrary twoComments
      (fun _ => text "2026-06-02 12:00:00") (fun _ => true)
      (nulPosted.take 1) 1
  have cut :=
    keepsRows_step_iff shape (Or.inl rfl)
      (.request (.getComments 1 20))
  exact cut.not.mpr (by decide)

end LightningServer.Service
