import LightningServer.Service.ViewSync

/-!
# What else a sync changes

`setViewCount` sets one column, and the table sets another one by itself:
`update_time` is declared `ON UPDATE CURRENT_TIMESTAMP`, so it becomes the
time of the last write that changes the count of its row.  Here Redis holds
whatever it holds: members and counters that `stoi` refuses or that name one
article twice.
-/

namespace LightningServer.Service

open LightningServer.Foundation
open LightningServer.Foundation.Numerals
open LightningServer.Store
open LightningServer.Service.ArticleService

/-! ## The writes of a sync -/

/-- A write: an article, and the count it gets. -/
abbrev ViewWrite :=
  Int × Int

/-- The writes of the loop, up to the first text that `stoi` refuses. -/
def syncWrites (redis : Redis) : List Text → List ViewWrite
  | [] => []
  | idStr :: rest =>
      match redis.get (articleViewKey idStr) with
      | none => syncWrites redis rest
      | some viewStr =>
          match stoi idStr, stoi viewStr with
          | .ok id, .ok count => (id, count) :: syncWrites redis rest
          | _, _ => []

/-- A row after these writes, the first of them at this tick. -/
def afterWrites (clock : Nat → Text) :
    Nat → List ViewWrite → Article → Article
  | _, [], article => article
  | tick, (id, count) :: rest, article =>
      afterWrites clock (tick + 1) rest
        (Database.withViewCount id count (clock tick) article)

/-- The tick of the last write that changes the count of an article. -/
def lastChange (id : Int) : Int → Nat → List ViewWrite → Option Nat
  | _, _, [] => none
  | stored, tick, (target, count) :: rest =>
      if id = target ∧ stored ≠ count then
        (lastChange id count (tick + 1) rest).or (some tick)
      else lastChange id stored (tick + 1) rest

/-- A write is of a listed article, and gives it its counter. -/
theorem exists_member_of_write
    {redis : Redis} {hotIds : List Text} {write : ViewWrite}
    (written : write ∈ syncWrites redis hotIds) :
    ∃ idStr ∈ hotIds, ∃ viewStr,
      stoi idStr = .ok write.1 ∧
        redis.get (articleViewKey idStr) = some viewStr ∧
        stoi viewStr = .ok write.2 := by
  induction hotIds with
  | nil => cases written
  | cons idStr rest induction =>
      have later (member : write ∈ syncWrites redis rest) :
          ∃ other ∈ idStr :: rest, ∃ viewStr,
            stoi other = .ok write.1 ∧
              redis.get (articleViewKey other) = some viewStr ∧
              stoi viewStr = .ok write.2 := by
        rcases induction member with ⟨other, inRest, read⟩
        exact ⟨other, List.mem_cons_of_mem _ inRest, read⟩
      rw [syncWrites] at written
      split at written
      · exact later written
      · rename_i viewStr found
        split at written
        · rename_i read counted
          rcases List.mem_cons.mp written with rfl | member
          · exact ⟨idStr, List.mem_cons_self, viewStr, read, found,
              counted⟩
          · exact later member
        · cases written

/-- The loop makes these writes, one tick after the other. -/
theorem storedArticles_syncLoop (hotIds : List Text) (world : World) :
    ((syncLoop hotIds).run exec world).2.database.storedArticles =
      world.database.storedArticles.map
        (afterWrites world.clock world.ticks
          (syncWrites world.redis hotIds)) := by
  induction hotIds generalizing world with
  | nil =>
      show world.database.storedArticles = _
      rw [syncWrites]
      exact (List.map_id _).symm
  | cons idStr rest induction =>
      rw [syncWrites]
      simp only [syncLoop, Program.perform_bind, Program.run_call, exec]
      cases world.redis.get (articleViewKey idStr) with
      | none => exact induction world
      | some viewStr =>
          cases read : stoi idStr with
          | error exception => exact (List.map_id _).symm
          | ok id =>
              cases counted : stoi viewStr with
              | error exception =>
                  simp only [counted, Program.ofExcept_ok,
                    Program.ofExcept_error, Program.ret_bind,
                    Program.throw_bind, Program.run_throw]
                  exact (List.map_id _).symm
              | ok count =>
                  have fits : IsInt count := isInt_of_stoi counted
                  simp only [Program.ofExcept_ok, Program.ret_bind,
                    Program.run_call, exec, counted]
                  rw [induction]
                  simp only [World.onDatabase, Database.setViewCount,
                    dif_pos fits, List.map_map]
                  rfl

theorem storedArticles_syncViewCounts (world : World) :
    (syncViewCounts.run exec world).2.database.storedArticles =
      world.database.storedArticles.map
        (afterWrites world.clock world.ticks
          (syncWrites world.redis (world.redis.zrevrange hotKey 0 99))) :=
  storedArticles_syncLoop _ world

/-! ## One row -/

section Row

variable {clock : Nat → Text} {tick : Nat} {writes : List ViewWrite}
variable {article : Article}

@[simp]
theorem id_afterWrites :
    (afterWrites clock tick writes article).id = article.id := by
  induction writes generalizing tick article with
  | nil => rfl
  | cons write rest induction =>
      rw [afterWrites, induction, Database.withViewCount_id]

theorem fixed_afterWrites :
    (afterWrites clock tick writes article).fixed = article.fixed := by
  induction writes generalizing tick article with
  | nil => rfl
  | cons write rest induction =>
      rw [afterWrites, induction, Database.fixed_withViewCount]

theorem updateTime_afterWrites :
    (afterWrites clock tick writes article).updateTime =
      ((lastChange article.id article.viewCount tick writes).map
        clock).getD article.updateTime := by
  induction writes generalizing tick article with
  | nil => rfl
  | cons write rest induction =>
      rcases write with ⟨target, count⟩
      rw [afterWrites, lastChange, induction, Database.withViewCount_id,
        Database.withViewCount]
      by_cases changes : article.id = target ∧ article.viewCount ≠ count
      · rw [if_pos changes, if_pos changes]
        cases lastChange article.id count (tick + 1) rest with
        | none => rfl
        | some later => rfl
      · rw [if_neg changes, if_neg changes]

/-- Writes of the count that the row has already change nothing. -/
theorem lastChange_eq_none
    {id stored : Int}
    (agree : ∀ write ∈ writes, write.1 = id → write.2 = stored) :
    lastChange id stored tick writes = none := by
  induction writes generalizing tick with
  | nil => rfl
  | cons write rest induction =>
      rw [List.forall_mem_cons] at agree
      have same : ¬ (id = write.1 ∧ stored ≠ write.2) := by
        rintro ⟨isId, changes⟩
        exact changes (agree.1 isId.symm).symm
      rw [lastChange, if_neg same]
      exact induction agree.2

/-- Writes of other articles leave the row as it is. -/
theorem afterWrites_of_ne
    (others : ∀ write ∈ writes, write.1 ≠ article.id) :
    afterWrites clock tick writes article = article := by
  induction writes generalizing tick with
  | nil => rfl
  | cons write rest induction =>
      rw [List.forall_mem_cons] at others
      have same :
          Database.withViewCount write.1 write.2 (clock tick) article =
            article :=
        if_neg fun changes => others.1 changes.1.symm
      rw [afterWrites, same]
      exact induction others.2

end Row

/-! ## The frame -/

/-- All columns but `view_count`. -/
def withoutViews (article : Article) : Article :=
  { article with viewCount := 0 }

theorem withoutViews_eq_iff
    {first second : Article} (same : first.fixed = second.fixed) :
    withoutViews first = withoutViews second ↔
      first.updateTime = second.updateTime := by
  rcases first with ⟨id, title, content, author, created, updated, views⟩
  rcases second with
    ⟨id', title', content', author', created', updated', views'⟩
  simp only [Article.fixed, Article.mk.injEq] at same
  rcases same with ⟨rfl, rfl, rfl, rfl, rfl, -, -⟩
  simp [withoutViews]

/-- No member of the ranking that a sync looks at names the article. -/
def Unlisted (redis : Redis) (id : Int) : Prop :=
  ∀ idStr ∈ redis.zrevrange hotKey 0 99, stoi idStr ≠ .ok id

/--
Every article has the columns it had, its view count apart, and one that is
not listed has that, too.
-/
structure TouchesNothingElse (before after : World) : Prop where
  columns :
    ∀ id, (after.database.storedArticle id).map withoutViews =
      (before.database.storedArticle id).map withoutViews
  outside :
    ∀ id, Unlisted before.redis id →
      after.database.storedArticle id = before.database.storedArticle id

/--
The last write that changes the count of a row, if there is one, happens at
the time that its `update_time` has already.
-/
def ChangesOnTime (world : World) : Prop :=
  ∀ article ∈ world.database.storedArticles,
    ∀ tick ∈ lastChange article.id article.viewCount world.ticks
        (syncWrites world.redis (world.redis.zrevrange hotKey 0 99)),
      world.clock tick = article.updateTime

/-- No counter that a sync looks at differs from the count of its row. -/
def CountersWritten (world : World) : Prop :=
  ∀ idStr ∈ world.redis.zrevrange hotKey 0 99,
    ∀ article ∈ world.database.storedArticles,
      stoi idStr = .ok article.id →
        ∀ viewStr ∈ world.redis.get (articleViewKey idStr),
          stoi viewStr = .ok article.viewCount

theorem CountersWritten.changesOnTime
    {world : World} (written : CountersWritten world) :
    ChangesOnTime world := by
  intro article inTable tick changed
  have nothing :
      lastChange article.id article.viewCount world.ticks
          (syncWrites world.redis (world.redis.zrevrange hotKey 0 99)) =
        none := by
    apply lastChange_eq_none
    intro write isWrite isId
    rcases exists_member_of_write isWrite with
      ⟨idStr, listed, viewStr, read, found, counted⟩
    have same :=
      written idStr listed article inTable (isId ▸ read) viewStr found
    exact Except.ok.inj (counted.symm.trans same)
  rw [nothing] at changed
  cases changed

theorem storedArticle_syncViewCounts (world : World) (id : Int) :
    (syncViewCounts.run exec world).2.database.storedArticle id =
      (world.database.storedArticle id).map
        (afterWrites world.clock world.ticks
          (syncWrites world.redis
            (world.redis.zrevrange hotKey 0 99))) := by
  rw [Database.storedArticle, storedArticles_syncViewCounts,
    List.find?_map]
  congr 2
  ext article : 1
  exact congrArg (fun other => decide (other = id)) id_afterWrites

theorem touchesNothingElse_of_changesOnTime
    {world : World} (onTime : ChangesOnTime world) :
    TouchesNothingElse world (syncViewCounts.run exec world).2 := by
  constructor
  · intro id
    rw [storedArticle_syncViewCounts]
    cases found : world.database.storedArticle id with
    | none => rfl
    | some article =>
        have inTable := (Database.storedArticle_eq_some found).1
        refine congrArg some
          ((withoutViews_eq_iff fixed_afterWrites).mpr ?_)
        rw [updateTime_afterWrites]
        cases changed :
            lastChange article.id article.viewCount world.ticks
              (syncWrites world.redis
                (world.redis.zrevrange hotKey 0 99)) with
        | none => rfl
        | some tick => exact onTime article inTable tick changed
  · intro id unlisted
    rw [storedArticle_syncViewCounts]
    cases found : world.database.storedArticle id with
    | none => rfl
    | some article =>
        have sameId := (Database.storedArticle_eq_some found).2
        refine congrArg some (afterWrites_of_ne ?_)
        intro write written isId
        rcases exists_member_of_write written with
          ⟨idStr, listed, viewStr, read, -⟩
        exact unlisted idStr listed (by rw [read, isId, sameId])

/-- So a sync that has nothing to write touches nothing else. -/
theorem CountersWritten.touchesNothingElse
    {world : World} (written : CountersWritten world) :
    TouchesNothingElse world (syncViewCounts.run exec world).2 :=
  touchesNothingElse_of_changesOnTime written.changesOnTime

/-- A sync touches only view counts exactly when its changes are on time. -/
theorem sync_touches_nothing_else_iff (world : World) :
    TouchesNothingElse world (syncViewCounts.run exec world).2 ↔
      ChangesOnTime world := by
  constructor
  · intro nothing article inTable tick changed
    have same := nothing.columns article.id
    rw [storedArticle_syncViewCounts,
      Database.storedArticle_of_mem inTable] at same
    have kept :=
      (withoutViews_eq_iff fixed_afterWrites).mp (Option.some_inj.mp same)
    rw [updateTime_afterWrites, Option.mem_def.mp changed] at kept
    exact kept
  · exact touchesNothingElse_of_changesOnTime

/-- The time at which the server runs, whenever it looks. -/
def datedWorld : World :=
  { visitedWorld with clock := fun _ => text "2026-06-01 10:00:00" }

/-- A visited article that started with views gets an update time. -/
theorem sync_touches_update_time :
    ¬ TouchesNothingElse datedWorld (syncViewCounts.run exec datedWorld).2 := by
  have before :
      (datedWorld.database.storedArticle 1).map Article.updateTime =
        some [] := by
    decide +kernel
  have after :
      ((syncViewCounts.run exec datedWorld).2.database.storedArticle
          1).map Article.updateTime =
        some (text "2026-06-01 10:00:00") := by
    decide +kernel
  intro nothing
  have same := congrArg (Option.map Article.updateTime) (nothing.columns 1)
  have kept : Article.updateTime ∘ withoutViews = Article.updateTime := rfl
  rw [Option.map_map, Option.map_map, kept, before, after] at same
  exact absurd same (by decide)

end LightningServer.Service
