import LightningServer.Foundation.Json
import Mathlib.Data.Char
import Mathlib.Data.List.Lex
import Mathlib.Data.List.Sort

/-!
# Redis as the cache proxy uses it

The keyspace maps a key to a value and to whether the key has a time to live.
Each command is a function on the keyspace; its result is what the method of
`CacheProxy` with that name returns for the reply.  A command on a value of
another type is refused by the server and changes nothing.

Time itself is not modelled: a key that has a time to live can expire at any
moment, and no other key can.
-/

namespace LightningServer.Store

open LightningServer.Foundation
open LightningServer.Foundation.Numerals

/-! ## Values -/

/-- A sorted set: each member has one score. -/
structure SortedSet where
  /-- members with their scores -/
  entries : List (Text × Int)
  distinct : (entries.map Prod.fst).Nodup

namespace SortedSet

def empty : SortedSet where
  entries := []
  distinct := List.nodup_nil

/-- ZADD: a member that is there gets the new score. -/
def add (set : SortedSet) (score : Int) (member : Text) : SortedSet where
  entries :=
    (member, score) ::
      set.entries.filter fun entry => entry.1 ≠ member
  distinct := by
    rw [List.map_cons, List.nodup_cons]
    constructor
    · simp
    · exact set.distinct.sublist (List.filter_sublist.map Prod.fst)

/-- The order of ZREVRANGE: by score, then by member, both descending. -/
def Before (left right : Text × Int) : Prop :=
  right.2 < left.2 ∨ left.2 = right.2 ∧ ¬ left.1 < right.1

instance (left right : Text × Int) : Decidable (Before left right) :=
  inferInstanceAs (Decidable (_ ∨ _))

instance : Std.Total Before where
  total left right := by
    unfold Before
    rcases lt_trichotomy left.2 right.2 with less | equal | greater
    · exact Or.inr (Or.inl less)
    · by_cases first : left.1 < right.1
      · exact Or.inr (Or.inr ⟨equal.symm, lt_asymm first⟩)
      · exact Or.inl (Or.inr ⟨equal, first⟩)
    · exact Or.inl (Or.inl greater)

instance : IsTrans (Text × Int) Before where
  trans left middle right := by
    rintro (greater | ⟨equal, first⟩) (greater' | ⟨equal', first'⟩)
    · exact Or.inl (greater'.trans greater)
    · exact Or.inl (equal' ▸ greater)
    · exact Or.inl (equal.symm ▸ greater')
    · refine Or.inr ⟨equal.trans equal', ?_⟩
      exact not_lt.mpr ((not_lt.mp first').trans (not_lt.mp first))

/-- The members, highest score first. -/
def descending (set : SortedSet) : List Text :=
  (set.entries.insertionSort Before).map Prod.fst

theorem mem_descending_iff (set : SortedSet) (member : Text) :
    member ∈ set.descending ↔ member ∈ set.entries.map Prod.fst :=
  ((set.entries.perm_insertionSort Before).map Prod.fst).mem_iff

theorem nodup_descending (set : SortedSet) : set.descending.Nodup :=
  ((set.entries.perm_insertionSort Before).map Prod.fst).nodup_iff.mpr
    set.distinct

/-- The scores of the members do not increase. -/
theorem pairwise_descending
    {set : SortedSet} {value : Text → Int}
    (scores : ∀ entry ∈ set.entries, entry.2 = value entry.1) :
    set.descending.Pairwise fun left right => value right ≤ value left := by
  rw [descending, List.pairwise_map]
  have sorted :
      (set.entries.insertionSort Before).Pairwise Before :=
    List.pairwise_insertionSort Before set.entries
  refine sorted.imp_of_mem ?_
  intro left right leftMember rightMember before
  rw [List.mem_insertionSort] at leftMember rightMember
  rw [← scores left leftMember, ← scores right rightMember]
  rcases before with greater | ⟨equal, -⟩
  · exact Int.le_of_lt greater
  · exact Int.le_of_eq equal.symm

theorem mem_descending_add
    {set : SortedSet} {score : Int} {member other : Text}
    (found : other ∈ (set.add score member).descending) :
    other = member ∨ other ∈ set.descending := by
  rw [mem_descending_iff] at found ⊢
  simp only [add, List.map_cons, List.mem_cons] at found
  rcases found with rfl | kept
  · exact Or.inl rfl
  · exact Or.inr ((List.filter_sublist.map Prod.fst).subset kept)

end SortedSet

inductive RedisValue where
  | string (value : Text)
  | list (elements : List Text)
  | sortedSet (set : SortedSet)

structure RedisEntry where
  value : RedisValue
  /-- the key has a time to live -/
  volatile : Bool

structure Redis where
  entries : Text → Option RedisEntry

namespace Redis

def empty : Redis where
  entries := fun _ => none

def put (redis : Redis) (key : Text) (entry : Option RedisEntry) :
    Redis where
  entries := fun other =>
    if other = key then entry else redis.entries other

@[simp]
theorem entries_empty (key : Text) : empty.entries key = none :=
  rfl

@[simp]
theorem entries_put_self
    (redis : Redis) (key : Text) (entry : Option RedisEntry) :
    (redis.put key entry).entries key = entry :=
  if_pos rfl

theorem entries_put_of_ne
    (redis : Redis) {key other : Text} (entry : Option RedisEntry)
    (different : other ≠ key) :
    (redis.put key entry).entries other = redis.entries other :=
  if_neg different

/-- A range of LRANGE or ZREVRANGE; negative positions count from the end. -/
def slice {α : Type} (start stop : Int) (elements : List α) : List α :=
  let length : Int := elements.length
  let start := if start < 0 then start + length else start
  let stop := if stop < 0 then stop + length else stop
  let start := if start < 0 then 0 else start
  if stop < start ∨ length ≤ start then []
  else
    let stop := if length ≤ stop then length - 1 else stop
    (elements.drop start.toNat).take (stop - start + 1).toNat

/-- A range whose positions count from the front. -/
theorem slice_of_nonneg
    {α : Type} {start stop : Int} (nonneg : 0 ≤ start)
    (ordered : start ≤ stop) (elements : List α) :
    slice start stop elements =
      (elements.drop start.toNat).take (stop - start + 1).toNat := by
  have startFront : ¬ start < 0 := by omega
  have stopFront : ¬ stop < 0 := by omega
  simp only [slice, startFront, stopFront, if_false]
  split
  · next outside =>
      rw [List.drop_eq_nil_of_le (by omega), List.take_nil]
  · split
    · rw [List.take_of_length_le (by rw [List.length_drop]; omega),
        List.take_of_length_le (by rw [List.length_drop]; omega)]
    · rfl

/-- The first elements, as the services ask for them. -/
theorem slice_zero
    {α : Type} {limit : Int} (positive : 1 ≤ limit) (elements : List α) :
    slice 0 (limit - 1) elements = elements.take limit.toNat := by
  rw [slice_of_nonneg (Int.le_refl 0) (by omega), Int.toNat_zero,
    List.drop_zero, Int.sub_zero, Int.sub_add_cancel]

@[simp]
theorem slice_nil {α : Type} (start stop : Int) :
    slice start stop ([] : List α) = [] := by
  simp [slice]

/-- The whole list, as `0 -1` asks for it. -/
theorem slice_whole {α : Type} (elements : List α) :
    slice 0 (-1) elements = elements := by
  cases elements with
  | nil => simp [slice]
  | cons element rest => simp [slice]

/-! ## Commands -/

/-- GET -/
def get (redis : Redis) (key : Text) : Option Text :=
  match redis.entries key with
  | some ⟨.string value, _⟩ => some value
  | _ => none

/-- SETEX, or SET without a time to live -/
def set (redis : Redis) (key value : Text) (ttlSec : Int) :
    Bool × Redis :=
  (true, redis.put key (some ⟨.string value, 0 < ttlSec⟩))

/-- DEL -/
def del (redis : Redis) (key : Text) : Bool × Redis :=
  ((redis.entries key).isSome, redis.put key none)

/-- INCR: an error reply has no integer, and the proxy returns 0. -/
def incr (redis : Redis) (key : Text) : Int × Redis :=
  match redis.entries key with
  | none => (1, redis.put key (some ⟨.string (decimal 1), false⟩))
  | some ⟨.string value, volatile⟩ =>
      match strictInteger value with
      | none => (0, redis)
      | some number =>
          if number + 1 < 2 ^ 63 then
            (number + 1,
              redis.put key
                (some ⟨.string (decimal (number + 1)), volatile⟩))
          else (0, redis)
  | _ => (0, redis)

/-- ZADD -/
def zadd (redis : Redis) (key : Text) (score : Int) (member : Text) :
    Bool × Redis :=
  match redis.entries key with
  | none =>
      (true,
        redis.put key
          (some ⟨.sortedSet (SortedSet.empty.add score member), false⟩))
  | some ⟨.sortedSet set, volatile⟩ =>
      (true,
        redis.put key (some ⟨.sortedSet (set.add score member), volatile⟩))
  | _ => (true, redis)

/-- ZREVRANGE -/
def zrevrange (redis : Redis) (key : Text) (start stop : Int) :
    List Text :=
  match redis.entries key with
  | some ⟨.sortedSet set, _⟩ => slice start stop set.descending
  | _ => []

/-- LPUSH -/
def lpush (redis : Redis) (key value : Text) : Bool × Redis :=
  match redis.entries key with
  | none => (true, redis.put key (some ⟨.list [value], false⟩))
  | some ⟨.list elements, volatile⟩ =>
      (true, redis.put key (some ⟨.list (value :: elements), volatile⟩))
  | _ => (true, redis)

/-- LRANGE -/
def lrange (redis : Redis) (key : Text) (start stop : Int) : List Text :=
  match redis.entries key with
  | some ⟨.list elements, _⟩ => slice start stop elements
  | _ => []

/-- EXPIRE: a time that is not positive deletes the key. -/
def expire (redis : Redis) (key : Text) (ttlSec : Int) : Bool × Redis :=
  match redis.entries key with
  | none => (false, redis)
  | some entry =>
      if 0 < ttlSec then
        (true, redis.put key (some { entry with volatile := true }))
      else (true, redis.put key none)

/-- The time to live of a key runs out, if it has one. -/
def timeOut (redis : Redis) (key : Text) : Redis :=
  match redis.entries key with
  | some ⟨_, true⟩ => redis.put key none
  | _ => redis

/-! ## Keys that a command leaves alone -/

section Frame

variable (redis : Redis) {key other : Text}

theorem entries_set_of_ne
    (value : Text) (ttlSec : Int) (different : other ≠ key) :
    (redis.set key value ttlSec).2.entries other = redis.entries other :=
  entries_put_of_ne redis _ different

theorem entries_del_of_ne (different : other ≠ key) :
    (redis.del key).2.entries other = redis.entries other :=
  entries_put_of_ne redis _ different

theorem entries_incr_of_ne (different : other ≠ key) :
    (redis.incr key).2.entries other = redis.entries other := by
  unfold incr
  split
  · exact entries_put_of_ne redis _ different
  · split
    · rfl
    · split
      · exact entries_put_of_ne redis _ different
      · rfl
  · rfl

theorem entries_zadd_of_ne
    (score : Int) (member : Text) (different : other ≠ key) :
    (redis.zadd key score member).2.entries other =
      redis.entries other := by
  unfold zadd
  split
  · exact entries_put_of_ne redis _ different
  · exact entries_put_of_ne redis _ different
  · rfl

theorem entries_lpush_of_ne (value : Text) (different : other ≠ key) :
    (redis.lpush key value).2.entries other = redis.entries other := by
  unfold lpush
  split
  · exact entries_put_of_ne redis _ different
  · exact entries_put_of_ne redis _ different
  · rfl

theorem entries_expire_of_ne (ttlSec : Int) (different : other ≠ key) :
    (redis.expire key ttlSec).2.entries other = redis.entries other := by
  unfold expire
  split
  · rfl
  · split
    · exact entries_put_of_ne redis _ different
    · exact entries_put_of_ne redis _ different

/-- What a timeout does to any key. -/
theorem entries_timeOut (key other : Text) :
    (redis.timeOut key).entries other = redis.entries other ∨
      (redis.timeOut key).entries other = none ∧
        ∃ entry, redis.entries other = some entry ∧
          entry.volatile = true := by
  unfold timeOut
  split
  · next value found =>
      by_cases same : other = key
      · subst same
        exact Or.inr ⟨entries_put_self redis other none, _, found, rfl⟩
      · exact Or.inl (entries_put_of_ne redis none same)
  · exact Or.inl rfl

end Frame

/-! ## Commands that write a key -/

section Present

variable (redis : Redis) (key : Text)

/-- The proxy asks only whether there is a reply. -/
theorem lpush_fst (value : Text) : (redis.lpush key value).1 = true := by
  unfold lpush
  split
  · rfl
  · rfl
  · rfl

theorem zadd_fst (score : Int) (member : Text) :
    (redis.zadd key score member).1 = true := by
  unfold zadd
  split
  · rfl
  · rfl
  · rfl

theorem isSome_entries_incr :
    ((redis.incr key).2.entries key).isSome = true := by
  unfold incr
  split
  · simp
  · next found =>
      split
      · simp [found]
      · split
        · simp
        · simp [found]
  · next found absent _ =>
      rw [Option.isSome_iff_ne_none]
      exact absent

theorem isSome_entries_lpush (value : Text) :
    ((redis.lpush key value).2.entries key).isSome = true := by
  unfold lpush
  split
  · simp
  · simp
  · next absent _ =>
      rw [Option.isSome_iff_ne_none]
      exact absent

theorem isSome_entries_zadd (score : Int) (member : Text) :
    ((redis.zadd key score member).2.entries key).isSome = true := by
  unfold zadd
  split
  · simp
  · simp
  · next absent _ =>
      rw [Option.isSome_iff_ne_none]
      exact absent

end Present

end Redis

end LightningServer.Store
