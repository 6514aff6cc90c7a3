import LightningServer.Foundation.Transition
import LightningServer.Store.Mock
import Mathlib.Data.List.Dedup

/-!
# Where the mock cache answers as Redis does

The same calls go to the mock cache and to Redis, each key with one kind of
value.  What Redis would hold under a key is read off the calls so far: those
that wrote the key after its last deletion, and how often its counter was
incremented.  `Fine` says on these calls alone when the next reply is the same
on both sides; SET, LPUSH and ZADD always are.

The proxy hands its strings to the Redis client as C strings, so a NUL ends
them there and nowhere else.
-/

namespace LightningServer.Store

open LightningServer.Foundation
open LightningServer.Foundation.Numerals
open LightningServer.Foundation.Transition

/-! ## Calls on both sides -/

inductive Kind where
  | string
  | list
  | sortedSet
deriving DecidableEq

/-- SET is without a time to live. -/
inductive CacheCall where
  | get (key : Text)
  | set (key value : Text)
  | del (key : Text)
  | incr (key : Text)
  | lpush (key value : Text)
  | lrange (key : Text) (start stop : Int)
  /-- the score as the server reads the text of `%f`, which is no number for
  a NaN -/
  | zadd (key : Text) (score : Option Int) (member : Text)
  | zrevrange (key : Text) (start stop : Int)
deriving DecidableEq

inductive CacheReply where
  | found (value : Option Text)
  | done (ok : Bool)
  | number (value : Int)
  | values (values : List Text)
deriving DecidableEq

namespace CacheCall

def key : CacheCall → Text
  | .get key => key
  | .set key _ => key
  | .del key => key
  | .incr key => key
  | .lpush key _ => key
  | .lrange key _ _ => key
  | .zadd key _ _ => key
  | .zrevrange key _ _ => key

def onMock : CacheCall → MockCache → CacheReply × MockCache
  | .get key, cache => (.found (cache.get key), cache)
  | .set key value, cache =>
      (.done (cache.set key value).1, (cache.set key value).2)
  | .del key, cache => (.done (cache.del key).1, (cache.del key).2)
  | .incr key, cache => (.number (cache.incr key).1, (cache.incr key).2)
  | .lpush key value, cache =>
      (.done (cache.lpush key value).1, (cache.lpush key value).2)
  | .lrange key _ _, cache => (.values (cache.lrange key), cache)
  | .zadd _ _ _, cache => (.done cache.zadd.1, cache.zadd.2)
  | .zrevrange _ _ _, cache => (.values MockCache.zrevrange, cache)

/-- The command that the call sends, and what the proxy makes of its reply. -/
def onRedis : CacheCall → Redis → CacheReply × Redis
  | .get key, redis => (.found (redis.get (cString key)), redis)
  | .set key value, redis =>
      let result := redis.set (cString key) (cString value) (-1)
      (.done result.1, result.2)
  | .del key, redis =>
      (.done (redis.del (cString key)).1, (redis.del (cString key)).2)
  | .incr key, redis =>
      (.number (redis.incr (cString key)).1, (redis.incr (cString key)).2)
  | .lpush key value, redis =>
      let result := redis.lpush (cString key) (cString value)
      (.done result.1, result.2)
  | .lrange key start stop, redis =>
      (.values (redis.lrange (cString key) start stop), redis)
  | .zadd key (some score) member, redis =>
      let result := redis.zadd (cString key) score (cString member)
      (.done result.1, result.2)
  -- an error is a reply as well
  | .zadd _ none _, redis => (.done true, redis)
  | .zrevrange key start stop, redis =>
      (.values (redis.zrevrange (cString key) start stop), redis)

/-- The strings of a call reach the server whole. -/
def Plain : CacheCall → Prop
  | .set key value => NulFree key ∧ NulFree value
  | .lpush key value => NulFree key ∧ NulFree value
  | .zadd key _ member => NulFree key ∧ NulFree member
  | call => NulFree call.key

/-- The call is one for keys of this kind, with a range from the front. -/
def UsedAs (kinds : Text → Kind) : CacheCall → Prop
  | .get key => kinds key = .string
  | .set key _ => kinds key = .string
  | .del _ => True
  | .incr key => kinds key = .string
  | .lpush key _ => kinds key = .list
  | .lrange key start stop => kinds key = .list ∧ 0 ≤ start ∧ start ≤ stop
  | .zadd key _ _ => kinds key = .sortedSet
  | .zrevrange key start stop =>
      kinds key = .sortedSet ∧ 0 ≤ start ∧ start ≤ stop

instance decidablePlain : (call : CacheCall) → Decidable call.Plain
  | .set _ _ => inferInstanceAs (Decidable (_ ∧ _))
  | .lpush _ _ => inferInstanceAs (Decidable (_ ∧ _))
  | .zadd _ _ _ => inferInstanceAs (Decidable (_ ∧ _))
  | .get key => inferInstanceAs (Decidable (NulFree key))
  | .del key => inferInstanceAs (Decidable (NulFree key))
  | .incr key => inferInstanceAs (Decidable (NulFree key))
  | .lrange key _ _ => inferInstanceAs (Decidable (NulFree key))
  | .zrevrange key _ _ => inferInstanceAs (Decidable (NulFree key))

instance decidableUsedAs (kinds : Text → Kind) :
    (call : CacheCall) → Decidable (call.UsedAs kinds)
  | .get _ => inferInstanceAs (Decidable (_ = _))
  | .set _ _ => inferInstanceAs (Decidable (_ = _))
  | .del _ => .isTrue trivial
  | .incr _ => inferInstanceAs (Decidable (_ = _))
  | .lpush _ _ => inferInstanceAs (Decidable (_ = _))
  | .lrange _ _ _ => inferInstanceAs (Decidable (_ ∧ _))
  | .zadd _ _ _ => inferInstanceAs (Decidable (_ = _))
  | .zrevrange _ _ _ => inferInstanceAs (Decidable (_ ∧ _))

theorem Plain.key {call : CacheCall} (plain : call.Plain) :
    NulFree call.key := by
  cases call with
  | set key value => exact plain.1
  | lpush key value => exact plain.1
  | zadd key score member => exact plain.1
  | _ => exact plain

end CacheCall

/-! ## The calls so far -/

/-- A call that puts something under its key, on the side of Redis. -/
def isWrite : CacheCall → Bool
  | .set _ _ => true
  | .incr _ => true
  | .lpush _ _ => true
  | .zadd _ (some _) _ => true
  | _ => false

/-- A call that puts something into `mockStore`. -/
def isStored : CacheCall → Bool
  | .set _ _ => true
  | .lpush _ _ => true
  | _ => false

/-- The writes of a key since its deletion, with one more call. -/
def noteCall (key : Text) (call : CacheCall) (writes : List CacheCall) :
    List CacheCall :=
  if call.key ≠ key then writes
  else if call = .del key then []
  else if isWrite call then call :: writes
  else writes

/-- The writes of a key since its last deletion, the newest first. -/
def writes (key : Text) (past : List CacheCall) : List CacheCall :=
  past.foldr (noteCall key) []

/-- How often a counter has been incremented, whatever came in between. -/
def increments (key : Text) (past : List CacheCall) : Nat :=
  past.count (.incr key)

/-- The elements of a list, the newest first. -/
def elements (key : Text) (past : List CacheCall) : List Text :=
  (writes key past).filterMap fun call =>
    match call with
    | .lpush _ value => some value
    | _ => none

/-- The members of a sorted set, with repetitions. -/
def members (key : Text) (past : List CacheCall) : List Text :=
  (writes key past).filterMap fun call =>
    match call with
    | .zadd _ _ member => some member
    | _ => none

/-! ## When the next replies are the same -/

/-- The counter is at the number under its key. -/
def Counts (key : Text) (past : List CacheCall) : Prop :=
  increments key past + 1 < 2 ^ 63 ∧
    match (writes key past).head? with
    | none => increments key past = 0
    | some (.set _ value) =>
        strictInteger value = some (increments key past : Int)
    | _ => True

/-- The range picks one element, and the other elements are empty. -/
def PicksSole (start stop : Int) (elements : List Text) : Prop :=
  ∃ before value after,
    elements = before ++ value :: after ∧ (before.length : Int) = start ∧
      (stop = start ∨ after = []) ∧ ∀ other ∈ before ++ after, other = []

def Fine (past : List CacheCall) : CacheCall → Prop
  | .get key => (writes key past).head? ≠ some (.incr key)
  | .set _ _ => True
  | .del key =>
      writes key past = [] ∨
        ∃ call ∈ writes key past, isStored call = true
  | .incr key => Counts key past
  | .lpush _ _ => True
  | .lrange key start stop =>
      elements key past = [] ∨ PicksSole start stop (elements key past)
  | .zadd _ _ _ => True
  | .zrevrange key start _ =>
      ((members key past).dedup.length : Int) ≤ start

/-! ## Both sides after the same calls -/

structure BothCaches where
  mock : MockCache
  redis : Redis
  /-- the calls so far, the newest first -/
  past : List CacheCall

namespace BothCaches

def start : BothCaches :=
  { mock := .empty, redis := .empty, past := [] }

def step (both : BothCaches) (call : CacheCall) : BothCaches :=
  { mock := (call.onMock both.mock).2
    redis := (call.onRedis both.redis).2
    past := call :: both.past }

/-- The call returns the same value on both sides. -/
def Agrees (both : BothCaches) (call : CacheCall) : Prop :=
  (call.onMock both.mock).1 = (call.onRedis both.redis).1

instance (both : BothCaches) (call : CacheCall) :
    Decidable (both.Agrees call) :=
  inferInstanceAs (Decidable (_ = _))

theorem writes_step (both : BothCaches) (call : CacheCall) (key : Text) :
    writes key (both.step call).past =
      noteCall key call (writes key both.past) :=
  rfl

theorem writes_step_of_isWrite
    (both : BothCaches) {call : CacheCall} (write : isWrite call = true) :
    writes call.key (both.step call).past =
      call :: writes call.key both.past := by
  have kept : call ≠ .del call.key := by
    intro equal
    rw [equal] at write
    cases write
  rw [writes_step, noteCall, if_neg (not_not.mpr rfl), if_neg kept,
    if_pos write]

/-! ## Keys that a call does not name -/

section Frame

variable (both : BothCaches) {call : CacheCall} {key : Text}

theorem writes_step_of_ne (different : call.key ≠ key) :
    writes key (both.step call).past = writes key both.past := by
  rw [writes_step, noteCall, if_pos different]

theorem increments_step_of_ne (different : call.key ≠ key) :
    increments key (both.step call).past = increments key both.past := by
  refine List.count_cons_of_ne ?_
  rintro rfl
  exact different rfl

theorem store_step_of_ne (different : call.key ≠ key) :
    (both.step call).mock.store key = both.mock.store key := by
  have other := Ne.symm different
  cases call with
  | set key value => exact MockCache.store_put_of_ne _ _ other
  | del key => exact MockCache.store_put_of_ne _ _ other
  | lpush key value => exact MockCache.store_put_of_ne _ _ other
  | _ => rfl

theorem entries_step_of_ne
    (plain : call.Plain) (different : call.key ≠ key) :
    (both.step call).redis.entries key = both.redis.entries key := by
  have other : key ≠ cString call.key := by
    rw [cString_of_nulFree plain.key]
    exact Ne.symm different
  cases call with
  | set key value => exact both.redis.entries_set_of_ne _ _ other
  | del key => exact both.redis.entries_del_of_ne other
  | incr key => exact both.redis.entries_incr_of_ne other
  | lpush key value => exact both.redis.entries_lpush_of_ne _ other
  | zadd key score member =>
      cases score with
      | none => rfl
      | some score => exact both.redis.entries_zadd_of_ne _ _ other
  | _ => rfl

end Frame

/-! ## What both sides hold -/

/-- Under a key for strings and counters. -/
def StringContent (key : Text) (count : Nat) (store : Option Text)
    (entry : Option RedisEntry) (writes : List CacheCall) : Prop :=
  store = none ∧ entry = none ∧ writes = [] ∨
    (∃ value rest,
      store = some value ∧ entry = some ⟨.string value, false⟩ ∧
        writes = .set key value :: rest) ∨
    ∃ rest,
      entry = some ⟨.string (decimal count), false⟩ ∧
        writes = .incr key :: rest ∧ count < 2 ^ 63 ∧
        -- the string in `mockStore` stayed behind
        ∀ value, store = some value →
          ∃ number, strictInteger value = some number ∧ number < count

def ListContent (store : Option Text) (entry : Option RedisEntry)
    (elements : List Text) : Prop :=
  elements = [] ∧ store = none ∧ entry = none ∨
    elements ≠ [] ∧ store = some elements.flatten ∧
      entry = some ⟨.list elements, false⟩

def SetContent (entry : Option RedisEntry) (members : List Text) : Prop :=
  members = [] ∧ entry = none ∨
    ∃ set, entry = some ⟨.sortedSet set, false⟩ ∧
      ∀ member, member ∈ set.entries.map Prod.fst ↔ member ∈ members

def Content (both : BothCaches) (key : Text) : Kind → Prop
  | .string =>
      StringContent key (increments key both.past) (both.mock.store key)
        (both.redis.entries key) (writes key both.past)
  | .list =>
      ListContent (both.mock.store key) (both.redis.entries key)
        (elements key both.past)
  | .sortedSet =>
      SetContent (both.redis.entries key) (members key both.past)

/-- Both sides hold what the calls so far have left there. -/
structure Holds (kinds : Text → Kind) (both : BothCaches) : Prop where
  counter :
    ∀ key, both.mock.counters key = (increments key both.past : Int)
  stored :
    ∀ key, (both.mock.store key).isSome =
      (writes key both.past).any isStored
  present :
    ∀ key, (both.redis.entries key).isSome =
      !(writes key both.past).isEmpty
  content : ∀ key, both.Content key (kinds key)

theorem holds_start (kinds : Text → Kind) : start.Holds kinds where
  counter := fun _ => rfl
  stored := fun _ => rfl
  present := fun _ => rfl
  content := by
    intro key
    cases kinds key with
    | string => exact Or.inl ⟨rfl, rfl, rfl⟩
    | list => exact Or.inl ⟨rfl, rfl, rfl⟩
    | sortedSet => exact Or.inl ⟨rfl, rfl⟩

/-! ## Counters, and what is there at all -/

theorem counters_step (both : BothCaches) (call : CacheCall) (key : Text) :
    (both.step call).mock.counters key =
      if call = .incr key then both.mock.counters key + 1
      else both.mock.counters key := by
  cases call with
  | incr other =>
      by_cases same : key = other
      · subst same
        simp [step, CacheCall.onMock, MockCache.incr]
      · simp [step, CacheCall.onMock, MockCache.incr, same, Ne.symm same]
  | _ => rfl

theorem increments_step (both : BothCaches) (call : CacheCall) (key : Text) :
    increments key (both.step call).past =
      if call = .incr key then increments key both.past + 1
      else increments key both.past := by
  simp only [increments, step, List.count_cons, beq_iff_eq]
  split
  · rfl
  · rfl

theorem stored_step_self
    {both : BothCaches} {call : CacheCall}
    (stored :
      (both.mock.store call.key).isSome =
        (writes call.key both.past).any isStored) :
    ((both.step call).mock.store call.key).isSome =
      (writes call.key (both.step call).past).any isStored := by
  rw [writes_step]
  cases call with
  | set key value =>
      simp [step, CacheCall.onMock, MockCache.set, noteCall,
        CacheCall.key, isWrite, isStored]
  | del key =>
      simp [step, CacheCall.onMock, MockCache.del, noteCall, CacheCall.key]
  | lpush key value =>
      simp [step, CacheCall.onMock, MockCache.lpush, noteCall,
        CacheCall.key, isWrite, isStored]
  | zadd key score member =>
      cases score with
      | none =>
          simpa [step, CacheCall.onMock, MockCache.zadd, noteCall,
            CacheCall.key, isWrite] using stored
      | some score =>
          simpa [step, CacheCall.onMock, MockCache.zadd, noteCall,
            CacheCall.key, isWrite, isStored] using stored
  | _ =>
      simpa [step, CacheCall.onMock, MockCache.incr, noteCall,
        CacheCall.key, isWrite, isStored] using stored

theorem present_step_self
    {both : BothCaches} {call : CacheCall} (plain : call.Plain)
    (present :
      (both.redis.entries call.key).isSome =
        !(writes call.key both.past).isEmpty) :
    ((both.step call).redis.entries call.key).isSome =
      !(writes call.key (both.step call).past).isEmpty := by
  have whole := cString_of_nulFree plain.key
  rw [writes_step]
  cases call with
  | set key value =>
      simp only [CacheCall.key] at whole
      simp [step, CacheCall.onRedis, whole, Redis.set, noteCall,
        CacheCall.key, isWrite]
  | del key =>
      simp only [CacheCall.key] at whole
      simp [step, CacheCall.onRedis, whole, Redis.del, noteCall,
        CacheCall.key]
  | incr key =>
      simp only [CacheCall.key] at whole
      simpa [step, CacheCall.onRedis, whole, noteCall, CacheCall.key,
        isWrite] using both.redis.isSome_entries_incr key
  | lpush key value =>
      simp only [CacheCall.key] at whole
      simpa [step, CacheCall.onRedis, whole, noteCall, CacheCall.key,
        isWrite] using both.redis.isSome_entries_lpush key _
  | zadd key score member =>
      simp only [CacheCall.key] at whole
      cases score with
      | none =>
          simpa [step, CacheCall.onRedis, noteCall, CacheCall.key, isWrite]
            using present
      | some score =>
          simpa [step, CacheCall.onRedis, whole, noteCall, CacheCall.key,
            isWrite] using both.redis.isSome_entries_zadd key score _
  | _ =>
      simpa [step, CacheCall.onRedis, noteCall, CacheCall.key, isWrite]
        using present

/-! ## Strings and counters -/

section Strings

variable {both : BothCaches} {key : Text}

theorem agrees_get_iff
    (free : NulFree key) (content : both.Content key .string) :
    both.Agrees (.get key) ↔ Fine both.past (.get key) := by
  have whole := cString_of_nulFree free
  simp only [Agrees, CacheCall.onMock, CacheCall.onRedis, whole,
    CacheReply.found.injEq, MockCache.get, Redis.get, Fine]
  rcases content with
    ⟨store, entry, written⟩ | ⟨value, rest, store, entry, written⟩ |
      ⟨rest, entry, written, inRange, behind⟩
  · simp [store, entry, written]
  · simp [store, entry, written]
  · simp only [entry, written, List.head?_cons, ne_eq, not_true_eq_false,
      iff_false]
    intro equal
    rcases behind _ equal with ⟨number, reads, less⟩
    rw [strictInteger_decimal (by omega) (by exact_mod_cast inRange)]
      at reads
    cases reads
    exact absurd less (lt_irrefl _)

theorem incr_of_decimal
    {redis : Redis} {count : Nat}
    (entry :
      redis.entries key = some ⟨.string (decimal count), false⟩)
    (inRange : count < 2 ^ 63) :
    redis.incr key =
      if count + 1 < 2 ^ 63 then
        ((count + 1 : Int),
          redis.put key (some ⟨.string (decimal (count + 1)), false⟩))
      else (0, redis) := by
  have reads : strictInteger (decimal count) = some (count : Int) :=
    strictInteger_decimal (by omega) (by exact_mod_cast inRange)
  simp only [Redis.incr, entry, reads]
  by_cases fits : count + 1 < 2 ^ 63
  · rw [if_pos fits, if_pos (by exact_mod_cast fits)]
  · rw [if_neg fits, if_neg (by exact_mod_cast fits)]

theorem agrees_incr_iff
    (free : NulFree key)
    (counter :
      both.mock.counters key = (increments key both.past : Int))
    (content : both.Content key .string) :
    both.Agrees (.incr key) ↔ Fine both.past (.incr key) := by
  have whole := cString_of_nulFree free
  simp only [Agrees, CacheCall.onMock, CacheCall.onRedis, whole,
    CacheReply.number.injEq, MockCache.incr, counter, Fine, Counts]
  rcases content with
    ⟨store, entry, written⟩ | ⟨value, rest, store, entry, written⟩ |
      ⟨rest, entry, written, inRange, behind⟩
  · simp only [Redis.incr, entry, written, List.head?_nil]
    omega
  · simp only [Redis.incr, entry, written, List.head?_cons]
    cases reads : strictInteger value with
    | none =>
        simp only [reduceCtorEq, and_false, iff_false]
        omega
    | some number =>
        simp only [Option.some.injEq]
        split
        · omega
        · omega
  · rw [incr_of_decimal entry inRange]
    simp only [written, List.head?_cons, and_true]
    split
    · next fits => exact ⟨fun _ => fits, fun _ => rfl⟩
    · next full =>
        simp only [full, iff_false]
        omega

theorem content_set
    (value : Text) (plain : (CacheCall.set key value).Plain) :
    (both.step (.set key value)).Content key .string := by
  right
  left
  refine ⟨value, writes key both.past, ?_, ?_, ?_⟩
  · exact MockCache.store_put_self _ _ _
  · simp [step, CacheCall.onRedis, cString_of_nulFree plain.1,
      cString_of_nulFree plain.2, Redis.set]
  · exact both.writes_step_of_isWrite rfl

theorem content_incr
    (free : NulFree key) (content : both.Content key .string)
    (fine : Fine both.past (.incr key)) :
    (both.step (.incr key)).Content key .string := by
  have whole := cString_of_nulFree free
  rcases fine with ⟨fits, number⟩
  have counted := increments_step both (.incr key) key
  rw [if_pos rfl] at counted
  have sameStore :
      (both.step (.incr key)).mock.store key = both.mock.store key :=
    rfl
  have written :
      writes key (both.step (.incr key)).past =
        .incr key :: writes key both.past :=
    both.writes_step_of_isWrite rfl
  have entry :
      (both.step (.incr key)).redis.entries key =
        (both.redis.incr key).2.entries key := by
    simp [step, CacheCall.onRedis, whole]
  right
  right
  refine ⟨writes key both.past, ?_, written, by rw [counted]; exact fits, ?_⟩
  · rw [entry, counted]
    rcases content with
      ⟨store, before, nothing⟩ | ⟨value, rest, store, before, set⟩ |
        ⟨rest, before, incr, inRange, behind⟩
    · rw [nothing, List.head?_nil] at number
      simp [Redis.incr, before, number]
    · rw [set, List.head?_cons] at number
      have less : (increments key both.past : Int) + 1 < 2 ^ 63 := by
        exact_mod_cast fits
      simp only [Redis.incr, before, number, if_pos less,
        Redis.entries_put_self]
      rfl
    · rw [incr_of_decimal before inRange, if_pos fits]
      simp
  · intro value stored
    rw [sameStore] at stored
    rw [counted]
    rcases content with
      ⟨store, before, nothing⟩ | ⟨other, rest, store, before, set⟩ |
        ⟨rest, before, incr, inRange, behind⟩
    · rw [store] at stored
      cases stored
    · rw [store] at stored
      cases stored
      rw [set, List.head?_cons] at number
      exact ⟨_, number, by omega⟩
    · rcases behind value stored with ⟨old, reads, less⟩
      exact ⟨old, reads, by omega⟩

end Strings

/-! ## Lists -/

section Lists

variable {both : BothCaches} {key : Text}

/-- Joined, a list is one of its elements if the others are empty. -/
theorem flatten_eq_iff (before after : List Text) (value : Text) :
    (before ++ value :: after).flatten = value ↔
      ∀ other ∈ before ++ after, other = [] := by
  constructor
  · intro equal
    have lengths := congrArg List.length equal
    simp only [List.flatten_append, List.flatten_cons, List.length_append]
      at lengths
    have none : (before ++ after).flatten = [] := by
      rw [← List.length_eq_zero_iff, List.flatten_append,
        List.length_append]
      omega
    exact List.flatten_eq_nil_iff.mp none
  · intro empty
    rw [← List.flatten_eq_nil_iff, List.flatten_append,
      List.append_eq_nil_iff] at empty
    simp [empty.1, empty.2]

/-- The range is the joined list in one case. -/
theorem slice_eq_flatten_iff
    {start stop : Int} (nonneg : 0 ≤ start) (ordered : start ≤ stop)
    (elements : List Text) :
    [elements.flatten] = Redis.slice start stop elements ↔
      PicksSole start stop elements := by
  rw [Redis.slice_of_nonneg nonneg ordered]
  constructor
  · intro equal
    cases picked : elements.drop start.toNat with
    | nil =>
        rw [picked, List.take_nil] at equal
        cases equal
    | cons value after =>
        have split :
            elements = elements.take start.toNat ++ value :: after := by
          rw [← picked, List.take_append_drop]
        have inside : start.toNat < elements.length := by
          have lengths := congrArg List.length picked
          rw [List.length_drop, List.length_cons] at lengths
          omega
        obtain ⟨more, count⟩ : ∃ more, (stop - start + 1).toNat = more + 1 :=
          ⟨(stop - start).toNat, by omega⟩
        rw [picked, count, List.take_succ_cons, List.cons.injEq] at equal
        rcases equal with ⟨joined, others⟩
        refine ⟨elements.take start.toNat, value, after, split, ?_, ?_, ?_⟩
        · rw [List.length_take, Nat.min_eq_left (Nat.le_of_lt inside)]
          omega
        · rcases List.take_eq_nil_iff.mp others.symm with none | empty
          · left
            omega
          · exact Or.inr empty
        · rw [split] at joined
          exact (flatten_eq_iff _ _ _).mp joined
  · rintro ⟨before, value, after, rfl, rfl, sole, empty⟩
    rw [(flatten_eq_iff before after value).mpr empty, Int.toNat_natCast,
      List.drop_left]
    rcases sole with rfl | rfl
    · simp
    · rw [List.take_of_length_le]
      simp only [List.length_singleton]
      omega

theorem agrees_lrange_iff
    {start stop : Int} (free : NulFree key)
    (nonneg : 0 ≤ start) (ordered : start ≤ stop)
    (content : both.Content key .list) :
    both.Agrees (.lrange key start stop) ↔
      Fine both.past (.lrange key start stop) := by
  have whole := cString_of_nulFree free
  simp only [Agrees, CacheCall.onMock, CacheCall.onRedis, whole,
    CacheReply.values.injEq, MockCache.lrange, Redis.lrange, Fine]
  rcases content with
    ⟨nothing, store, entry⟩ | ⟨nonempty, store, entry⟩
  · simp [nothing, store, entry]
  · rw [store, entry, or_iff_right nonempty]
    exact slice_eq_flatten_iff nonneg ordered _

theorem elements_lpush (value : Text) :
    elements key (both.step (.lpush key value)).past =
      value :: elements key both.past := by
  have written :
      writes key (both.step (.lpush key value)).past =
        .lpush key value :: writes key both.past :=
    both.writes_step_of_isWrite rfl
  rw [elements, written]
  rfl

theorem content_lpush
    (value : Text) (plain : (CacheCall.lpush key value).Plain)
    (content : both.Content key .list) :
    (both.step (.lpush key value)).Content key .list := by
  have whole := cString_of_nulFree plain.1
  have same := cString_of_nulFree plain.2
  right
  rw [elements_lpush]
  refine ⟨List.cons_ne_nil _ _, ?_, ?_⟩
  · rcases content with
      ⟨nothing, store, entry⟩ | ⟨nonempty, store, entry⟩
    · simp [step, CacheCall.onMock, MockCache.lpush, nothing, store]
    · simp [step, CacheCall.onMock, MockCache.lpush, store]
  · rcases content with
      ⟨nothing, store, entry⟩ | ⟨nonempty, store, entry⟩
    · simp [step, CacheCall.onRedis, whole, same, Redis.lpush, nothing,
        entry]
    · simp [step, CacheCall.onRedis, whole, same, Redis.lpush, entry]

end Lists

/-! ## Sorted sets -/

section SortedSets

variable {both : BothCaches} {key : Text}

theorem slice_eq_nil_iff
    {α : Type} {start stop : Int} (nonneg : 0 ≤ start)
    (ordered : start ≤ stop) (elements : List α) :
    Redis.slice start stop elements = [] ↔
      (elements.length : Int) ≤ start := by
  rw [Redis.slice_of_nonneg nonneg ordered, List.take_eq_nil_iff,
    List.drop_eq_nil_iff]
  omega

/-- A sorted set has each member once. -/
theorem length_descending
    {set : SortedSet} {members : List Text}
    (same :
      ∀ member, member ∈ set.entries.map Prod.fst ↔ member ∈ members) :
    set.descending.length = members.dedup.length := by
  apply List.Perm.length_eq
  rw [List.perm_ext_iff_of_nodup set.nodup_descending
    (List.nodup_dedup members)]
  intro member
  rw [set.mem_descending_iff, List.mem_dedup]
  exact same member

theorem agrees_zrevrange_iff
    {start stop : Int} (free : NulFree key)
    (nonneg : 0 ≤ start) (ordered : start ≤ stop)
    (content : both.Content key .sortedSet) :
    both.Agrees (.zrevrange key start stop) ↔
      Fine both.past (.zrevrange key start stop) := by
  have whole := cString_of_nulFree free
  simp only [Agrees, CacheCall.onMock, CacheCall.onRedis, whole,
    CacheReply.values.injEq, MockCache.zrevrange, Redis.zrevrange, Fine]
  rcases content with ⟨nothing, entry⟩ | ⟨set, entry, same⟩
  · simp [nothing, entry, nonneg]
  · simp only [entry]
    rw [eq_comm, slice_eq_nil_iff nonneg ordered, length_descending same]

theorem mem_fst_add_iff
    {set : SortedSet} {score : Int} {member other : Text} :
    other ∈ (set.add score member).entries.map Prod.fst ↔
      other = member ∨ other ∈ set.entries.map Prod.fst := by
  by_cases same : other = member
  · simp [SortedSet.add, same]
  · simp [SortedSet.add, same]

theorem content_zadd
    (score : Option Int) {member : Text}
    (plain : (CacheCall.zadd key score member).Plain)
    (content : both.Content key .sortedSet) :
    (both.step (.zadd key score member)).Content key .sortedSet := by
  have whole := cString_of_nulFree plain.1
  have same := cString_of_nulFree plain.2
  cases score with
  | none =>
      have unchanged :
          members key (both.step (.zadd key none member)).past =
            members key both.past := by
        simp [members, writes_step, noteCall, CacheCall.key, isWrite]
      show SetContent _ (members key _)
      rw [unchanged]
      exact content
  | some score =>
      have more :
          members key (both.step (.zadd key (some score) member)).past =
            member :: members key both.past := by
        have written :
            writes key (both.step (.zadd key (some score) member)).past =
              .zadd key (some score) member :: writes key both.past :=
          both.writes_step_of_isWrite rfl
        rw [members, written]
        rfl
      right
      rw [more]
      rcases content with ⟨nothing, entry⟩ | ⟨set, entry, holds⟩
      · refine ⟨SortedSet.empty.add score member, ?_, ?_⟩
        · simp [step, CacheCall.onRedis, whole, same, Redis.zadd, entry]
        · intro other
          rw [mem_fst_add_iff, nothing]
          simp [SortedSet.empty]
      · refine ⟨set.add score member, ?_, ?_⟩
        · simp [step, CacheCall.onRedis, whole, same, Redis.zadd, entry]
        · intro other
          rw [mem_fst_add_iff, holds, List.mem_cons]

end SortedSets

/-! ## Every call -/

section Calls

variable {both : BothCaches} {key : Text}

theorem agrees_del_iff
    (free : NulFree key)
    (stored :
      (both.mock.store key).isSome = (writes key both.past).any isStored)
    (present :
      (both.redis.entries key).isSome =
        !(writes key both.past).isEmpty) :
    both.Agrees (.del key) ↔ Fine both.past (.del key) := by
  have whole := cString_of_nulFree free
  simp only [Agrees, CacheCall.onMock, CacheCall.onRedis, whole,
    CacheReply.done.injEq, MockCache.del, Redis.del, stored, present, Fine]
  cases writes key both.past with
  | nil => simp
  | cons call rest => simp

theorem content_del (free : NulFree key) (kind : Kind) :
    (both.step (.del key)).Content key kind := by
  have whole := cString_of_nulFree free
  have store : (both.step (.del key)).mock.store key = none :=
    MockCache.store_put_self _ _ _
  have entry : (both.step (.del key)).redis.entries key = none := by
    simp [step, CacheCall.onRedis, whole, Redis.del]
  have nothing : writes key (both.step (.del key)).past = [] := by
    simp [writes_step, noteCall, CacheCall.key]
  cases kind with
  | string => exact Or.inl ⟨store, entry, nothing⟩
  | list => exact Or.inl ⟨by simp [elements, nothing], store, entry⟩
  | sortedSet => exact Or.inl ⟨by simp [members, nothing], entry⟩

/-- A call that changes nothing and is no write. -/
theorem content_unchanged
    {call : CacheCall} {kind : Kind}
    (mock : (call.onMock both.mock).2 = both.mock)
    (redis : (call.onRedis both.redis).2 = both.redis)
    (noted : writes key (call :: both.past) = writes key both.past)
    (counted :
      increments key (call :: both.past) = increments key both.past)
    (content : both.Content key kind) :
    (both.step call).Content key kind := by
  cases kind with
  | string =>
      simp only [Content, step, mock, redis, noted, counted] at content ⊢
      exact content
  | list =>
      simp only [Content, step, mock, redis, elements, noted]
        at content ⊢
      exact content
  | sortedSet =>
      simp only [Content, step, redis, members, noted] at content ⊢
      exact content

theorem content_of_ne
    {call : CacheCall} {kind : Kind} (plain : call.Plain)
    (different : call.key ≠ key) (content : both.Content key kind) :
    (both.step call).Content key kind := by
  have store := both.store_step_of_ne different
  have entry := both.entries_step_of_ne plain different
  have noted := both.writes_step_of_ne different
  have counted := both.increments_step_of_ne different
  cases kind with
  | string =>
      simp only [Content, store, entry, noted, counted]
      exact content
  | list =>
      simp only [Content, elements, store, entry, noted]
      exact content
  | sortedSet =>
      simp only [Content, members, entry, noted]
      exact content

variable {kinds : Text → Kind} {call : CacheCall}

theorem agrees_iff
    (holds : both.Holds kinds) (plain : call.Plain)
    (used : call.UsedAs kinds) :
    both.Agrees call ↔ Fine both.past call := by
  have content := holds.content call.key
  have free := plain.key
  cases call with
  | get key =>
      simp only [CacheCall.key, show kinds key = .string from used]
        at content
      exact agrees_get_iff free content
  | set key value => exact iff_of_true rfl trivial
  | del key =>
      exact agrees_del_iff free (holds.stored key) (holds.present key)
  | incr key =>
      simp only [CacheCall.key, show kinds key = .string from used]
        at content
      exact agrees_incr_iff free (holds.counter key) content
  | lpush key value =>
      refine iff_of_true ?_ trivial
      exact congrArg CacheReply.done (both.redis.lpush_fst _ _).symm
  | lrange key start stop =>
      rcases used with ⟨isList, nonneg, ordered⟩
      simp only [CacheCall.key, isList] at content
      exact agrees_lrange_iff free nonneg ordered content
  | zadd key score member =>
      refine iff_of_true ?_ trivial
      cases score with
      | none => rfl
      | some score =>
          exact congrArg CacheReply.done (both.redis.zadd_fst _ _ _).symm
  | zrevrange key start stop =>
      rcases used with ⟨isSet, nonneg, ordered⟩
      simp only [CacheCall.key, isSet] at content
      exact agrees_zrevrange_iff free nonneg ordered content

/-- What the call leaves under its own key. -/
theorem content_self
    (holds : both.Holds kinds) (plain : call.Plain)
    (used : call.UsedAs kinds) (fine : Fine both.past call) :
    (both.step call).Content call.key (kinds call.key) := by
  have content := holds.content call.key
  cases call with
  | set key value =>
      rw [show kinds (CacheCall.set key value).key = .string from used]
      exact content_set value plain
  | del key => exact content_del plain.key _
  | incr key =>
      rw [show kinds (CacheCall.incr key).key = .string from used]
        at content ⊢
      exact content_incr plain.key content fine
  | lpush key value =>
      rw [show kinds (CacheCall.lpush key value).key = .list from used]
        at content ⊢
      exact content_lpush value plain content
  | zadd key score member =>
      rw [show kinds (CacheCall.zadd key score member).key = .sortedSet
        from used] at content ⊢
      exact content_zadd score plain content
  | _ =>
      refine content_unchanged rfl rfl ?_ ?_ content
      · simp [writes, noteCall, CacheCall.key, isWrite]
      · simp [increments]

theorem Holds.step
    (holds : both.Holds kinds) (plain : call.Plain)
    (used : call.UsedAs kinds) (fine : Fine both.past call) :
    (both.step call).Holds kinds where
  counter := by
    intro key
    rw [counters_step, increments_step, holds.counter key]
    split
    · simp
    · rfl
  stored := by
    intro key
    by_cases same : call.key = key
    · subst same
      exact stored_step_self (holds.stored _)
    · rw [store_step_of_ne both same, writes_step_of_ne both same]
      exact holds.stored key
  present := by
    intro key
    by_cases same : call.key = key
    · subst same
      exact present_step_self plain (holds.present _)
    · rw [entries_step_of_ne both plain same,
        writes_step_of_ne both same]
      exact holds.present key
  content := by
    intro key
    by_cases same : call.key = key
    · subst same
      exact content_self holds plain used fine
    · exact content_of_ne plain same (holds.content key)

end Calls

/-! ## Every run -/

/-- With strings that reach the server whole, on every run. -/
theorem along_agrees_iff
    {kinds : Text → Kind} {calls : List CacheCall}
    (plain : ∀ call ∈ calls, call.Plain)
    (used : ∀ call ∈ calls, call.UsedAs kinds) :
    Along step Agrees start calls ↔
      Along step (fun both call => Fine both.past call) start calls := by
  have allowed :
      Along step (fun _ call => call.Plain ∧ call.UsedAs kinds)
        start calls :=
    along_of_forall_mem step start
      fun call member => ⟨plain call member, used call member⟩
  refine along_iff (fun both => both.Holds kinds) ?_ ?_
    (holds_start kinds) allowed
  · intro both call holds allowed
    exact agrees_iff holds allowed.1 allowed.2
  · intro both call holds allowed fine
    exact holds.step allowed.1 allowed.2 fine

/--
In a run whose strings are free of NUL and whose calls are all fine, every
call returns the same value on both sides.  Without a NUL there are no other
such runs.
-/
theorem mock_transparent_iff
    (kinds : Text → Kind) (calls : List CacheCall)
    (used : ∀ call ∈ calls, call.UsedAs kinds) :
    (Along step (fun both call => call.Plain ∧ Fine both.past call)
        start calls →
      Along step Agrees start calls) ∧
      ((∀ call ∈ calls, call.Plain) →
        Along step Agrees start calls →
          Along step (fun both call => Fine both.past call)
            start calls) := by
  constructor
  · intro along
    have plain : ∀ call ∈ calls, call.Plain :=
      forall_mem_of_along (along.imp fun _ _ both => both.1)
    exact (along_agrees_iff plain used).mpr
      (along.imp fun _ _ both => both.2)
  · intro plain
    exact (along_agrees_iff plain used).mp

/-- A string, a counter, a list of one element and a sorted set. -/
def sampleKinds (key : Text) : Kind :=
  if key = text "list" then .list
  else if key = text "set" then .sortedSet
  else .string

def sampleCalls : List CacheCall :=
  [.set (text "name") (text "a"), .get (text "name"), .incr (text "count"),
    .incr (text "count"), .lpush (text "list") (text "b"),
    .lrange (text "list") 0 9, .zadd (text "set") (some 1) (text "c"),
    .zrevrange (text "set") 1 9, .del (text "name"), .get (text "name")]

theorem mock_transparent_of_sample :
    Along step Agrees start sampleCalls := by
  refine (mock_transparent_iff sampleKinds sampleCalls ?_).1 ?_
  · decide +kernel
  · refine ⟨⟨by decide, trivial⟩, ⟨by decide, ?_⟩,
      ⟨by decide, by decide +kernel, rfl⟩,
      ⟨by decide, by decide +kernel, trivial⟩, ⟨by decide, trivial⟩,
      ⟨by decide, Or.inr ⟨[], text "b", [], rfl, rfl, Or.inr rfl,
        by simp⟩⟩,
      ⟨by decide, trivial⟩, ⟨by decide, ?_⟩,
      ⟨by decide, Or.inr ⟨.set (text "name") (text "a"),
        by decide +kernel, rfl⟩⟩,
      ⟨by decide, ?_⟩, trivial⟩
    · show (writes (text "name") _).head? ≠ some (.incr (text "name"))
      decide +kernel
    · show ((members (text "set") _).dedup.length : Int) ≤ 1
      decide +kernel
    · show (writes (text "name") _).head? ≠ some (.incr (text "name"))
      decide +kernel

/-- Two elements of a list come back as one. -/
theorem mock_not_transparent :
    (∀ call ∈ ([.lpush (text "list") (text "a"),
        .lpush (text "list") (text "b"), .lrange (text "list") 0 1] :
        List CacheCall), call.UsedAs fun _ => .list) ∧
      ¬ Along step Agrees start
        [.lpush (text "list") (text "a"), .lpush (text "list") (text "b"),
          .lrange (text "list") 0 1] := by
  constructor
  · decide
  · decide +kernel

end BothCaches

end LightningServer.Store
