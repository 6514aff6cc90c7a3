import LightningServer.Net.RequestLine

/-!
# Query strings

`parseQueryString` cuts the target at its first question mark and reads the
rest segment by segment.  A segment without `=` is skipped, the first `=` of a
segment ends its key, and a later segment replaces an earlier one with the
same key.
-/

namespace LightningServer.Net.HttpParser

open LightningServer.Foundation.Framing

def questionMark : UInt8 := 63
def ampersand : UInt8 := 38
def equalsSign : UInt8 := 61

/-! ## What a query string says -/

/-- The target before its first question mark. -/
def pathOf (target : Bytes) : Bytes :=
  target.takeWhile fun byte => byte ≠ questionMark

/-- The segments of what stands behind the first question mark. -/
def segments (target : Bytes) : List Bytes :=
  ((target.dropWhile fun byte => byte ≠ questionMark).tail).splitOn ampersand

/--
The last segment whose first `=` stands right behind the key has this value
behind it.
-/
def Assigns (segments : List Bytes) (key value : Bytes) : Prop :=
  equalsSign ∉ key ∧
    ∃ before after,
      segments = before ++ (key ++ equalsSign :: value) :: after ∧
        ∀ later ∈ after, ∀ other, later ≠ key ++ equalsSign :: other

/-- `key=value` -/
def renderPair (pair : Bytes × Bytes) : Bytes :=
  pair.1 ++ equalsSign :: pair.2

/-- `path?k1=v1&k2=v2...` -/
def renderTarget (path : Bytes) (pairs : List (Bytes × Bytes)) : Bytes :=
  path ++ questionMark :: [ampersand].intercalate (pairs.map renderPair)

/-- A pair that can be told from its neighbours. -/
structure PlainPair (pair : Bytes × Bytes) : Prop where
  key_ampersand : ampersand ∉ pair.1
  key_equals : equalsSign ∉ pair.1
  value : ampersand ∉ pair.2

/-- The map in which the last pair with a key counts. -/
def lastWins (pairs : List (Bytes × Bytes)) : StringMap :=
  pairs.foldl (fun params pair => params.insert pair.1 pair.2) ∅

/-! ## One segment -/

/-- The value of a segment with the given key. -/
def valueOf (key segment : Bytes) : Option Bytes :=
  match segment.dropInfix? (ascii "=") with
  | none => none
  | some (name, value) => if name = key then some value else none

theorem valueOf_eq_some_iff {key segment value : Bytes} :
    valueOf key segment = some value ↔
      segment = key ++ equalsSign :: value ∧ equalsSign ∉ key := by
  have sign : ascii "=" = [equalsSign] := by decide
  rw [valueOf, sign]
  cases found : segment.dropInfix? [equalsSign] with
  | none =>
      have clean := dropInfix?_symbol_eq_none_iff.mp found
      simp only [reduceCtorEq, false_iff, not_and]
      rintro rfl
      simp at clean
  | some split =>
      rcases split with ⟨name, rest⟩
      rw [← dropInfix?_symbol_iff, found]
      simp only [Option.ite_none_right_eq_some, Option.some.injEq,
        Prod.mk.injEq]

theorem valueOf_eq_none_iff {key segment : Bytes} (clean : equalsSign ∉ key) :
    valueOf key segment = none ↔
      ∀ value, segment ≠ key ++ equalsSign :: value := by
  rw [Option.eq_none_iff_forall_ne_some]
  refine forall_congr' fun value => ?_
  rw [ne_eq, valueOf_eq_some_iff]
  simp [clean]

@[simp]
theorem valueOf_nil (key : Bytes) : valueOf key [] = none := by
  rw [Option.eq_none_iff_forall_ne_some]
  intro value reads
  simpa using (valueOf_eq_some_iff.mp reads).1

theorem getElem?_storePair
    (key segment : Bytes) (params : StringMap) :
    (storePair params segment)[key]? =
      (valueOf key segment).or params[key]? := by
  unfold storePair valueOf
  cases segment.dropInfix? (ascii "=") with
  | none => rfl
  | some split =>
      rcases split with ⟨name, value⟩
      by_cases same : name = key
      · simp [same]
      · simp [same, Std.ExtTreeMap.getElem?_insert]

/-- The loop keeps the value of the last segment with the key. -/
theorem getElem?_foldl_storePair
    (key : Bytes) (lines : List Bytes) (params : StringMap) :
    (lines.foldl storePair params)[key]? =
      (lines.filterMap (valueOf key)).getLast?.or params[key]? :=
  lookup_foldl (fun earlier : StringMap => earlier[key]?)
    (fun earlier line => getElem?_storePair key line earlier) lines params

/-- The value under a key, by the segments. -/
theorem getLast?_valueOf_eq_some_iff
    {segments : List Bytes} {key value : Bytes} :
    (segments.filterMap (valueOf key)).getLast? = some value ↔
      Assigns segments key value := by
  rw [getLast?_filterMap_eq_some_iff]
  constructor
  · rintro ⟨before, segment, after, rfl, reads, none⟩
    rcases valueOf_eq_some_iff.mp reads with ⟨rfl, clean⟩
    exact ⟨clean, before, after, rfl, fun later member =>
      (valueOf_eq_none_iff clean).mp (none later member)⟩
  · rintro ⟨clean, before, after, rfl, none⟩
    exact ⟨before, _, after, rfl, valueOf_eq_some_iff.mpr ⟨rfl, clean⟩,
      fun later member =>
        (valueOf_eq_none_iff clean).mpr (none later member)⟩

/-! ## The whole query string -/

/-- The parameters of a target, on top of those that are there. -/
theorem getElem?_queryParams
    (target key : Bytes) (req : HttpRequest) :
    (parseQueryString target req).queryParams[key]? =
      ((segments target).filterMap (valueOf key)).getLast?.or
        req.queryParams[key]? := by
  have mark : ascii "?" = [questionMark] := by decide
  rw [parseQueryString, mark, segments]
  cases found : target.dropInfix? [questionMark] with
  | none =>
      have clean := dropInfix?_symbol_eq_none_iff.mp found
      rw [dropWhile_ne_of_notMem clean, List.tail_nil, List.splitOn_nil,
        List.filterMap_cons_none (valueOf_nil key)]
      rfl
  | some split =>
      rcases split with ⟨before, query⟩
      rcases dropInfix?_symbol_iff.mp found with ⟨rfl, clean⟩
      rw [dropWhile_ne clean, List.tail_cons,
        ← filterMap_getlines (valueOf_nil key)]
      exact getElem?_foldl_storePair key _ req.queryParams

/-- The segments of a rendered target are its pairs, if there are any. -/
theorem filterMap_segments_renderTarget
    {path : Bytes} (clean : questionMark ∉ path)
    {pairs : List (Bytes × Bytes)}
    (plain : ∀ pair ∈ pairs, PlainPair pair) (key : Bytes) :
    (segments (renderTarget path pairs)).filterMap (valueOf key) =
      (pairs.map renderPair).filterMap (valueOf key) := by
  have noAmpersand : ∀ segment ∈ pairs.map renderPair,
      ampersand ∉ segment := by
    intro segment member
    rcases List.mem_map.mp member with ⟨pair, inPairs, rfl⟩
    have isPlain := plain pair inPairs
    rw [renderPair, List.mem_append, List.mem_cons, not_or, not_or]
    exact ⟨isPlain.key_ampersand, by decide, isPlain.value⟩
  rw [segments, renderTarget, dropWhile_ne clean, List.tail_cons]
  by_cases none : pairs = []
  · rw [none, List.map_nil, List.intercalate_nil, List.splitOn_nil,
      List.filterMap_cons_none (valueOf_nil key)]
  · rw [List.splitOn_intercalate ampersand noAmpersand (by simpa using none)]

theorem getElem?_lastWins
    (key : Bytes) {pairs : List (Bytes × Bytes)}
    (plain : ∀ pair ∈ pairs, PlainPair pair) :
    (lastWins pairs)[key]? =
      ((pairs.map renderPair).filterMap (valueOf key)).getLast? := by
  induction pairs using List.reverseRecOn with
  | nil => exact Std.ExtTreeMap.getElem?_empty
  | append_singleton pairs pair induction =>
      have earlier := induction fun other member =>
        plain other (List.mem_append_left [pair] member)
      have clean := (plain pair (by simp)).key_equals
      rw [lastWins] at earlier ⊢
      rw [List.foldl_append, List.foldl_cons, List.foldl_nil, List.map_append,
        List.filterMap_append, Std.ExtTreeMap.getElem?_insert, earlier]
      by_cases same : pair.1 = key
      · have reads : valueOf key (renderPair pair) = some pair.2 :=
          valueOf_eq_some_iff.mpr ⟨by rw [renderPair, same], same ▸ clean⟩
        simp [same, reads]
      · have skips : valueOf key (renderPair pair) = none := by
          rw [Option.eq_none_iff_forall_ne_some]
          intro value reads
          have equal := (valueOf_eq_some_iff.mp reads)
          have first := dropInfix?_symbol_iff.mpr equal
          rw [renderPair, dropInfix?_symbol clean] at first
          cases first
          exact same rfl
        simp [same, skips]

/--
The path and the parameters of a fresh request, by the segments of its target;
hence a rendered list of pairs is read back as its last-wins map.
-/
theorem parseQueryString_parameters
    (req : HttpRequest) (fresh : req.queryParams = ∅) :
    (∀ target,
        (parseQueryString target { req with path := target }).path =
            pathOf target ∧
          ∀ key value,
            (parseQueryString target
                { req with path := target }).queryParams[key]? =
                some value ↔
              Assigns (segments target) key value) ∧
      ∀ path pairs, questionMark ∉ path →
        (∀ pair ∈ pairs, PlainPair pair) →
          (parseQueryString (renderTarget path pairs)
              { req with path := renderTarget path pairs }).path = path ∧
            (parseQueryString (renderTarget path pairs)
                { req with path := renderTarget path pairs }).queryParams =
              lastWins pairs := by
  have parameters (target key : Bytes) :
      (parseQueryString target
          { req with path := target }).queryParams[key]? =
        ((segments target).filterMap (valueOf key)).getLast? := by
    have empty : req.queryParams[key]? = none := by
      rw [fresh]
      exact Std.ExtTreeMap.getElem?_empty
    rw [getElem?_queryParams]
    show Option.or _ req.queryParams[key]? = _
    rw [empty, Option.or_none]
  constructor
  · intro target
    refine ⟨path_parseQueryString target req, fun key value => ?_⟩
    rw [parameters]
    exact getLast?_valueOf_eq_some_iff
  · intro path pairs clean plain
    constructor
    · rw [path_parseQueryString]
      exact takeWhile_ne clean _
    · ext1 key
      rw [parameters, filterMap_segments_renderTarget clean plain,
        getElem?_lastWins key plain]

/-- An empty key, an empty value, a value with both signs, a key twice. -/
theorem parseQueryString_two_pages :
    (parseQueryString
        (renderTarget (ascii "/a")
          [(ascii "p", ascii "1"), ([], ascii "=?"), (ascii "p", [])])
        { path := renderTarget (ascii "/a")
            [(ascii "p", ascii "1"), ([], ascii "=?"),
              (ascii "p", [])] }).queryParams =
      lastWins [(ascii "p", ascii "1"), ([], ascii "=?"), (ascii "p", [])] := by
  refine ((parseQueryString_parameters {} rfl).2 (ascii "/a")
    [(ascii "p", ascii "1"), ([], ascii "=?"), (ascii "p", [])]
    (by decide) ?_).2
  rw [List.forall_mem_cons, List.forall_mem_cons, List.forall_mem_singleton]
  exact ⟨⟨by decide, by decide, by decide⟩, ⟨by decide, by decide, by decide⟩,
    ⟨by decide, by decide, by decide⟩⟩

end LightningServer.Net.HttpParser
