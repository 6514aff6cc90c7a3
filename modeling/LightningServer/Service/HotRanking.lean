import LightningServer.Service.ViewTally

/-!
# The hot list

As soon as one article is ranked, the list comes from the ranking alone: the
rows of its first members, with the larger of column and counter as the view
count.  The order is that of the counters, and articles that nobody opened
are not in it.  Only an empty ranking sends the request to the database.
-/

namespace LightningServer.Service

open LightningServer.Foundation
open LightningServer.Foundation.Numerals
open LightningServer.Store
open LightningServer.Service.ArticleService

/-! ## What the request looks at -/

/-- The limit in force. -/
def clampHotLimit (limit : Int) : Int :=
  if limit < 1 ∨ 20 < limit then 10 else limit

def hotResponse (list : List Json) : Json :=
  Json.ofFields
    [(text "code", .number 0), (text "data", .array list)]

/-- The members of the ranking that the request gets. -/
def hotMembers (redis : Redis) (limit : Int) : List Text :=
  redis.zrevrange hotKey 0 (clampHotLimit limit - 1)

/-- The row whose id has this text. -/
def memberRow (database : Database) (idStr : Text) : Option Article :=
  database.articles.find? fun article => decimal article.id = idStr

/-- The rows of the members, in the order of the ranking. -/
def rankedRows (world : World) (limit : Int) : List Article :=
  (hotMembers world.redis limit).filterMap (memberRow world.database)

/-- The row with the view count that the list shows. -/
def withCounter (redis : Redis) (article : Article) : Article :=
  { article with
    viewCount :=
      max article.viewCount (counted redis (decimal article.id)) }

/-- The row with its counter, where there is one. -/
def readCounter (redis : Redis) (row : Article) : Article :=
  match counter redis (decimal row.id) with
  | none => row
  | some number => { row with viewCount := max row.viewCount number }

@[simp]
theorem id_readCounter (redis : Redis) (row : Article) :
    (readCounter redis row).id = row.id := by
  rw [readCounter]
  split
  · rfl
  · rfl

theorem readCounter_of_some
    {redis : Redis} {row : Article} {number : Int}
    (present : counter redis (decimal row.id) = some number) :
    readCounter redis row = withCounter redis row := by
  rw [readCounter, withCounter, present, counted_of_some present]

/-- The articles of the response. -/
def hotArticles (world : World) (limit : Int) : List Article :=
  if hotMembers world.redis limit ≠ [] then
    (rankedRows world limit).map (withCounter world.redis)
  else world.database.getHotArticles (clampHotLimit limit)

/-- `stoi` takes the counters of all members that the request gets. -/
def HotCountersFit (redis : Redis) (limit : Int) : Prop :=
  ∀ idStr ∈ hotMembers redis limit, CounterFits redis idStr

instance (redis : Redis) (limit : Int) :
    Decidable (HotCountersFit redis limit) :=
  inferInstanceAs (Decidable (∀ idStr ∈ hotMembers redis limit, _))

theorem clampHotLimit_range (limit : Int) :
    1 ≤ clampHotLimit limit ∧ clampHotLimit limit ≤ 20 := by
  unfold clampHotLimit
  split
  · decide
  · omega

theorem hotMembers_eq (redis : Redis) (limit : Int) :
    hotMembers redis limit =
      (((hotEntries redis).insertionSort SortedSet.Before).map
        Prod.fst).take (clampHotLimit limit).toNat :=
  zrevrange_hotKey (clampHotLimit_range limit).1

/-- The hot list shows at most 20 of the members that a sync looks at. -/
theorem hotMembers_subset (redis : Redis) (limit : Int) :
    hotMembers redis limit ⊆ redis.zrevrange hotKey 0 99 := by
  have hundred :
      redis.zrevrange hotKey 0 (100 - 1) =
        (((hotEntries redis).insertionSort SortedSet.Before).map
          Prod.fst).take 100 :=
    zrevrange_hotKey (by decide)
  rw [show (100 : Int) - 1 = 99 from rfl] at hundred
  have range := clampHotLimit_range limit
  rw [hotMembers_eq, hundred]
  exact (List.take_prefix_take_left (by omega)).subset

/-! ## Members of the ranking -/

/-- A member with its row and its counter. -/
structure Ranks (world : World) (idStr : Text) (row : Article)
    (number : Int) : Prop where
  text_eq : idStr = decimal row.id
  fits : IsInt row.id
  found : world.database.getArticleById row.id = some row
  value : world.redis.get (articleViewKey idStr) = some (decimal number)
  present : counter world.redis idStr = some number
  positive : 1 ≤ number

/-- The row of a member in decimal is that of its id. -/
theorem memberRow_decimal (database : Database) (id : Int) :
    memberRow database (decimal id) = database.getArticleById id := by
  rw [memberRow, Database.getArticleById]
  congr 1
  ext article
  simp only [decide_eq_decide]
  exact decimal_injective.eq_iff

theorem Ranks.memberRow_eq
    {world : World} {idStr : Text} {row : Article} {number : Int}
    (ranks : Ranks world idStr row number) :
    memberRow world.database idStr = some row := by
  rw [ranks.text_eq, memberRow_decimal, ranks.found]

/-- In a state of a run, every member has its row and its counter. -/
theorem Tallied.ranks
    {initial : Database} {world : World}
    (tallied : Tallied initial world) {entry : Text × Int}
    (listed : entry ∈ hotEntries world.redis) :
    ∃ row number, Ranks world entry.1 row number := by
  rcases tallied.members entry listed with
    ⟨id, number, isDecimal, known, present, -⟩
  cases found : world.database.getArticleById id with
  | none =>
      have same := Database.getArticleById_fixed tallied.rows id
      rw [found] at same
      exact absurd (Option.map_eq_none_iff.mp same.symm) known
  | some row =>
      rcases Database.getArticleById_eq_some found with ⟨inTable, rfl⟩
      rcases tallied.ranked.get_counter entry.1 with
        ⟨-, absent⟩ | ⟨other, value, there⟩
      · rw [present] at absent
        cases absent
      · rw [present] at there
        cases there
        exact ⟨row, number, isDecimal,
          (world.database.articlesFit row inTable).1, found, value,
          present, (tallied.counters _ _ present).1⟩

theorem mem_hotEntries_of_mem_hotMembers
    {redis : Redis} {limit : Int} {idStr : Text}
    (listed : idStr ∈ hotMembers redis limit) :
    ∃ entry ∈ hotEntries redis, entry.1 = idStr := by
  rw [hotMembers_eq] at listed
  rcases List.mem_map.mp (List.mem_of_mem_take listed) with
    ⟨entry, sorted, rfl⟩
  exact ⟨entry, (List.mem_insertionSort _).mp sorted, rfl⟩

theorem Tallied.ranks_of_mem
    {initial : Database} {world : World}
    (tallied : Tallied initial world) {limit : Int} {idStr : Text}
    (listed : idStr ∈ hotMembers world.redis limit) :
    ∃ row number, Ranks world idStr row number := by
  rcases mem_hotEntries_of_mem_hotMembers listed with ⟨entry, member, rfl⟩
  exact tallied.ranks member

theorem text_memberRows
    {world : World} {members : List Text}
    (ranked : ∀ idStr ∈ members, ∃ row number,
      Ranks world idStr row number) :
    (members.filterMap (memberRow world.database)).map
      (fun row => decimal row.id) = members := by
  induction members with
  | nil => rfl
  | cons idStr rest induction =>
      rcases ranked idStr List.mem_cons_self with ⟨row, number, ranks⟩
      rw [List.filterMap_cons_some ranks.memberRow_eq, List.map_cons,
        induction fun other member =>
          ranked other (List.mem_cons_of_mem _ member),
        ← ranks.text_eq]

theorem text_rankedRows
    {initial : Database} {world : World}
    (tallied : Tallied initial world) (limit : Int) :
    (rankedRows world limit).map (fun row => decimal row.id) =
      hotMembers world.redis limit :=
  text_memberRows fun _ listed => tallied.ranks_of_mem listed

theorem mem_rankedRows
    {world : World} {limit : Int} {row : Article}
    (listed : row ∈ rankedRows world limit) :
    row ∈ world.database.articles ∧
      decimal row.id ∈ hotMembers world.redis limit := by
  rcases List.mem_filterMap.mp listed with ⟨idStr, member, isRow⟩
  have isText : decimal row.id = idStr := by
    simpa using List.find?_some isRow
  exact ⟨List.mem_of_find?_eq_some isRow, isText ▸ member⟩

/-- A listed row has a counter. -/
theorem Tallied.counter_of_mem_rankedRows
    {initial : Database} {world : World}
    (tallied : Tallied initial world) {limit : Int} {row : Article}
    (listed : row ∈ rankedRows world limit) :
    row ∈ world.database.articles ∧
      ∃ number, counter world.redis (decimal row.id) = some number := by
  rcases mem_rankedRows listed with ⟨inTable, member⟩
  rcases tallied.ranks_of_mem member with ⟨found, number, ranks⟩
  exact ⟨inTable, number, ranks.present⟩

/-! ## The loop -/

/-- The loop lists the rows, unless a counter is too wide for `stoi`. -/
theorem run_hotLoop
    {world : World} (ranked : Ranked world.redis) {members : List Text}
    (decimals : ∀ idStr ∈ members, ∃ id, IsInt id ∧ idStr = decimal id)
    (list : List Json) :
    (hotLoop members list).run exec world =
      (if ∀ idStr ∈ members,
          memberRow world.database idStr = none ∨
            CounterFits world.redis idStr then
        .ok (list ++ (members.filterMap
          (memberRow world.database)).map fun row =>
            listItem (readCounter world.redis row))
      else .error .outOfRange, world) := by
  induction members generalizing list with
  | nil => simp [hotLoop]
  | cons idStr rest induction =>
      rw [List.forall_mem_cons] at decimals
      rcases decimals with ⟨⟨id, fits, rfl⟩, decimals⟩
      have later := induction decimals
      have readId : stoi (decimal id) = .ok id := by
        rw [stoi_decimal, if_pos fits]
      simp only [hotLoop, readId, Program.ofExcept_ok, Program.ret_bind,
        Program.perform_bind, Program.run_call, exec, List.forall_mem_cons]
      cases found : world.database.getArticleById id with
      | none =>
          have noRow := (memberRow_decimal _ id).trans found
          simp only [List.filterMap_cons_none noRow, noRow, true_or,
            true_and]
          exact later list
      | some row =>
          have isRow := (memberRow_decimal _ id).trans found
          rcases Database.getArticleById_eq_some found with ⟨-, rfl⟩
          simp only [List.filterMap_cons_some isRow, isRow, List.map_cons,
            reduceCtorEq, false_or, Program.run_call, exec]
          rcases ranked.get_counter (decimal row.id) with
            ⟨absent, noCounter⟩ | ⟨number, value, present⟩
          · have taken : CounterFits world.redis (decimal row.id) := by
              simp [CounterFits, noCounter]
            have shown : readCounter world.redis row = row := by
              rw [readCounter, noCounter]
            simp only [absent, shown, taken, true_and, later,
              List.append_assoc, List.singleton_append]
          · have taken :
                CounterFits world.redis (decimal row.id) ↔
                  IsInt number := by
              simp [CounterFits, present]
            have shown :
                readCounter world.redis row =
                  { row with viewCount := max row.viewCount number } := by
              rw [readCounter, present]
            simp only [value, shown, taken, stoi_decimal]
            by_cases narrow : IsInt number
            · simp only [narrow, if_true, true_and, Program.ofExcept_ok,
                Program.ret_bind, later, List.append_assoc,
                List.singleton_append]
            · simp only [narrow, if_false, false_and,
                Program.ofExcept_error, Program.throw_bind,
                Program.run_throw]

/-- With a ranking, the request lists the rows of its members. -/
theorem run_getHotArticles_of_ranking
    {world : World} (ranked : Ranked world.redis) {limit : Int}
    (something : hotMembers world.redis limit ≠ []) :
    (getHotArticles limit).run exec world =
      (if ∀ idStr ∈ hotMembers world.redis limit,
          memberRow world.database idStr = none ∨
            CounterFits world.redis idStr then
        .ok (hotResponse ((rankedRows world limit).map fun row =>
          listItem (readCounter world.redis row)))
      else .error .outOfRange, world) := by
  have start :
      (getHotArticles limit).run exec world =
        (hotList (clampHotLimit limit) (hotMembers world.redis limit) >>=
          fun list => .ret (hotResponse list)).run exec world := by
    rfl
  have decimals :
      ∀ idStr ∈ hotMembers world.redis limit,
        ∃ id, IsInt id ∧ idStr = decimal id := by
    intro idStr member
    exact ranked.hotMembers.2 idStr
      (hotMembers_subset world.redis limit member)
  rw [start, Program.run_bind, hotList, if_pos something,
    run_hotLoop ranked decimals]
  by_cases fits :
      ∀ idStr ∈ hotMembers world.redis limit,
        memberRow world.database idStr = none ∨
          CounterFits world.redis idStr
  · rw [if_pos fits, if_pos fits]
    rfl
  · rw [if_neg fits, if_neg fits]

/-- The request lists `hotArticles`, or throws at a counter. -/
theorem run_getHotArticles
    {initial : Database} {world : World}
    (tallied : Tallied initial world) (limit : Int) :
    (getHotArticles limit).run exec world =
      (if HotCountersFit world.redis limit then
        .ok (hotResponse ((hotArticles world limit).map listItem))
      else .error .outOfRange, world) := by
  by_cases empty : hotMembers world.redis limit = []
  · have fits : HotCountersFit world.redis limit := by
      simp [HotCountersFit, empty]
    have start :
        (getHotArticles limit).run exec world =
          (hotList (clampHotLimit limit)
              (hotMembers world.redis limit) >>=
            fun list => .ret (hotResponse list)).run exec world := by
      rfl
    rw [start, Program.run_bind, hotList, hotArticles,
      if_neg (not_not.mpr empty), if_neg (not_not.mpr empty), if_pos fits]
    rfl
  · have fits :
        (∀ idStr ∈ hotMembers world.redis limit,
            memberRow world.database idStr = none ∨
              CounterFits world.redis idStr) ↔
          HotCountersFit world.redis limit := by
      refine forall₂_congr fun idStr member => ?_
      rcases tallied.ranks_of_mem member with ⟨row, number, ranks⟩
      simp [ranks.memberRow_eq]
    have rows :
        ((rankedRows world limit).map fun row =>
            listItem (readCounter world.redis row)) =
          ((rankedRows world limit).map
            (withCounter world.redis)).map listItem := by
      rw [List.map_map]
      apply List.map_congr_left
      intro row listed
      rcases (tallied.counter_of_mem_rankedRows listed).2 with
        ⟨number, present⟩
      exact congrArg listItem (readCounter_of_some present)
    rw [run_getHotArticles_of_ranking tallied.ranked empty, hotArticles,
      if_pos empty, rows]
    simp only [fits]

/-! ## The rows of the list -/

/-- Without a ranking nothing is counted. -/
theorem Tallied.counter_eq_none_of_nil
    {initial : Database} {world : World}
    (tallied : Tallied initial world)
    (nothing : hotEntries world.redis = []) (idStr : Text) :
    counter world.redis idStr = none := by
  cases present : counter world.redis idStr with
  | none => rfl
  | some number =>
      rcases (tallied.counters idStr number present).2 with
        ⟨score, member⟩
      rw [nothing] at member
      cases member

/-- The articles that have been opened at least once. -/
def visitedArticles (world : World) : List Article :=
  world.database.articles.filter
    fun article => 1 ≤ counted world.redis (decimal article.id)

/-- The members of the ranking are the opened articles. -/
theorem perm_hotEntries
    {initial : Database} {world : World}
    (tallied : Tallied initial world) :
    ((hotEntries world.redis).map Prod.fst).Perm
      ((visitedArticles world).map fun article => decimal article.id) := by
  have distinct :
      ((visitedArticles world).map
        fun article => decimal article.id).Nodup := by
    have ids : ((visitedArticles world).map Article.id).Nodup :=
      world.database.articleIds.sublist
        (List.filter_sublist.map Article.id)
    have texts := ids.map decimal_injective
    rwa [List.map_map] at texts
  apply (List.perm_ext_iff_of_nodup (nodup_hotEntries world.redis)
    distinct).mpr
  intro idStr
  constructor
  · intro listed
    rcases List.mem_map.mp listed with ⟨entry, member, rfl⟩
    rcases tallied.ranks member with ⟨row, number, ranks⟩
    refine List.mem_map.mpr ⟨row, ?_, ranks.text_eq.symm⟩
    have inTable := (Database.getArticleById_eq_some ranks.found).1
    refine List.mem_filter.mpr ⟨inTable, ?_⟩
    rw [← ranks.text_eq, counted_of_some ranks.present]
    simpa using ranks.positive
  · intro listed
    rcases List.mem_map.mp listed with ⟨article, visited, rfl⟩
    have positive := (List.mem_filter.mp visited).2
    cases present : counter world.redis (decimal article.id) with
    | none => simp [counted, present] at positive
    | some number =>
        rcases (tallied.counters _ _ present).2 with ⟨score, member⟩
        exact List.mem_map_of_mem member

theorem length_hotEntries
    {initial : Database} {world : World}
    (tallied : Tallied initial world) :
    (hotEntries world.redis).length = (visitedArticles world).length := by
  have sizes := (perm_hotEntries tallied).length_eq
  rwa [List.length_map, List.length_map] at sizes

theorem length_hotMembers (redis : Redis) (limit : Int) :
    (hotMembers redis limit).length =
      min (clampHotLimit limit).toNat (hotEntries redis).length := by
  rw [hotMembers_eq, List.length_take, List.length_map,
    List.length_insertionSort]

theorem hotMembers_eq_nil_iff (redis : Redis) (limit : Int) :
    hotMembers redis limit = [] ↔ hotEntries redis = [] := by
  have range := clampHotLimit_range limit
  rw [← List.length_eq_zero_iff, ← List.length_eq_zero_iff,
    length_hotMembers]
  omega

theorem length_rankedRows
    {initial : Database} {world : World}
    (tallied : Tallied initial world) (limit : Int) :
    (rankedRows world limit).length =
      min (clampHotLimit limit).toNat (hotEntries world.redis).length := by
  rw [← length_hotMembers, ← text_rankedRows tallied limit,
    List.length_map]

theorem nodup_rankedRows
    {initial : Database} {world : World}
    (tallied : Tallied initial world) (limit : Int) :
    (((rankedRows world limit).map (withCounter world.redis)).map
      Article.id).Nodup := by
  have distinct : (hotMembers world.redis limit).Nodup := by
    rw [hotMembers_eq]
    have sorted :=
      ((hotEntries world.redis).perm_insertionSort
        SortedSet.Before).map Prod.fst
    exact (sorted.nodup_iff.mpr (nodup_hotEntries world.redis)).sublist
      (List.take_sublist _ _)
  rw [← text_rankedRows tallied limit] at distinct
  apply List.Nodup.of_map decimal
  rw [List.map_map, List.map_map]
  exact distinct

/-! ## The order of the list -/

/-- The counters of the articles are below 2^31. -/
def CountersNarrow (world : World) : Prop :=
  ∀ article ∈ world.database.articles,
    counted world.redis (decimal article.id) < 2 ^ 31

instance (world : World) : Decidable (CountersNarrow world) :=
  inferInstanceAs
    (Decidable (∀ article ∈ world.database.articles, _))

theorem CountersNarrow.lt
    {world : World} (narrow : CountersNarrow world) {idStr : Text}
    {row : Article} {number : Int}
    (ranks : Ranks world idStr row number) :
    number < 2 ^ 31 := by
  have bound :=
    narrow row (Database.getArticleById_eq_some ranks.found).1
  rwa [← ranks.text_eq, counted_of_some ranks.present] at bound

theorem CountersNarrow.fit
    {initial : Database} {world : World}
    (narrow : CountersNarrow world)
    (tallied : Tallied initial world) (limit : Int) :
    HotCountersFit world.redis limit := by
  intro idStr listed number present
  rcases tallied.ranks_of_mem listed with ⟨row, other, ranks⟩
  have same : some other = some number :=
    ranks.present.symm.trans (Option.mem_def.mp present)
  cases same
  have positive := ranks.positive
  constructor
  · omega
  · exact narrow.lt ranks

/-- The ranking is in the order of the counters. -/
theorem pairwise_descending_counted
    {initial : Database} {world : World}
    (tallied : Tallied initial world) (narrow : CountersNarrow world) :
    (((hotEntries world.redis).insertionSort SortedSet.Before).map
      Prod.fst).Pairwise fun left right =>
        counted world.redis right ≤ counted world.redis left := by
  have scores :
      ∀ entry ∈ hotEntries world.redis,
        entry.2 = counted world.redis entry.1 := by
    intro entry listed
    rcases tallied.ranks listed with ⟨row, number, ranks⟩
    rcases tallied.members entry listed with
      ⟨id, other, -, -, present, score⟩
    have same : some number = some other :=
      ranks.present.symm.trans present
    cases same
    have bound := narrow.lt ranks
    have positive := ranks.positive
    rw [counted_of_some present, score (by omega),
      toDouble_of_lt (by omega) (by omega)]
  have sorted :
      (⟨hotEntries world.redis, nodup_hotEntries world.redis⟩ :
        SortedSet).descending.Pairwise fun left right =>
          counted world.redis right ≤ counted world.redis left :=
    SortedSet.pairwise_descending scores
  exact sorted

/-! ## What the ranking lists -/

/-- The first articles by counter, with the larger count of each. -/
structure ListsTop (world : World) (limit : Int)
    (listed : List Article) : Prop where
  size :
    listed.length =
      min (clampHotLimit limit).toNat (visitedArticles world).length
  distinct : (listed.map Article.id).Nodup
  shown :
    ∀ article ∈ listed, ∃ row ∈ world.database.articles,
      article =
        { row with
          viewCount :=
            max row.viewCount (counted world.redis (decimal row.id)) }
  top :
    ∀ article ∈ listed, ∀ other ∈ world.database.articles,
      other.id ∉ listed.map Article.id →
        counted world.redis (decimal other.id) ≤
          counted world.redis (decimal article.id)
  sorted :
    listed.Pairwise fun left right =>
      counted world.redis (decimal right.id) ≤
        counted world.redis (decimal left.id)

theorem text_withCounter (redis : Redis) (rows : List Article) :
    (rows.map (withCounter redis)).map
        (fun article => decimal article.id) =
      rows.map fun row => decimal row.id := by
  rw [List.map_map]
  rfl

/-- An opened article that is not among the first is behind them. -/
theorem counted_le_of_not_listed
    {initial : Database} {world : World}
    (tallied : Tallied initial world) (narrow : CountersNarrow world)
    {limit : Int} {idStr : Text}
    (listed : idStr ∈ hotMembers world.redis limit) {other : Article}
    (inTable : other ∈ world.database.articles)
    (outside : decimal other.id ∉ hotMembers world.redis limit) :
    counted world.redis (decimal other.id) ≤
      counted world.redis idStr := by
  have sorted := pairwise_descending_counted tallied narrow
  rw [← List.take_append_drop (clampHotLimit limit).toNat
      (((hotEntries world.redis).insertionSort SortedSet.Before).map
        Prod.fst),
    ← hotMembers_eq, List.pairwise_append] at sorted
  by_cases visited : 1 ≤ counted world.redis (decimal other.id)
  · apply sorted.2.2 idStr listed
    have ranked :
        decimal other.id ∈ (hotEntries world.redis).map Prod.fst := by
      rw [(perm_hotEntries tallied).mem_iff]
      exact List.mem_map_of_mem
        (List.mem_filter.mpr ⟨inTable, by simpa using visited⟩)
    rw [← ((hotEntries world.redis).perm_insertionSort
        SortedSet.Before |>.map Prod.fst).mem_iff,
      ← List.take_append_drop (clampHotLimit limit).toNat
        (((hotEntries world.redis).insertionSort SortedSet.Before).map
          Prod.fst),
      ← hotMembers_eq, List.mem_append] at ranked
    rcases ranked with among | behind
    · exact absurd among outside
    · exact behind
  · have nothing := nonnegative_counted tallied.ranked idStr
    omega

theorem listsTop_rankedRows
    {initial : Database} {world : World}
    (tallied : Tallied initial world) (narrow : CountersNarrow world)
    (limit : Int) :
    ListsTop world limit
      ((rankedRows world limit).map (withCounter world.redis)) := by
  have texts := text_rankedRows tallied limit
  have members :
      ((rankedRows world limit).map (withCounter world.redis)).map
          (fun article => decimal article.id) =
        hotMembers world.redis limit :=
    (text_withCounter _ _).trans texts
  have sorted := pairwise_descending_counted tallied narrow
  have listedOf {article : Article}
      (listed : article ∈
        (rankedRows world limit).map (withCounter world.redis)) :
      decimal article.id ∈ hotMembers world.redis limit := by
    rw [← members]
    exact List.mem_map_of_mem listed
  constructor
  · rw [List.length_map, length_rankedRows tallied,
      length_hotEntries tallied]
  · exact nodup_rankedRows tallied limit
  · intro article listed
    rcases List.mem_map.mp listed with ⟨row, ranked, rfl⟩
    exact ⟨row, (mem_rankedRows ranked).1, rfl⟩
  · intro article listed other inTable outside
    apply counted_le_of_not_listed tallied narrow (listedOf listed) inTable
    intro among
    rw [← members] at among
    rcases List.mem_map.mp among with ⟨same, isListed, equal⟩
    exact outside (List.mem_map.mpr
      ⟨same, isListed, decimal_injective equal⟩)
  · have first :
        (hotMembers world.redis limit).Pairwise fun left right =>
          counted world.redis right ≤ counted world.redis left := by
      rw [hotMembers_eq]
      exact sorted.sublist (List.take_sublist _ _)
    rw [← members] at first
    exact List.pairwise_map.mp first

/--
In every reachable state with a ranking and counters below 2^31, the request
returns the opened articles with the largest counters.
-/
theorem getHotArticles_listsTop
    (json : JsonLibrary) (database : Database) (clock : Nat → Text)
    (accepts : Nat → Bool) (events : List Event) (limit : Int)
    (narrow :
      CountersNarrow (runFrom json database clock accepts events))
    (nonempty :
      hotEntries (runFrom json database clock accepts events).redis ≠
        []) :
    let world := runFrom json database clock accepts events
    ∃ listed,
      (getHotArticles limit).run exec world =
          (.ok (hotResponse (listed.map listItem)), world) ∧
        ListsTop world limit listed := by
  intro world
  have tallied : Tallied database world :=
    tallied_runFrom json database clock accepts events
  refine ⟨_, ?_, listsTop_rankedRows tallied narrow limit⟩
  have something : hotMembers world.redis limit ≠ [] :=
    (hotMembers_eq_nil_iff world.redis limit).not.mpr nonempty
  rw [run_getHotArticles tallied, if_pos (narrow.fit tallied limit),
    hotArticles, if_pos something]

/-- Two articles, none of them opened yet. -/
def twoArticles : Database :=
  { seededDatabase with
    storedArticles := [{ id := 1, viewCount := 1280 }, { id := 2 }]
    storedArticleIds := by decide
    storedArticlesFit := by decide }

/-- Article 1 is opened, expires and is opened again; then article 2 is. -/
def openedTwice : List Event :=
  [.request (.getArticleDetail 1), .timeOut (articleCacheKey 1),
    .request (.getArticleDetail 1), .request (.getArticleDetail 2)]

/-- With counters 2 and 1 and room for one, the other article is left out. -/
theorem getHotArticles_listsTop_openedTwice :
    let world :=
      runFrom Json.compactLibrary twoArticles (fun _ => [])
        (fun _ => true) openedTwice
    counted world.redis (decimal 1) = 2 ∧
      counted world.redis (decimal 2) = 1 ∧
      ∃ listed,
        (getHotArticles 1).run exec world =
            (.ok (hotResponse (listed.map listItem)), world) ∧
          ListsTop world 1 listed := by
  refine ⟨by decide +kernel, by decide +kernel, ?_⟩
  exact getHotArticles_listsTop Json.compactLibrary twoArticles
    (fun _ => []) (fun _ => true) openedTwice 1 (by decide +kernel)
    (List.ne_nil_of_length_pos (by decide +kernel))

/-! ## Reading a response -/

/-- The entries of a list response. -/
def hotItems (response : Json) : List Json :=
  ((response.field? (text "data")).map Json.items).getD []

def itemId? (item : Json) : Option Int :=
  (item.field? (text "id")).bind Json.number?

def itemViews? (item : Json) : Option Int :=
  (item.field? (text "viewCount")).bind Json.number?

@[simp]
theorem hotItems_hotResponse (list : List Json) :
    hotItems (hotResponse list) = list := by
  rfl

@[simp]
theorem itemId?_listItem (article : Article) :
    itemId? (listItem article) = some article.id := by
  rfl

@[simp]
theorem itemViews?_listItem (article : Article) :
    itemViews? (listItem article) = some article.viewCount := by
  rfl

/-! ## The length of the list -/

/-- The request returns, and lists so many different articles. -/
def ListsDifferent (count : Nat) : Except StdException Json → Prop
  | .ok response =>
      (hotItems response).length = count ∧
        ((hotItems response).map itemId?).Nodup
  | .error _ => False

instance (count : Nat) :
    ∀ result : Except StdException Json,
      Decidable (ListsDifferent count result)
  | .ok _ => inferInstanceAs (Decidable (_ ∧ _))
  | .error _ => inferInstanceAs (Decidable False)

/-- The number of articles that the request has to list. -/
def askedArticles (database : Database) (limit : Int) : Nat :=
  min (clampHotLimit limit).toNat database.articles.length

theorem listsDifferent_iff
    {articles : List Article}
    (distinct : (articles.map Article.id).Nodup) (count : Nat) :
    ListsDifferent count
        (.ok (hotResponse (articles.map listItem))) ↔
      articles.length = count := by
  have ids :
      ((articles.map listItem).map itemId?).Nodup := by
    have options := distinct.map (Option.some_injective Int)
    rwa [List.map_map] at options ⊢
  rw [ListsDifferent, hotItems_hotResponse, List.length_map]
  exact and_iff_left ids

theorem nodup_getHotArticles (database : Database) (limit : Int) :
    ((database.getHotArticles limit).map Article.id).Nodup :=
  (((perm_orderBy _ _ _).map Article.id).nodup_iff.mpr
    database.articleIds).sublist ((List.take_sublist _ _).map Article.id)

/--
In every reachable state, the list is as long as it has to be if and only if
nothing is ranked, or enough articles are ranked and the counters of those
that are listed are read without an exception.
-/
theorem getHotArticles_listsDifferent_iff
    (json : JsonLibrary) (database : Database) (clock : Nat → Text)
    (accepts : Nat → Bool) (events : List Event) (limit : Int) :
    let world := runFrom json database clock accepts events
    let asked := askedArticles world.database limit
    ListsDifferent asked ((getHotArticles limit).run exec world).1 ↔
      hotEntries world.redis = [] ∨
        asked ≤ (hotEntries world.redis).length ∧
          HotCountersFit world.redis limit := by
  intro world asked
  have tallied : Tallied database world :=
    tallied_runFrom json database clock accepts events
  rw [run_getHotArticles tallied, hotArticles]
  by_cases empty : hotEntries world.redis = []
  · -- from the database
    have nobody := (hotMembers_eq_nil_iff world.redis limit).mpr empty
    have fits : HotCountersFit world.redis limit := by
      simp [HotCountersFit, nobody]
    rw [if_pos fits, if_neg (not_not.mpr nobody),
      listsDifferent_iff (nodup_getHotArticles _ _)]
    constructor
    · intro _
      exact Or.inl empty
    · intro _
      rw [Database.getHotArticles, List.length_take,
        (perm_orderBy _ _ _).length_eq]
      rfl
  · -- from the ranking
    have something := (hotMembers_eq_nil_iff world.redis limit).not.mpr empty
    have fewer : (hotEntries world.redis).length ≤
        world.database.articles.length := by
      rw [length_hotEntries tallied]
      exact List.length_filter_le _ _
    by_cases fits : HotCountersFit world.redis limit
    · rw [if_pos fits, if_pos something,
        listsDifferent_iff (nodup_rankedRows tallied limit),
        List.length_map, length_rankedRows tallied]
      simp only [empty, fits, false_or, and_true, asked, askedArticles]
      omega
    · rw [if_neg fits]
      constructor
      · intro impossible
        exact impossible.elim
      · rintro (nothing | ⟨-, narrow⟩)
        · exact absurd nothing empty
        · exact absurd narrow fits

/-- One of two articles is opened, and the other leaves the list. -/
theorem getHotArticles_short_after_visit :
    ¬ ListsDifferent
      (askedArticles
        (runFrom Json.compactLibrary twoArticles (fun _ => [])
          (fun _ => true) [.request (.getArticleDetail 1)]).database 10)
      ((getHotArticles 10).run exec
        (runFrom Json.compactLibrary twoArticles (fun _ => [])
          (fun _ => true) [.request (.getArticleDetail 1)])).1 := by
  decide +kernel

/-! ## The order of the view counts -/

/-- The request returns, and its view counts do not increase. -/
def ViewsDescend : Except StdException Json → Prop
  | .ok response =>
      ((hotItems response).filterMap itemViews?).Pairwise
        fun left right => right ≤ left
  | .error _ => False

instance :
    ∀ result : Except StdException Json, Decidable (ViewsDescend result)
  | .ok _ => inferInstanceAs (Decidable (List.Pairwise _ _))
  | .error _ => inferInstanceAs (Decidable False)

/--
No listed article has a column above both the column and the counter of an
article ranked before it.
-/
def ColumnsBehind (world : World) (limit : Int) : Prop :=
  (rankedRows world limit).Pairwise fun left right =>
    right.viewCount ≤
      max left.viewCount (counted world.redis (decimal left.id))

instance (world : World) (limit : Int) :
    Decidable (ColumnsBehind world limit) :=
  inferInstanceAs (Decidable (List.Pairwise _ _))

theorem viewsDescend_iff (articles : List Article) :
    ViewsDescend (.ok (hotResponse (articles.map listItem))) ↔
      articles.Pairwise fun left right =>
        right.viewCount ≤ left.viewCount := by
  have views :
      (articles.map listItem).filterMap itemViews? =
        articles.map Article.viewCount := by
    rw [List.filterMap_map]
    have each : itemViews? ∘ listItem = some ∘ Article.viewCount := by
      ext article : 1
      exact itemViews?_listItem article
    rw [each, List.filterMap_eq_map]
  rw [ViewsDescend, hotItems_hotResponse, views, List.pairwise_map]

theorem viewsDescend_getHotArticles (database : Database) (limit : Int) :
    ViewsDescend
      (.ok (hotResponse
        ((database.getHotArticles limit).map listItem))) := by
  rw [viewsDescend_iff]
  apply List.Pairwise.sublist (List.take_sublist _ _)
  refine (pairwise_orderBy _ _ _).imp ?_
  rintro left right (greater | ⟨equal, -⟩)
  · exact Int.le_of_lt greater
  · exact Int.le_of_eq equal.symm

/--
In every reachable state with counters below 2^31, the view counts of the list
do not increase if and only if no column is ahead of the ranking.
-/
theorem getHotArticles_viewsDescend_iff
    (json : JsonLibrary) (database : Database) (clock : Nat → Text)
    (accepts : Nat → Bool) (events : List Event) (limit : Int)
    (narrow :
      CountersNarrow (runFrom json database clock accepts events)) :
    let world := runFrom json database clock accepts events
    ViewsDescend ((getHotArticles limit).run exec world).1 ↔
      ColumnsBehind world limit := by
  intro world
  have tallied : Tallied database world :=
    tallied_runFrom json database clock accepts events
  rw [run_getHotArticles tallied, if_pos (narrow.fit tallied limit),
    hotArticles]
  by_cases empty : hotMembers world.redis limit = []
  · rw [if_neg (not_not.mpr empty)]
    constructor
    · intro _
      rw [ColumnsBehind, rankedRows, empty]
      exact List.Pairwise.nil
    · intro _
      exact viewsDescend_getHotArticles _ _
  · rw [if_pos empty, viewsDescend_iff, List.pairwise_map, ColumnsBehind]
    have sorted :=
      List.pairwise_map.mp (listsTop_rankedRows tallied narrow limit).sorted
    constructor
    · intro descends
      refine descends.imp ?_
      intro left right atMost
      exact (le_max_left _ _).trans atMost
    · intro behind
      refine (behind.and sorted).imp ?_
      rintro left right ⟨column, counter⟩
      exact max_le column (counter.trans (le_max_right _ _))

/-- The article with more views is also the one opened more often. -/
theorem getHotArticles_viewsDescend_same_order :
    ViewsDescend
      ((getHotArticles 10).run exec
        (runFrom Json.compactLibrary twoArticles (fun _ => [])
          (fun _ => true)
          [.request (.getArticleDetail 1),
            .timeOut (articleCacheKey 1),
            .request (.getArticleDetail 1),
            .request (.getArticleDetail 2)])).1 :=
  (getHotArticles_viewsDescend_iff Json.compactLibrary twoArticles
    (fun _ => []) (fun _ => true)
    [.request (.getArticleDetail 1), .timeOut (articleCacheKey 1),
      .request (.getArticleDetail 1), .request (.getArticleDetail 2)] 10
    (by decide +kernel)).mpr (by decide +kernel)

/-- The second article is opened twice, and listed before 1280 views. -/
theorem getHotArticles_views_ascend :
    ¬ ViewsDescend
      ((getHotArticles 10).run exec
        (runFrom Json.compactLibrary twoArticles (fun _ => [])
          (fun _ => true)
          [.request (.getArticleDetail 1),
            .request (.getArticleDetail 2),
            .timeOut (articleCacheKey 2),
            .request (.getArticleDetail 2)])).1 := by
  decide +kernel

end LightningServer.Service
