import Mathlib.Data.List.Nodup
import Mathlib.Data.List.Perm.Basic
import Mathlib.Order.Lattice

/-!
# Pages of a list

A list is cut into pages of one size.  The pages of one list are the list
again.  Where each page is cut from a list of its own, all of them the same
rows in an order that descends in a column, the pages are the rows again
whatever the orders are exactly when rows with the same value in the column
never lie on both sides of a cut.
-/

namespace LightningServer.Foundation.Paging

variable {Row : Type}

/-! ## Cutting a list -/

/-- The page with this index, from 0 on. -/
def page (size : Nat) (rows : List Row) (index : Nat) : List Row :=
  (rows.drop (index * size)).take size

/-- The number of pages, the quotient rounded up. -/
def pageCount (length size : Nat) : Nat :=
  (length + size - 1) / size

section Cut

variable {size : Nat} {rows : List Row} {index : Nat}

theorem lt_pageCount_iff {length : Nat} (positive : 0 < size) :
    index < pageCount length size ↔ index * size < length := by
  rw [pageCount, ← Nat.succ_le_iff, Nat.le_div_iff_mul_le positive,
    Nat.succ_mul]
  omega

/-- The first pages hold the first rows. -/
theorem flatMap_page (size count : Nat) (rows : List Row) :
    (List.range count).flatMap (page size rows) =
      rows.take (count * size) := by
  induction count with
  | zero => simp
  | succ count induction =>
      rw [List.range_succ, List.flatMap_append, induction, Nat.succ_mul,
        List.take_add]
      simp [page]

/-- The pages of a list are the list. -/
theorem flatMap_pages (positive : 0 < size) (rows : List Row) :
    (List.range (pageCount rows.length size)).flatMap (page size rows) =
      rows := by
  rw [flatMap_page]
  apply List.take_of_length_le
  exact Nat.not_lt.mp fun more =>
    absurd ((lt_pageCount_iff positive).mpr more) (lt_irrefl _)

/-- A page that ends inside the list is full. -/
theorem length_page (full : (index + 1) * size ≤ rows.length) :
    (page size rows index).length = size := by
  rw [Nat.succ_mul] at full
  simp only [page, List.length_take, List.length_drop]
  omega

/-- A page past the end has no rows. -/
theorem page_eq_nil (past : rows.length ≤ index * size) :
    page size rows index = [] := by
  rw [page, List.drop_eq_nil_of_le past, List.take_nil]

theorem mem_page_iff {row : Row} (positive : 0 < size) :
    row ∈ page size rows index ↔
      ∃ position, position / size = index ∧ rows[position]? = some row := by
  rw [page, List.mem_iff_getElem?]
  constructor
  · rintro ⟨offset, found⟩
    rw [List.getElem?_take] at found
    by_cases within : offset < size
    · rw [if_pos within, List.getElem?_drop] at found
      refine ⟨index * size + offset, ?_, found⟩
      rw [Nat.mul_comm, Nat.mul_add_div positive,
        Nat.div_eq_of_lt within, Nat.add_zero]
    · rw [if_neg within] at found
      cases found
  · rintro ⟨position, rfl, found⟩
    refine ⟨position % size, ?_⟩
    rw [List.getElem?_take, if_pos (Nat.mod_lt _ positive),
      List.getElem?_drop, Nat.div_add_mod', found]

end Cut

/-! ## Rows in descending order -/

section Order

variable {Key : Type} [LinearOrder Key]

/-- The number of rows with a greater value than this one. -/
def above (column : Row → Key) (rows : List Row) (row : Row) : Nat :=
  rows.countP fun other => column row < column other

/-- The number of rows with the same value as this one. -/
def level (column : Row → Key) (rows : List Row) (row : Row) : Nat :=
  rows.countP fun other => column other = column row

/-- The rows, in some order that descends in the column. -/
structure IsOrder (column : Row → Key) (rows order : List Row) : Prop where
  perm : order.Perm rows
  descends :
    order.Pairwise fun left right => column right ≤ column left

variable {column : Row → Key} {rows order : List Row}

theorem above_add_level (rows : List Row) (row : Row) :
    above column rows row + level column rows row =
      rows.countP fun other => column row ≤ column other := by
  rw [above, level]
  induction rows with
  | nil => rfl
  | cons other rest induction =>
      rw [List.countP_cons, List.countP_cons, List.countP_cons,
        ← induction]
      rcases lt_trichotomy (column row) (column other) with
        greater | equal | less
      · simp [greater, greater.le, greater.ne']
        omega
      · simp [equal]
        omega
      · simp [less.ne, not_lt.mpr less.le, not_le.mpr less]

/-- The positions that a row can have are the same in every order. -/
theorem IsOrder.position_range
    (isOrder : IsOrder column rows order) {row : Row} {position : Nat}
    (found : order[position]? = some row) :
    above column rows row ≤ position ∧
      position < above column rows row + level column rows row := by
  rcases List.getElem?_eq_some_iff.mp found with ⟨inside, rfl⟩
  have split :
      order =
        order.take position ++
          order[position] :: order.drop (position + 1) := by
    rw [← List.drop_eq_getElem_cons, List.take_append_drop]
  have sorted := isOrder.descends
  rw [split, List.pairwise_append] at sorted
  rcases sorted with ⟨-, behind, between⟩
  have front : (order.take position).length = position := by
    simp only [List.length_take]
    omega
  constructor
  · -- nothing from here on is greater
    have greater :
        (order[position] :: order.drop (position + 1)).countP
          (fun other => column order[position] < column other) = 0 := by
      rw [List.countP_eq_zero]
      intro other member
      simp only [decide_eq_true_eq, not_lt]
      rcases List.mem_cons.mp member with rfl | later
      · exact le_refl _
      · exact (List.pairwise_cons.mp behind).1 other later
    rw [above, ← isOrder.perm.countP_eq]
    conv =>
      enter [1, 2]
      rw [split]
    rw [List.countP_append, greater, Nat.add_zero]
    exact List.countP_le_length.trans_eq front
  · -- everything up to here is greater or the same
    have reaches :
        ∀ other ∈ order.take position ++ [order[position]],
          decide (column order[position] ≤ column other) = true := by
      intro other member
      rw [decide_eq_true_eq]
      rcases List.mem_append.mp member with early | same
      · exact between other early _ List.mem_cons_self
      · rw [List.mem_singleton.mp same]
    rw [above_add_level, ← isOrder.perm.countP_eq]
    conv =>
      enter [2, 2]
      rw [split]
    rw [← List.singleton_append, ← List.append_assoc, List.countP_append,
      List.countP_eq_length.mpr reaches, List.length_append, front,
      List.length_singleton]
    omega

/-- The value at these positions is the same in every order. -/
theorem IsOrder.column_eq
    (isOrder : IsOrder column rows order) {row other : Row}
    {position : Nat} (found : order[position]? = some other)
    (low : above column rows row ≤ position)
    (high : position < above column rows row + level column rows row) :
    column other = column row := by
  have range := isOrder.position_range found
  have apart (lesser greater : Row)
      (less : column lesser < column greater) :
      above column rows greater + level column rows greater ≤
        above column rows lesser := by
    rw [above_add_level, above]
    apply List.countP_mono_left
    intro next _ reaches
    rw [decide_eq_true_eq] at reaches ⊢
    exact less.trans_le reaches
  rcases lt_trichotomy (column other) (column row) with
    less | equal | greater
  · have := apart other row less
    omega
  · exact equal
  · have := apart row other greater
    omega

end Order

/-! ## Pages that are cut from different orders -/

section Partition

variable {Key : Type} [LinearOrder Key]
variable {column : Row → Key} {rows order : List Row} {size : Nat}

/-- The rows with the same value as this one all lie on one page. -/
def OnOnePage (size : Nat) (column : Row → Key) (rows : List Row) : Prop :=
  ∀ row ∈ rows,
    above column rows row / size =
      (above column rows row + level column rows row - 1) / size

instance (size : Nat) (column : Row → Key) (rows : List Row) :
    Decidable (OnOnePage size column rows) :=
  inferInstanceAs (Decidable (∀ row ∈ rows, _ = _))

theorem mem_page_of_onOnePage
    (positive : 0 < size) (isOrder : IsOrder column rows order)
    (whole : OnOnePage size column rows) {row : Row} {index : Nat} :
    row ∈ page size order index ↔
      row ∈ rows ∧ above column rows row / size = index := by
  have onPage {position : Nat} (found : order[position]? = some row) :
      position / size = above column rows row / size := by
    have inRows : row ∈ rows :=
      isOrder.perm.mem_iff.mp (List.mem_of_getElem? found)
    rcases isOrder.position_range found with ⟨low, high⟩
    apply le_antisymm
    · rw [whole row inRows]
      exact Nat.div_le_div_right (by omega)
    · exact Nat.div_le_div_right low
  rw [mem_page_iff positive]
  constructor
  · rintro ⟨position, rfl, found⟩
    exact ⟨isOrder.perm.mem_iff.mp (List.mem_of_getElem? found),
      (onPage found).symm⟩
  · rintro ⟨inRows, rfl⟩
    rcases List.mem_iff_getElem?.mp (isOrder.perm.mem_iff.mpr inRows) with
      ⟨position, found⟩
    exact ⟨position, onPage found, found⟩

/-- Whatever the orders are, the pages are the rows. -/
theorem perm_pages
    (positive : 0 < size) (distinct : rows.Nodup)
    (whole : OnOnePage size column rows) {orders : Nat → List Row}
    (areOrders : ∀ index, IsOrder column rows (orders index)) :
    ((List.range (pageCount rows.length size)).flatMap fun index =>
      page size (orders index) index).Perm rows := by
  have nodup (index other : Nat) :
      (page size (orders index) other).Nodup :=
    ((areOrders index).perm.nodup_iff.mpr distinct).sublist
      ((List.take_sublist ..).trans (List.drop_sublist ..))
  have same (index : Nat) :
      (page size (orders index) index).Perm (page size (orders 0) index) := by
    rw [List.perm_ext_iff_of_nodup (nodup index index) (nodup 0 index)]
    intro row
    rw [mem_page_of_onOnePage positive (areOrders index) whole,
      mem_page_of_onOnePage positive (areOrders 0) whole]
  have pages := flatMap_pages positive (orders 0)
  rw [(areOrders 0).perm.length_eq] at pages
  have step := List.Perm.flatMap_left
    (List.range (pageCount rows.length size)) fun index _ => same index
  rw [pages] at step
  exact step.trans (areOrders 0).perm

/-- Two neighbours with the same value may stand either way round. -/
theorem IsOrder.swap
    {front back : List Row} {first second : Row}
    (isOrder : IsOrder column rows (front ++ first :: second :: back))
    (equal : column first = column second) :
    IsOrder column rows (front ++ second :: first :: back) where
  perm :=
    ((List.Perm.swap first second back).append_left front).trans
      isOrder.perm
  descends := by
    have sorted := isOrder.descends
    rw [← List.pairwise_map (R := fun left right => right ≤ left)]
      at sorted ⊢
    simpa [equal] using sorted

/-- Otherwise some cut has rows with the same value on both sides. -/
theorem exists_cut
    (positive : 0 < size) (isOrder : IsOrder column rows order)
    (cut : ¬ OnOnePage size column rows) :
    ∃ index front first second back,
      order = front ++ first :: second :: back ∧
        column first = column second ∧
          front.length + 1 = (index + 1) * size := by
  rw [OnOnePage] at cut
  push Not at cut
  rcases cut with ⟨row, inRows, differ⟩
  have itself : 0 < level column rows row :=
    List.countP_pos_iff.mpr ⟨row, inRows, by simp⟩
  have ordered :
      above column rows row / size ≤
        (above column rows row + level column rows row - 1) / size :=
    Nat.div_le_div_right (by omega)
  have fits :
      above column rows row + level column rows row ≤ order.length := by
    rw [above_add_level, isOrder.perm.length_eq]
    exact List.countP_le_length
  generalize isNext :
    (above column rows row + level column rows row - 1) / size = next
      at differ ordered
  have earlier : above column rows row < next * size :=
    (Nat.div_lt_iff_lt_mul positive).mp (lt_of_le_of_ne ordered differ)
  have later :
      next * size ≤ above column rows row + level column rows row - 1 := by
    rw [← isNext]
    exact Nat.div_mul_le_self _ _
  cases next with
  | zero => omega
  | succ index =>
      obtain ⟨place, isPlace⟩ : ∃ place, (index + 1) * size = place + 1 :=
        Nat.exists_eq_succ_of_ne_zero (by omega)
      have first :=
        List.getElem?_eq_getElem (l := order) (i := place) (by omega)
      have second :=
        List.getElem?_eq_getElem (l := order) (i := place + 1) (by omega)
      have low : above column rows row ≤ place := by omega
      refine ⟨index, order.take place, _, _, order.drop (place + 2), ?_,
        (isOrder.column_eq first low (by omega)).trans
          (isOrder.column_eq second (low.trans (Nat.le_succ _))
            (by omega)).symm, ?_⟩
      · rw [← List.drop_eq_getElem_cons, ← List.drop_eq_getElem_cons,
          List.take_append_drop]
      · rw [List.length_take, isPlace]
        omega

/--
Rows with the same value on both sides of a cut: where these two change
places, one of them is on both pages.
-/
theorem exists_repeating_pages
    (positive : 0 < size) (isOrder : IsOrder column rows order)
    (cut : ¬ OnOnePage size column rows) :
    ∃ orders : Nat → List Row,
      (∀ index, IsOrder column rows (orders index)) ∧
        ¬ ((List.range (pageCount rows.length size)).flatMap fun index =>
            page size (orders index) index).Nodup := by
  rcases exists_cut positive isOrder cut with
    ⟨index, front, first, second, back, rfl, equal, isCut⟩
  have inside : (index + 1) * size < rows.length := by
    rw [← isOrder.perm.length_eq, ← isCut]
    simp
  let orders (other : Nat) : List Row :=
    if other = index then front ++ first :: second :: back
    else front ++ second :: first :: back
  refine ⟨orders, ?_, ?_⟩
  · intro other
    by_cases same : other = index
    · simpa only [orders, if_pos same] using isOrder
    · simpa only [orders, if_neg same] using isOrder.swap equal
  · intro nodup
    have apart := (List.nodup_flatMap.mp nodup).2
    have disjoint := List.pairwise_iff_getElem.mp apart index (index + 1)
      (by simpa using (lt_pageCount_iff positive).mpr (by
        rw [Nat.succ_mul] at inside
        omega))
      (by simpa using (lt_pageCount_iff positive).mpr inside)
      (Nat.lt_succ_self index)
    rw [List.getElem_range, List.getElem_range] at disjoint
    refine disjoint (a := first) ?_ ?_
    · refine (mem_page_iff positive).mpr ⟨front.length, ?_, ?_⟩
      · rw [Nat.succ_mul] at isCut
        rw [Nat.div_eq_iff positive]
        omega
      · simp [orders]
    · refine (mem_page_iff positive).mpr ⟨front.length + 1, ?_, ?_⟩
      · rw [isCut, Nat.mul_div_cancel _ positive]
      · simp [orders]

end Partition

end LightningServer.Foundation.Paging
