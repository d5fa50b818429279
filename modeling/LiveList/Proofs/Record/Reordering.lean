import LiveList.Proofs.View.Redraw

namespace LiveList

namespace Collection

/-- A collection has the records of an earlier one, those that an order lists first, each where the
order has it for the first time, and the others behind them as they were. -/
structure Rearranges (order : List Nat) (c c' : Collection) : Prop where
  next : c'.next = c.next
  get? : ∀ index, c'.get? index = c.get? index
  indices : c'.indices =
    (order.filter c.contains).eraseDups ++ c.indices.filter fun index => index ∉ order

variable {c c' : Collection} {order : List Nat} {index : Nat}

theorem contains_remove (m : OrderedMap Nat Record) (first index : Nat) :
    OrderedMap.contains (OrderedMap.remove m first) index =
      (!(index == first) && OrderedMap.contains m index) := by
  rw [OrderedMap.contains, OrderedMap.get?_remove, OrderedMap.contains]
  by_cases same : first = index
  · simp [same]
  · simp [same, Ne.symm same]

theorem keys_picked (order : List Nat) (m : OrderedMap Nat Record) :
    OrderedMap.keys (pick order m).1 = (order.filter (OrderedMap.contains m)).eraseDups := by
  induction order generalizing m with
  | nil => rfl
  | cons first rest ih =>
    rw [pick]
    split
    case h_1 missing =>
      rw [ih, List.filter_cons_of_neg (by simp [OrderedMap.contains, missing])]
    case h_2 record found =>
      have there : OrderedMap.contains m first = true := by simp [OrderedMap.contains, found]
      have others : rest.filter (OrderedMap.contains (OrderedMap.remove m first)) =
          (rest.filter (OrderedMap.contains m)).filter fun index => !(index == first) := by
        rw [List.filter_filter]
        exact List.filter_congr fun index _ => contains_remove m first index
      rw [List.filter_cons_of_pos there, List.eraseDups_cons, ← others, ← ih]
      rfl

theorem left_of_pick (order : List Nat) (m : OrderedMap Nat Record) :
    (pick order m).2 = m.filter fun entry => entry.1 ∉ order := by
  induction order generalizing m with
  | nil => simp [pick]
  | cons first rest ih =>
    rw [pick]
    split
    case h_1 missing =>
      have absent := OrderedMap.get?_eq_none_iff.1 missing
      rw [ih]
      refine List.filter_congr fun entry inside => ?_
      have differ : entry.1 ≠ first := fun same => absent (same ▸ OrderedMap.mem_keys_of_mem inside)
      simp [differ]
    case h_2 record found =>
      have less : (pick rest (OrderedMap.remove m first)).2 = _ := ih _
      rw [less, OrderedMap.remove, List.filter_filter]
      refine List.filter_congr fun entry _ => ?_
      by_cases same : entry.1 = first <;> simp [same]

theorem get?_pick (order : List Nat) (m : OrderedMap Nat Record) (index : Nat) :
    OrderedMap.get? ((pick order m).1 ++ (pick order m).2) index = OrderedMap.get? m index := by
  induction order generalizing m with
  | nil => rfl
  | cons first rest ih =>
    rw [pick]
    split
    · exact ih m
    case h_2 record found =>
      have less := ih (OrderedMap.remove m first)
      rw [OrderedMap.get?_remove] at less
      rw [List.cons_append, OrderedMap.get?]
      by_cases same : first = index
      · simp [← same, found]
      · simpa [same] using less

theorem reorder_rearranges (c : Collection) (order : List Nat) :
    Rearranges order c (c.reorder order) where
  next := rfl
  get? := get?_pick order c.records
  indices := by
    have left : OrderedMap.keys (pick order c.records).2 =
        c.indices.filter fun index => index ∉ order := by
      rw [left_of_pick, indices, OrderedMap.keys, OrderedMap.keys, List.filter_map]
      rfl
    have whole : (c.reorder order).indices =
        OrderedMap.keys (pick order c.records).1 ++ OrderedMap.keys (pick order c.records).2 :=
      List.map_append
    rw [whole, keys_picked, left]
    rfl

theorem mem_arrangedOrder (known : index ∈ c.indices) : index ∈ Patch.arrangedOrder c order := by
  rw [Patch.arrangedOrder, List.mem_append, List.mem_filter, List.mem_filter, contains_iff]
  by_cases listed : index ∈ order <;> simp [listed, known]

theorem eraseDups_of_nodup {list : List Nat} (distinct : list.Nodup) : list.eraseDups = list := by
  induction list with
  | nil => rfl
  | cons first rest ih =>
    obtain ⟨absent, distinct⟩ := List.nodup_cons.1 distinct
    have others : (rest.filter fun index => !(index == first)) = rest :=
      List.filter_eq_self.2 fun index inside => by
        have differ : index ≠ first := fun same => absent (same ▸ inside)
        simp [differ]
    rw [List.eraseDups_cons, others, ih distinct]

/-- Completing an order and reordering by the whole comes to the same as reordering by the order. -/
theorem reorder_arrangedOrder (distinct : c.indices.Nodup) (order : List Nat) :
    Rearranges order c (c.reorder (Patch.arrangedOrder c order)) := by
  have others : (c.indices.filter fun index => !(order.filter c.contains).contains index) =
      c.indices.filter fun index => index ∉ order :=
    List.filter_congr fun index inside => by
      simp [contains_iff.2 inside]
  have arranged : Patch.arrangedOrder c order =
      order.filter c.contains ++ c.indices.filter fun index => index ∉ order := by
    rw [Patch.arrangedOrder, others]
  have known : (Patch.arrangedOrder c order).filter c.contains = Patch.arrangedOrder c order :=
    List.filter_eq_self.2 fun index inside => by
      rw [arranged, List.mem_append, List.mem_filter, List.mem_filter] at inside
      exact inside.elim And.right fun there => contains_iff.2 there.1
  have none : (c.indices.filter fun index => index ∉ Patch.arrangedOrder c order) = [] :=
    List.filter_eq_nil_iff.2 fun index inside => by
      by_cases listed : index ∈ order <;> simp [arranged, listed, inside, contains_iff.2 inside]
  have apart : List.removeAll (c.indices.filter fun index => index ∉ order)
      (order.filter c.contains) = c.indices.filter fun index => index ∉ order :=
    List.filter_eq_self.2 fun index inside => by
      have absent := (List.mem_filter.1 inside).2
      simp_all
  obtain ⟨next, get?, listed⟩ := reorder_rearranges c (Patch.arrangedOrder c order)
  refine ⟨next, get?, ?_⟩
  rw [listed, known, none, List.append_nil, arranged, List.eraseDups_append, apart,
    eraseDups_of_nodup (distinct.filter _)]

theorem Rearranges.indices_of_perm (rearranges : Rearranges order c c') (distinct : c.indices.Nodup)
    (perm : order.Perm c.indices) : c'.indices = order := by
  have known : order.filter c.contains = order :=
    List.filter_eq_self.2 fun index inside => contains_iff.2 (perm.mem_iff.1 inside)
  have none : (c.indices.filter fun index => index ∉ order) = [] :=
    List.filter_eq_nil_iff.2 fun index inside => by simp [perm.mem_iff.2 inside]
  rw [rearranges.indices, known, none, List.append_nil, eraseDups_of_nodup (perm.nodup_iff.2 distinct)]

theorem sortedIndices_perm (c : Collection) (compare : Record → Record → Ordering) :
    (c.sortedIndices compare).Perm c.indices :=
  (List.mergeSort_perm _ _).map Prod.fst

theorem Sound.sortedIndices_ascending (sound : c.Sound) :
    (c.sortedIndices fun a b => compare a.index b.index).Pairwise (· < ·) := by
  have sorted : (c.records.mergeSort fun a b => compare a.2.index b.2.index != .gt).Pairwise
      fun a b => (compare a.2.index b.2.index).isLE := by
    have same : ∀ a b : Nat × Record, (compare a.2.index b.2.index != .gt) =
        (compare a.2.index b.2.index).isLE := fun a b => by
      cases compare a.2.index b.2.index <;> rfl
    simp only [same]
    refine List.pairwise_mergeSort (fun a b c => Std.TransCmp.isLE_trans) (fun a b => ?_) _
    have turned : compare b.2.index a.2.index = (compare a.2.index b.2.index).swap :=
      Std.OrientedCmp.eq_swap
    rw [turned]
    cases compare a.2.index b.2.index <;> rfl
  have once : (c.sortedIndices fun a b => compare a.index b.index).Nodup :=
    (sortedIndices_perm c _).nodup_iff.2 sound.nodup
  have least : (c.sortedIndices fun a b => compare a.index b.index).Pairwise (· ≤ ·) := by
    rw [sortedIndices, List.pairwise_map]
    refine sorted.imp_of_mem fun {a b} insideA insideB before => ?_
    have carries : ∀ entry ∈ c.records, entry.2.index = some entry.1 :=
      fun entry inside => (sound.carried entry.1 entry.2 inside).given
    rw [carries a (List.mem_mergeSort.1 insideA), carries b (List.mem_mergeSort.1 insideB)] at before
    exact Nat.isLE_compare.1 before
  exact (least.and once).imp fun {a b} both => Nat.lt_of_le_of_ne both.1 both.2

end Collection

end LiveList
