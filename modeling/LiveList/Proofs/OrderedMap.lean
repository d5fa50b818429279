import LiveList.OrderedMap
import Mathlib.Data.List.Flatten
import Mathlib.Data.List.Nodup
import Mathlib.Data.List.Perm.Subperm

namespace LiveList.OrderedMap

variable {α β : Type} [DecidableEq α] {m m' : OrderedMap α β} {k k' : α} {v : β}

omit [DecidableEq α] in
theorem mem_keys_of_mem (inside : (k, v) ∈ m) : k ∈ keys m :=
  List.mem_map_of_mem inside

theorem mem_of_get? (found : get? m k = some v) : (k, v) ∈ m := by
  induction m with
  | nil => simp [get?] at found
  | cons entry rest ih =>
    obtain ⟨key, value⟩ := entry
    rw [get?] at found
    split at found
    case isTrue same =>
      rw [Option.some.injEq] at found
      simp [same, found]
    case isFalse => exact List.mem_cons_of_mem _ (ih found)

theorem get?_eq_some_iff (nodup : (keys m).Nodup) : get? m k = some v ↔ (k, v) ∈ m := by
  refine ⟨mem_of_get?, ?_⟩
  intro inside
  induction m with
  | nil => simp at inside
  | cons entry rest ih =>
    obtain ⟨key, value⟩ := entry
    rw [keys, List.map_cons, List.nodup_cons] at nodup
    rw [List.mem_cons, Prod.mk.injEq] at inside
    rcases inside with ⟨rfl, rfl⟩ | inside
    · simp [get?]
    · have differ : key ≠ k := fun same => nodup.1 (same ▸ mem_keys_of_mem inside)
      rw [get?, if_neg differ]
      exact ih nodup.2 inside

theorem get?_eq_none_iff : get? m k = none ↔ k ∉ keys m := by
  induction m with
  | nil => simp [get?, keys]
  | cons entry rest ih =>
    obtain ⟨key, value⟩ := entry
    by_cases same : key = k
    · simp [get?, keys, same]
    · simpa [get?, keys, same, Ne.symm same] using ih

theorem contains_iff : contains m k = true ↔ k ∈ keys m := by
  rw [← not_iff_not, ← get?_eq_none_iff, contains]
  simp

theorem exists_get?_of_mem (inside : k ∈ keys m) : ∃ v, get? m k = some v := by
  have there := contains_iff.2 inside
  exact Option.isSome_iff_exists.1 there

theorem mem_keys_of_get? (found : get? m k = some v) : k ∈ keys m :=
  mem_keys_of_mem (mem_of_get? found)

theorem get?_of_perm (perm : m.Perm m') (nodup : (keys m).Nodup) (k : α) :
    get? m' k = get? m k := by
  have nodup' : (keys m').Nodup := (perm.map Prod.fst).nodup_iff.1 nodup
  apply Option.ext
  intro v
  rw [get?_eq_some_iff nodup, get?_eq_some_iff nodup', perm.mem_iff]

theorem put_of_not_mem (absent : k ∉ keys m) (v : β) : put m k v = m ++ [(k, v)] := by
  induction m with
  | nil => rfl
  | cons entry rest ih =>
    obtain ⟨key, value⟩ := entry
    simp only [keys, List.map_cons, List.mem_cons, not_or] at absent
    rw [put, if_neg (Ne.symm absent.1), ih absent.2, List.cons_append]

theorem put_of_mem_append (nodup : (keys (m ++ (k, v) :: m')).Nodup) (new : β) :
    put (m ++ (k, v) :: m') k new = m ++ (k, new) :: m' := by
  induction m with
  | nil => simp [put]
  | cons entry rest ih =>
    obtain ⟨key, value⟩ := entry
    simp only [keys, List.cons_append, List.map_cons, List.nodup_cons] at nodup
    have differ : key ≠ k := fun same => nodup.1 (by simp [same])
    rw [List.cons_append, put, if_neg differ, ih nodup.2, List.cons_append]

theorem perm_of_get? (nodup : (keys m).Nodup) (nodup' : (keys m').Nodup)
    (same : ∀ k, get? m k = get? m' k) : m.Perm m' := by
  refine (List.perm_ext_iff_of_nodup nodup.of_map nodup'.of_map).2 fun entry => ?_
  rw [← get?_eq_some_iff nodup, ← get?_eq_some_iff nodup', same]

theorem filterMap_keys (nodup : (keys m).Nodup) :
    (keys m).filterMap (fun k => (get? m k).map (k, ·)) = m := by
  have each : ∀ entry ∈ m, (get? m entry.1).map (entry.1, ·) = some entry := fun entry inside => by
    rw [(get?_eq_some_iff nodup).2 inside, Option.map_some]
  rw [keys, List.filterMap_map]
  exact (List.filterMap_congr each).trans List.filterMap_some

theorem ext_of_keys (nodup : (keys m).Nodup) (sameKeys : keys m' = keys m)
    (same : ∀ k, get? m' k = get? m k) : m' = m := by
  rw [← filterMap_keys (m := m') (sameKeys ▸ nodup), sameKeys]
  simp only [same]
  exact filterMap_keys nodup

theorem put_perm (perm : m.Perm m') (nodup : (keys m).Nodup) (k : α) (v : β) :
    (put m k v).Perm (put m' k v) := by
  have nodup' : (keys m').Nodup := (perm.map Prod.fst).nodup_iff.1 nodup
  refine perm_of_get? (nodup_keys_put m k v nodup) (nodup_keys_put m' k v nodup') fun other => ?_
  rw [get?_put, get?_put, get?_of_perm perm nodup]

theorem mem_put {entry : α × β} (inside : entry ∈ put m k v) : entry ∈ m ∨ entry = (k, v) := by
  induction m with
  | nil => exact .inr (by simpa [put] using inside)
  | cons first rest ih =>
    rw [put] at inside
    split at inside <;> rcases List.mem_cons.1 inside with rfl | later
    · next same => exact .inr (by rw [same])
    · exact .inl (List.mem_cons_of_mem _ later)
    · exact .inl List.mem_cons_self
    · exact (ih later).imp_left (List.mem_cons_of_mem _)

theorem put_put (m : OrderedMap α β) (k : α) (v new : β) : put (put m k v) k new = put m k new := by
  induction m with
  | nil => simp [put]
  | cons entry rest ih =>
    obtain ⟨key, value⟩ := entry
    by_cases same : key = k <;> simp [put, same, ih]

theorem remove_of_not_mem (absent : k ∉ keys m) : remove m k = m := by
  apply List.filter_eq_self.2
  intro entry inside
  rw [decide_eq_true_eq]
  rintro rfl
  exact absent (List.mem_map_of_mem inside)

theorem keys_remove (m : OrderedMap α β) (k : α) : keys (remove m k) = (keys m).filter (· ≠ k) := by
  rw [keys, remove, keys, List.filter_map]
  rfl

theorem remove_perm (perm : m.Perm m') (k : α) : (remove m k).Perm (remove m' k) :=
  perm.filter _

theorem remove_append_of_nodup (nodup : (keys (m ++ (k, v) :: m')).Nodup) :
    remove (m ++ (k, v) :: m') k = m ++ m' := by
  simp only [keys, List.map_append, List.map_cons, List.nodup_append, List.nodup_cons] at nodup
  obtain ⟨-, ⟨absent', -⟩, apart⟩ := nodup
  have absent : k ∉ keys m := fun inside => apart k inside k List.mem_cons_self rfl
  have left := remove_of_not_mem absent
  have right := remove_of_not_mem absent'
  unfold remove at left right ⊢
  rw [List.filter_append, List.filter_cons_of_neg (by simp), left, right]

theorem exists_append_of_get? (nodup : (keys m).Nodup) (found : get? m k = some v) :
    ∃ before behind, m = before ++ (k, v) :: behind :=
  List.append_of_mem ((get?_eq_some_iff nodup).1 found)

theorem putAll_of_nodup (nodup : (keys (m ++ m')).Nodup) : putAll m m' = m ++ m' := by
  induction m' generalizing m with
  | nil => simp [putAll]
  | cons entry rest ih =>
    obtain ⟨key, value⟩ := entry
    have absent : key ∉ keys m := by
      simp only [keys, List.map_append, List.map_cons, List.nodup_append] at nodup
      exact fun inside => nodup.2.2 key inside key List.mem_cons_self rfl
    rw [putAll, List.foldl_cons, ← putAll, put_of_not_mem absent, ih (by simpa using nodup)]
    simp

theorem remove_put (m : OrderedMap α β) (k : α) (v : β) : remove (put m k v) k = remove m k := by
  induction m with
  | nil => simp [put, remove]
  | cons entry rest ih =>
    obtain ⟨key, value⟩ := entry
    by_cases same : key = k
    · simp [put, remove, same]
    · rw [put, if_neg same]
      exact (List.filter_cons_of_pos (by simpa using same)).trans
        ((congrArg _ ih).trans (List.filter_cons_of_pos (by simpa using same)).symm)

theorem nodup_keys_putAll (nodup : (keys m).Nodup) (entries : List (α × β)) :
    (keys (putAll m entries)).Nodup := by
  induction entries generalizing m with
  | nil => exact nodup
  | cons entry rest ih => exact ih (nodup_keys_put m _ _ nodup)

theorem keys_putAll (m : OrderedMap α β) {entries : OrderedMap α β} (nodup : (keys entries).Nodup) :
    keys (putAll m entries) = keys m ++ (keys entries).filter (· ∉ keys m) := by
  induction entries generalizing m with
  | nil => simp [putAll, keys]
  | cons entry rest ih =>
    obtain ⟨key, value⟩ := entry
    obtain ⟨absent, nodup⟩ := List.nodup_cons.1 nodup
    change keys (putAll (put m key value) rest) = keys m ++ (key :: keys rest).filter (· ∉ keys m)
    rw [ih _ nodup, keys_put]
    by_cases known : key ∈ keys m
    · rw [if_pos known, List.filter_cons_of_neg (by simpa using known)]
    · have other : ∀ name ∈ keys rest, decide (name ∉ keys m ++ [key]) = decide (name ∉ keys m) :=
        fun name inside => by
          have differ : name ≠ key := fun same => absent (same ▸ inside)
          simp [differ]
      rw [if_neg known, List.filter_cons_of_pos (by simpa using known), List.filter_congr other,
        List.append_assoc, List.singleton_append]

theorem get?_putAll (m : OrderedMap α β) (entries : List (α × β)) (k : α) :
    get? (putAll m entries) k = (get? (putAll [] entries) k).or (get? m k) := by
  induction entries generalizing m with
  | nil => rfl
  | cons entry rest ih =>
    have head : get? (putAll (put [] entry.1 entry.2) rest) k =
        (get? (putAll [] rest) k).or (get? (put [] entry.1 entry.2) k) := ih _
    have tail : get? (putAll (put m entry.1 entry.2) rest) k =
        (get? (putAll [] rest) k).or (get? (put m entry.1 entry.2) k) := ih _
    change get? (putAll (put m entry.1 entry.2) rest) k =
      (get? (putAll (put [] entry.1 entry.2) rest) k).or (get? m k)
    rw [head, tail, get?_put, get?_put, Option.or_assoc]
    split
    · rfl
    · simp [get?]

theorem get?_putAll_of_nodup (m : OrderedMap α β) {entries : OrderedMap α β}
    (nodup : (keys entries).Nodup) (k : α) :
    get? (putAll m entries) k = (get? entries k).or (get? m k) := by
  rw [get?_putAll, putAll_of_nodup (m := []) nodup, List.nil_append]

theorem putAll_remove_putAll (nodup : (keys m).Nodup) {entries : OrderedMap α β}
    (distinct : (keys entries).Nodup) (absent : k ∉ keys entries) :
    putAll m (remove (putAll m entries) k) = putAll m entries := by
  have written := nodup_keys_putAll nodup entries
  have again := nodup_keys_remove _ k written
  refine ext_of_keys written ?_ fun name => ?_
  · have old : ((keys m).filter (· ≠ k)).filter (· ∉ keys m) = [] :=
      List.filter_eq_nil_iff.2 fun name inside => by simpa using (List.mem_filter.1 inside).1
    have others : ((keys entries).filter (· ∉ keys m)).filter (· ≠ k) =
        (keys entries).filter (· ∉ keys m) :=
      List.filter_eq_self.2 fun name inside => by
        have differ : name ≠ k := fun same => absent (same ▸ (List.mem_filter.1 inside).1)
        simpa using differ
    rw [keys_putAll m again, keys_remove, keys_putAll m distinct, List.filter_append,
      List.filter_append, old, others, List.nil_append, List.filter_filter]
    simp only [Bool.and_self]
  · rw [get?_putAll_of_nodup m again, get?_remove, get?_putAll_of_nodup m distinct]
    split
    case isTrue same =>
      rw [← same, get?_eq_none_iff.2 absent]
    case isFalse => rw [Option.or_assoc, Option.or_self]

theorem flatMap_put_perm (lists : OrderedMap α (List β)) (k : α) (list : List β) :
    ((get? lists k).getD [] ++ (put lists k list).flatMap Prod.snd).Perm
      (list ++ lists.flatMap Prod.snd) := by
  induction lists with
  | nil => simp [get?, put]
  | cons entry rest ih =>
    obtain ⟨key, first⟩ := entry
    by_cases same : key = k
    · simpa [get?, put, same] using List.perm_append_comm_assoc first list _
    · simp only [get?, put, same, if_false, List.flatMap_cons]
      refine (List.perm_append_comm_assoc ..).trans ?_
      exact (ih.append_left first).trans (List.perm_append_comm_assoc ..)

theorem flatMap_put_subperm (lists : OrderedMap α (List β)) (k : α) (list : List β) :
    ((put lists k list).flatMap Prod.snd).Subperm (list ++ lists.flatMap Prod.snd) :=
  List.Subperm.trans (List.Sublist.subperm (List.sublist_append_right ..))
    (flatMap_put_perm lists k list).subperm

theorem flatMap_putAll_subperm (lists more : OrderedMap α (List β)) :
    ((putAll lists more).flatMap Prod.snd).Subperm
      (more.flatMap Prod.snd ++ lists.flatMap Prod.snd) := by
  induction more generalizing lists with
  | nil => exact List.Subperm.refl _
  | cons entry rest ih =>
    obtain ⟨key, list⟩ := entry
    have shown := (List.subperm_append_left (rest.flatMap Prod.snd)).2
      (flatMap_put_subperm lists key list)
    rw [putAll, List.foldl_cons, ← putAll, List.flatMap_cons, List.append_assoc]
    exact (ih _).trans (shown.trans (List.perm_append_comm_assoc ..).subperm)

theorem flatMap_remove_subperm (lists : OrderedMap α (List β)) (k : α) :
    ((get? lists k).getD [] ++ (remove lists k).flatMap Prod.snd).Subperm
      (lists.flatMap Prod.snd) := by
  induction lists with
  | nil => exact List.Subperm.refl _
  | cons entry rest ih =>
    obtain ⟨key, first⟩ := entry
    rw [List.flatMap_cons]
    by_cases same : key = k
    · have fewer : ((remove rest k).flatMap Prod.snd).Sublist (rest.flatMap Prod.snd) :=
        List.filter_sublist.flatMap _
      simpa [get?, remove, same] using (fewer.append_left first).subperm
    · have skipped : remove ((key, first) :: rest) k = (key, first) :: remove rest k := by
        simp [remove, same]
      rw [skipped, get?, if_neg same, List.flatMap_cons]
      exact (List.perm_append_comm_assoc ..).subperm.trans ((List.subperm_append_left first).2 ih)

end LiveList.OrderedMap
