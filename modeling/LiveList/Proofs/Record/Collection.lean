import LiveList.Proofs.OrderedMap
import LiveList.Record.Collection

namespace LiveList

open Json (Value Fields)

structure Record.Carries (record : Record) (index : Nat) : Prop where
  given : record.index = some index
  shown : record.raw indexField = some (Value.ofNat index)

theorem Record.withIndex_carries (record : Record) (index : Nat) :
    (record.withIndex index).Carries index :=
  ⟨rfl, by simp [Record.withIndex, Bag.assignIndex, Bag.raw, OrderedMap.get?_put]⟩

theorem Record.withIndex_withIndex (record : Record) (first second : Nat) :
    (record.withIndex first).withIndex second = record.withIndex second := by
  simp [Record.withIndex, Bag.assignIndex, OrderedMap.put_put]

theorem Bag.setAll_reserved (bag : Bag) (fields : List (String × Value)) :
    (bag.setAll fields).index = bag.index ∧
      (bag.setAll fields).raw indexField = bag.raw indexField := by
  induction fields generalizing bag with
  | nil => exact ⟨rfl, rfl⟩
  | cons field rest ih =>
    obtain ⟨name, value⟩ := field
    rw [Bag.setAll, List.foldl_cons, ← Bag.setAll, (ih _).1, (ih _).2]
    by_cases reserved : name = indexField
    · simp [Bag.set, reserved]
    · simp [Bag.set, reserved, Bag.raw, OrderedMap.get?_put]

theorem Bag.attributes_setAll (bag : Bag) (fields : Fields) : (bag.setAll fields).attributes =
    OrderedMap.putAll bag.attributes (OrderedMap.remove fields indexField) := by
  induction fields generalizing bag with
  | nil => rfl
  | cons field rest ih =>
    obtain ⟨name, value⟩ := field
    have later : ((bag.set name value).setAll rest).attributes = _ := ih _
    refine later.trans ?_
    rw [OrderedMap.remove, OrderedMap.remove]
    by_cases reserved : name = indexField
    · rw [List.filter_cons_of_neg (by simpa using reserved), Bag.set, if_pos reserved]
    · rw [List.filter_cons_of_pos (by simpa using reserved), Bag.set, if_neg reserved]
      rfl

theorem Bag.raw_setAll (bag : Bag) (fields : List (String × Value)) {name : String}
    (free : name ≠ indexField) : (bag.setAll fields).raw name =
      (OrderedMap.get? (OrderedMap.putAll [] fields) name).or (bag.raw name) := by
  rw [Bag.raw, Bag.raw, ← OrderedMap.get?_putAll]
  induction fields generalizing bag with
  | nil => rfl
  | cons field rest ih =>
    obtain ⟨other, value⟩ := field
    change OrderedMap.get? ((bag.set other value).setAll rest).attributes name =
      OrderedMap.get? (OrderedMap.putAll (OrderedMap.put bag.attributes other value) rest) name
    rw [ih, OrderedMap.get?_putAll, OrderedMap.get?_putAll (OrderedMap.put bag.attributes other value)]
    by_cases reserved : other = indexField
    · have differ : other ≠ name := fun same => free (same ▸ reserved)
      rw [Bag.set, if_pos reserved, OrderedMap.get?_put, if_neg differ]
    · rw [Bag.set, if_neg reserved]

theorem Record.Carries.update {record updated : Record} {index : Nat} {fields : Value}
    (carries : record.Carries index) (run : record.update fields = .ok updated) :
    updated.Carries index := by
  cases fields with
  | object fields =>
    obtain ⟨sameIndex, sameShown⟩ := Bag.setAll_reserved record.toBag fields
    simp only [Record.update, Bag.merge, bind, Except.bind, pure, Except.pure,
      Except.ok.injEq] at run
    subst run
    exact ⟨sameIndex.trans carries.given, sameShown.trans carries.shown⟩
  | _ => simp [Record.update, Bag.merge, bind, Except.bind] at run

namespace Collection

structure Sound (c : Collection) : Prop where
  nodup : c.indices.Nodup
  below : ∀ index ∈ c.indices, index < c.next
  carried : ∀ index record, (index, record) ∈ c.records → record.Carries index

theorem empty_sound : empty.Sound :=
  ⟨List.nodup_nil, by simp [empty, indices, OrderedMap.keys], by simp [empty]⟩

variable {c : Collection} {record : Record} {index : Nat}

theorem mem_indices : index ∈ c.indices ↔ ∃ record, c.get? index = some record :=
  ⟨OrderedMap.exists_get?_of_mem, fun ⟨_, found⟩ => OrderedMap.mem_keys_of_get? found⟩

theorem contains_iff : c.contains index = true ↔ index ∈ c.indices :=
  OrderedMap.contains_iff

namespace Sound

variable (sound : c.Sound)
include sound

theorem get?_iff : c.get? index = some record ↔ (index, record) ∈ c.records :=
  OrderedMap.get?_eq_some_iff sound.nodup

theorem carries (found : c.get? index = some record) : record.Carries index :=
  sound.carried index record (sound.get?_iff.1 found)

theorem next_not_mem : c.next ∉ c.indices :=
  fun inside => Nat.lt_irrefl _ (sound.below _ inside)

theorem records_insertBack (record : Record) :
    (c.insertBack record).1.records = c.records ++ [(c.next, record.withIndex c.next)] :=
  OrderedMap.put_of_not_mem sound.next_not_mem _

theorem records_insertFront (record : Record) :
    (c.insertFront record).1.records = (c.next, record.withIndex c.next) :: c.records :=
  congrArg _ (OrderedMap.remove_of_not_mem sound.next_not_mem)

theorem indices_insertBack (record : Record) :
    (c.insertBack record).1.indices = c.indices ++ [c.next] := by
  simp [indices, sound.records_insertBack, OrderedMap.keys]

theorem indices_insertFront (record : Record) :
    (c.insertFront record).1.indices = c.next :: c.indices := by
  simp [indices, sound.records_insertFront, OrderedMap.keys]

theorem insertBack (record : Record) : (c.insertBack record).1.Sound := by
  refine ⟨?_, ?_, ?_⟩
  · rw [sound.indices_insertBack]
    exact List.nodup_append.2 ⟨sound.nodup, by simp, fun a inC b isNext same =>
      sound.next_not_mem (List.mem_singleton.1 isNext ▸ same ▸ inC)⟩
  · intro index inside
    rw [sound.indices_insertBack, List.mem_append, List.mem_singleton] at inside
    rcases inside with old | rfl
    · exact Nat.lt_succ_of_lt (sound.below index old)
    · exact Nat.lt_succ_self _
  · intro index other inside
    rw [sound.records_insertBack, List.mem_append, List.mem_singleton, Prod.mk.injEq] at inside
    rcases inside with old | ⟨rfl, rfl⟩
    · exact sound.carried index other old
    · exact record.withIndex_carries _

theorem insertFront (record : Record) : (c.insertFront record).1.Sound := by
  refine ⟨?_, ?_, ?_⟩
  · rw [sound.indices_insertFront]
    exact List.nodup_cons.2 ⟨sound.next_not_mem, sound.nodup⟩
  · intro index inside
    rw [sound.indices_insertFront, List.mem_cons] at inside
    rcases inside with rfl | old
    · exact Nat.lt_succ_self _
    · exact Nat.lt_succ_of_lt (sound.below index old)
  · intro index other inside
    rw [sound.records_insertFront, List.mem_cons, Prod.mk.injEq] at inside
    rcases inside with ⟨rfl, rfl⟩ | old
    · exact record.withIndex_carries _
    · exact sound.carried index other old

theorem remove (index : Nat) : (c.remove index).1.Sound :=
  ⟨OrderedMap.nodup_keys_remove c.records index sound.nodup,
    fun other inside => sound.below other (by
      rw [indices, Collection.remove, OrderedMap.keys_remove] at inside
      exact (List.mem_filter.1 inside).1),
    fun other record inside => sound.carried other record (List.mem_filter.1 inside).1⟩

omit sound in
theorem clear : c.clear.Sound :=
  ⟨List.nodup_nil, by simp [Collection.clear, indices, OrderedMap.keys], by simp [Collection.clear]⟩

theorem replace (record : Record) (carries : record.Carries index) :
    (c.replace index record).Sound := by
  unfold Collection.replace
  split
  case isFalse => exact sound
  case isTrue there =>
    have inside := contains_iff.1 there
    have same : OrderedMap.keys (OrderedMap.put c.records index record) = c.indices := by
      exact (OrderedMap.keys_put ..).trans (if_pos inside)
    refine ⟨by rw [indices, same]; exact sound.nodup, ?_, ?_⟩
    · intro other there
      rw [indices, same] at there
      exact sound.below other there
    · intro other found there
      have get := (OrderedMap.get?_eq_some_iff (by rw [same]; exact sound.nodup)).2 there
      rw [OrderedMap.get?_put] at get
      split at get
      case isTrue isIndex =>
        rw [Option.some.injEq] at get
        exact isIndex ▸ get ▸ carries
      case isFalse => exact sound.carries get

end Sound

theorem indices_remove (c : Collection) (index : Nat) :
    (c.remove index).1.indices = c.indices.filter (· ≠ index) :=
  OrderedMap.keys_remove c.records index

theorem get?_remove (c : Collection) (index other : Nat) :
    (c.remove index).1.get? other = if index = other then none else c.get? other :=
  OrderedMap.get?_remove c.records index other

theorem indices_replace (c : Collection) (index : Nat) (record : Record) :
    (c.replace index record).indices = c.indices := by
  unfold replace
  split
  case isFalse => rfl
  case isTrue there =>
    exact (OrderedMap.keys_put ..).trans (if_pos (contains_iff.1 there))

theorem get?_replace (there : index ∈ c.indices) (record : Record) (other : Nat) :
    (c.replace index record).get? other = if index = other then some record else c.get? other := by
  rw [replace, if_pos (contains_iff.2 there)]
  exact OrderedMap.get?_put c.records index other record

theorem next_replace (c : Collection) (index : Nat) (record : Record) :
    (c.replace index record).next = c.next := by
  unfold replace
  split <;> rfl

theorem pick_perm (order : List Nat) {m : OrderedMap Nat Record}
    (nodup : (OrderedMap.keys m).Nodup) : ((pick order m).1 ++ (pick order m).2).Perm m := by
  induction order generalizing m with
  | nil => exact .refl _
  | cons first rest ih =>
    rw [pick]
    split
    · exact ih nodup
    case h_2 record found =>
      obtain ⟨before, behind, rfl⟩ := OrderedMap.exists_append_of_get? nodup found
      have less := ih (OrderedMap.nodup_keys_remove _ first nodup)
      rw [OrderedMap.remove_append_of_nodup nodup] at less ⊢
      exact (less.cons _).trans List.perm_middle.symm

theorem keys_pick {order : List Nat} (distinct : order.Nodup) (m : OrderedMap Nat Record) :
    OrderedMap.keys (pick order m).1 = order.filter (OrderedMap.contains m) := by
  induction order generalizing m with
  | nil => rfl
  | cons first rest ih =>
    obtain ⟨absent, distinct⟩ := List.nodup_cons.1 distinct
    rw [pick]
    split
    case h_1 missing =>
      rw [ih distinct, List.filter_cons_of_neg (by simp [OrderedMap.contains, missing])]
    case h_2 record found =>
      have same : ∀ index ∈ rest, OrderedMap.contains (OrderedMap.remove m first) index =
          OrderedMap.contains m index := fun index inside => by
        have differ : first ≠ index := fun equal => absent (equal ▸ inside)
        rw [OrderedMap.contains, OrderedMap.get?_remove, if_neg differ, OrderedMap.contains]
      rw [List.filter_cons_of_pos (by simp [OrderedMap.contains, found]), ← List.filter_congr same,
        ← ih distinct]
      rfl

theorem records_reorder_perm (sound : c.Sound) (order : List Nat) :
    (c.reorder order).records.Perm c.records :=
  pick_perm order sound.nodup

theorem Sound.reorder (sound : c.Sound) (order : List Nat) : (c.reorder order).Sound := by
  have perm := records_reorder_perm sound order
  have keysPerm : (c.reorder order).indices.Perm c.indices := perm.map Prod.fst
  exact ⟨keysPerm.nodup_iff.2 sound.nodup, fun index inside =>
    sound.below index (keysPerm.mem_iff.1 inside), fun index record inside =>
    sound.carried index record (perm.mem_iff.1 inside)⟩

theorem get?_reorder (sound : c.Sound) (order : List Nat) (index : Nat) :
    (c.reorder order).get? index = c.get? index :=
  (OrderedMap.get?_of_perm (records_reorder_perm sound order)
    (sound.reorder order).nodup index).symm

theorem indices_reorder (sound : c.Sound) {order : List Nat} (perm : order.Perm c.indices) :
    (c.reorder order).indices = order := by
  have distinct : order.Nodup := perm.nodup_iff.2 sound.nodup
  have picked : OrderedMap.keys (pick order c.records).1 = order := by
    rw [keys_pick distinct]
    exact List.filter_eq_self.2 fun index inside =>
      OrderedMap.contains_iff.2 (perm.mem_iff.1 inside)
  have whole : (c.reorder order).indices =
      OrderedMap.keys (pick order c.records).1 ++ OrderedMap.keys (pick order c.records).2 :=
    List.map_append
  have keysPerm : (c.reorder order).indices.Perm c.indices :=
    (records_reorder_perm sound order).map Prod.fst
  rw [picked] at whole
  have none : OrderedMap.keys (pick order c.records).2 = [] := by
    apply List.eq_nil_of_length_eq_zero
    have total := (whole ▸ keysPerm).length_eq
    rw [List.length_append, perm.length_eq] at total
    omega
  rw [whole, none, List.append_nil]

end Collection

end LiveList
