import LiveList.Proofs.Record.Collection
import LiveList.Proofs.Record.Creation

namespace LiveList

open Json (Value Fields)

/-- The values are the saved ones, up to the order of their fields, but each has its place as its
index. -/
def Reindexed (saved values : List Value) : Prop :=
  values.length = saved.length ∧ ∀ place < saved.length, ∃ fields fields',
    saved[place]? = some (.object fields) ∧ values[place]? = some (.object fields') ∧
      (OrderedMap.keys fields').Nodup ∧
      fields'.Perm (OrderedMap.put fields indexField (Value.ofNat place))

structure Model.Saves (model : Model) (saved : Fields) : Prop where
  defaults : model.defaults = some (model.defaults.getD [])
  nodup : (OrderedMap.keys saved).Nodup
  whole : ∀ name, name ≠ indexField → OrderedMap.get? saved name = none →
    OrderedMap.get? (model.defaults.getD []) name = none

/-- The record that is created of saved attributes. The index among them is not taken over. -/
def Model.restored (model : Model) (saved : Fields) : Record :=
  ⟨⟨OrderedMap.putAll (model.defaults.getD []) (OrderedMap.remove saved indexField), none⟩, model⟩

def Model.reindexed (model : Model) (saves : List Fields) : List Fields :=
  saves.mapIdx fun place saved => ((model.restored saved).withIndex place).attributes

namespace Model

variable {model : Model} {saved : Fields} {saves : List Fields}

theorem Saves.create (is : model.Saves saved) (plain : model.hook = none) :
    model.create (.object saved) = .ok (model.restored saved) := by
  have merged : Bag.setAll ⟨model.defaults.getD [], none⟩ saved = (model.restored saved).toBag :=
    congrArg₂ Bag.mk (Bag.attributes_setAll ..) (Bag.setAll_reserved _ saved).1
  simp only [Model.create, seed, Value.isNull, Bag.merge, plain]
  rw [is.defaults]
  exact congrArg (fun bag => Except.ok (Record.mk bag model)) merged

theorem attributes_restored (model : Model) (saved : Fields) (place : Nat) :
    ((model.restored saved).withIndex place).attributes = OrderedMap.put
      (OrderedMap.putAll (model.defaults.getD []) (OrderedMap.remove saved indexField)) indexField
        (Value.ofNat place) := rfl

theorem mapM_create_saves (plain : model.hook = none) (each : ∀ saved ∈ saves, model.Saves saved) :
    (saves.map Value.object).mapM model.create = .ok (saves.map model.restored) := by
  rw [mapM_eq_ok, List.forall₂_map_left_iff, List.forall₂_map_right_iff, List.forall₂_same]
  exact fun saved inside => (each saved inside).create plain

section

variable (distinct : (OrderedMap.keys (model.defaults.getD [])).Nodup)
include distinct

theorem nodup_restored (saved : Fields) (place : Nat) :
    (OrderedMap.keys ((model.restored saved).withIndex place).attributes).Nodup :=
  OrderedMap.nodup_keys_put _ _ _ (OrderedMap.nodup_keys_putAll distinct _)

theorem Saves.again (is : model.Saves saved) (place : Nat) :
    model.Saves ((model.restored saved).withIndex place).attributes where
  defaults := is.defaults
  nodup := nodup_restored distinct saved place
  whole name free absent := by
    rw [attributes_restored, OrderedMap.get?_put, if_neg (Ne.symm free), OrderedMap.get?_putAll,
      Option.or_eq_none_iff] at absent
    exact absent.2

theorem Saves.restored_perm (is : model.Saves saved) (place : Nat) :
    ((model.restored saved).withIndex place).attributes.Perm
      (OrderedMap.put saved indexField (Value.ofNat place)) := by
  refine OrderedMap.perm_of_get? (nodup_restored distinct saved place)
    (OrderedMap.nodup_keys_put _ _ _ is.nodup) fun name => ?_
  rw [attributes_restored, OrderedMap.get?_put, OrderedMap.get?_put]
  split
  · rfl
  case isFalse other =>
    rw [OrderedMap.get?_putAll_of_nodup _ (OrderedMap.nodup_keys_remove _ _ is.nodup),
      OrderedMap.get?_remove, if_neg other]
    cases held : OrderedMap.get? saved name with
    | none => exact is.whole name (Ne.symm other) held
    | some value => rfl

theorem Saves.restored_again (is : model.Saves saved) (place : Nat) :
    model.restored ((model.restored saved).withIndex place).attributes = model.restored saved := by
  have absent : indexField ∉ OrderedMap.keys (OrderedMap.remove saved indexField) := by
    simp [OrderedMap.keys_remove]
  have same := OrderedMap.putAll_remove_putAll distinct
    (OrderedMap.nodup_keys_remove _ indexField is.nodup) absent
  refine congrArg (fun attributes => Record.mk ⟨attributes, none⟩ model) ?_
  refine (congrArg (OrderedMap.putAll _) ?_).trans same
  exact OrderedMap.remove_put ..

theorem map_restored_reindexed (each : ∀ saved ∈ saves, model.Saves saved) :
    (model.reindexed saves).map model.restored = saves.map model.restored := by
  refine List.ext_getElem (by simp [reindexed]) fun place below below' => ?_
  simp only [reindexed, List.getElem_mapIdx, List.getElem_map]
  exact (each _ (List.getElem_mem _)).restored_again distinct place

theorem saves_reindexed (each : ∀ saved ∈ saves, model.Saves saved) :
    ∀ saved ∈ model.reindexed saves, model.Saves saved := by
  intro saved inside
  obtain ⟨place, below, rfl⟩ := List.mem_mapIdx.1 inside
  exact (each _ (List.getElem_mem below)).again distinct place

theorem reindexed_of_saves (each : ∀ saved ∈ saves, model.Saves saved) :
    Reindexed (saves.map Value.object) ((model.reindexed saves).map Value.object) := by
  refine ⟨by simp [reindexed], fun place below => ?_⟩
  rw [List.length_map] at below
  refine ⟨saves[place], ((model.restored saves[place]).withIndex place).attributes, by simp [below],
    by simp [reindexed, below], nodup_restored distinct _ place, ?_⟩
  exact (each _ (List.getElem_mem below)).restored_perm distinct place

end

end Model

namespace Collection

def saves (c : Collection) : List Fields := (OrderedMap.values c.records).map fun r => r.attributes

theorem json_eq_saves (c : Collection) : c.json = c.saves.map Value.object :=
  List.map_map.symm

end Collection

end LiveList
