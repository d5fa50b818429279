import LiveList.Proofs.Outcome
import LiveList.Record.Model

namespace LiveList

open Json (Value Fields)

variable {model : Model}

theorem exists_seed {data : Value} {record : Record} (run : model.create data = .ok record) :
    ∃ bag, model.seed data = .ok bag ∧ record.toBag = match model.hook with
      | none => bag
      | some hook => bag.setAll (hook bag) := by
  unfold Model.create at run
  cases seeded : model.seed data with
  | error cause =>
    rw [seeded] at run
    cases run
  | ok bag =>
    rw [seeded] at run
    refine ⟨bag, rfl, ?_⟩
    cases hook : model.hook with
    | none =>
      simp only [hook, bind, Except.bind] at run
      cases run
      rfl
    | some hook' =>
      simp only [hook, bind, Except.bind] at run
      cases run
      rfl

theorem create_of_no_defaults (lacks : model.defaults = none) (data : Value) :
    model.create data = .error .modelWithoutDefaults := by
  simp only [Model.create, Model.seed, lacks]
  rfl

theorem exists_create_object {defaults : Fields} (has : model.defaults = some defaults)
    (fields : Fields) : ∃ record, model.create (.object fields) = .ok record := by
  simp only [Model.create, Model.seed, has, Value.isNull, Bag.merge]
  cases model.hook <;> exact ⟨_, rfl⟩

theorem exists_mapM_create {defaults : Fields} (has : model.defaults = some defaults)
    {items : List Value} (objects : ∀ item ∈ items, ∃ fields, item = .object fields) :
    ∃ records, items.mapM model.create = .ok records := by
  induction items with
  | nil => exact ⟨[], rfl⟩
  | cons item rest ih =>
    obtain ⟨fields, rfl⟩ := objects item List.mem_cons_self
    obtain ⟨record, created⟩ := exists_create_object has fields
    obtain ⟨records, others⟩ := ih fun item inside => objects item (List.mem_cons_of_mem _ inside)
    exact ⟨record :: records, mapM_eq_ok.2 (.cons created (mapM_eq_ok.1 others))⟩

end LiveList
