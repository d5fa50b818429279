import LiveList.Json.Path
import LiveList.Proofs.Record.Creation
import LiveList.Proofs.Record.Indices
import Mathlib.Data.List.Induction

namespace LiveList

open Json (Value Fields)

def Model.declared (model : Model) (name : String) : Option Value :=
  OrderedMap.get? (model.defaults.getD []) name

namespace Record

/-- The reserved attribute can be read as the index of the record, and as nothing else. -/
structure Mirrors (record : Record) : Prop where
  raw : record.raw indexField = record.index.map Value.ofNat
  get : record.get indexField = (record.index.map Value.ofNat).filter Value.isTruthy
  json : record.json.child? indexField = record.index.map Value.ofNat

inductive Step where
  | write (w : Write)
  | assign (index : Nat)

def Step.given? : Step → Option Nat
  | .write _ => none
  | .assign index => some index

def advance (record : Record) : Step → Record
  | .write w => record.write w
  | .assign index => record.withIndex index

variable {model : Model} {data : Value} {record : Record}

/-- However many writes a hook or a method makes, also by calls within it, they set attributes one by
one, so they can be said beforehand. -/
theorem exists_setAll_writeAll (record : Record) (writes : List Write) :
    ∃ fields, writes.foldl write record = { record with toBag := record.toBag.setAll fields } := by
  induction writes generalizing record with
  | nil => exact ⟨[], rfl⟩
  | cons w rest ih =>
    obtain ⟨first, same⟩ := record.exists_setAll_write w
    obtain ⟨more, later⟩ := ih (record.write w)
    refine ⟨first ++ more, ?_⟩
    rw [List.foldl_cons, later, same, Bag.setAll, Bag.setAll, Bag.setAll, List.foldl_append]

theorem reserved_write (record : Record) (w : Write) :
    (record.write w).index = record.index ∧
      (record.write w).raw indexField = record.raw indexField := by
  obtain ⟨fields, same⟩ := record.exists_setAll_write w
  rw [same]
  exact Bag.setAll_reserved record.toBag fields

theorem reserved_create (created : model.create data = .ok record) :
    record.index = none ∧ record.raw indexField = model.declared indexField := by
  obtain ⟨bag, seeded, made⟩ := exists_seed created
  have start : bag.index = none ∧ bag.raw indexField = model.declared indexField := by
    unfold Model.seed at seeded
    rw [Model.declared]
    cases has : model.defaults with
    | none =>
      rw [has] at seeded
      cases seeded
    | some defaults =>
      simp only [has] at seeded
      split at seeded
      · cases seeded
        exact ⟨rfl, rfl⟩
      · cases data with
        | object fields =>
          cases seeded
          exact Bag.setAll_reserved ⟨defaults, none⟩ fields
        | _ => cases seeded
  cases hook : model.hook with
  | none =>
    rw [hook] at made
    rwa [made]
  | some hook' =>
    rw [hook] at made
    obtain ⟨sameIndex, sameShown⟩ := Bag.setAll_reserved bag (hook' bag)
    rw [made]
    exact ⟨sameIndex.trans start.1, sameShown.trans start.2⟩

theorem reserved_advance (record : Record) (steps : List Step) :
    (steps.foldl advance record).index =
      ((steps.filterMap Step.given?).getLast?).or record.index ∧
    (steps.foldl advance record).raw indexField =
      ((steps.filterMap Step.given?).getLast?.map Value.ofNat).or (record.raw indexField) := by
  induction steps using List.reverseRecOn with
  | nil => exact ⟨rfl, rfl⟩
  | append_singleton steps step ih =>
    rw [List.foldl_append, List.foldl_cons, List.foldl_nil, List.filterMap_append]
    cases step with
    | write w =>
      obtain ⟨sameIndex, sameShown⟩ := reserved_write (steps.foldl advance record) w
      simpa [advance, Step.given?, sameIndex, sameShown] using ih
    | assign index =>
      obtain ⟨given, shown⟩ := (steps.foldl advance record).withIndex_carries index
      simp [advance, Step.given?, given, shown]

theorem mirrors_iff : record.Mirrors ↔ record.raw indexField = record.index.map Value.ofNat :=
  ⟨Mirrors.raw, fun raw => ⟨raw, by rw [Bag.get, raw], raw⟩⟩

/-- A record has the index that it was given last, and the reserved attribute shows it. Before that it
shows what the defaults of the model declare under its name. So it shows the index alone, whatever
happens to the record, just if the defaults leave that name out. -/
theorem mirrors_iff_undeclared (created : model.create data = .ok record) :
    (∀ steps : List Step,
      (steps.foldl advance record).index = (steps.filterMap Step.given?).getLast? ∧
      (steps.foldl advance record).raw indexField =
        ((steps.filterMap Step.given?).getLast?.map Value.ofNat).or (model.declared indexField)) ∧
    ((∀ steps : List Step, (steps.foldl advance record).Mirrors) ↔
      model.declared indexField = none) := by
  obtain ⟨noIndex, declared⟩ := reserved_create created
  have later (steps : List Step) :
      (steps.foldl advance record).index = (steps.filterMap Step.given?).getLast? ∧
      (steps.foldl advance record).raw indexField =
        ((steps.filterMap Step.given?).getLast?.map Value.ofNat).or (model.declared indexField) := by
    have reserved := reserved_advance record steps
    rwa [noIndex, declared, Option.or_none] at reserved
  refine ⟨later, fun mirrors => ?_, fun undeclared steps => ?_⟩
  · have raw := (mirrors []).raw
    rwa [List.foldl_nil, declared, noIndex] at raw
  · obtain ⟨given, shown⟩ := later steps
    rw [mirrors_iff, shown, given, undeclared, Option.or_none]

def insistent (defaults : Fields) : Model :=
  ⟨0, some defaults, some fun _ => [("index", .ofNat 7), ("kind", .string "note")],
    [("renumber", fun _ _ => ([("index", .ofNat 8)], .null))]⟩

def insistence : List Step :=
  [.write (.set "index" (.ofNat 4)), .write (.merge (.object [("index", .ofNat 9)])),
    .write (.call "renumber" [])]

theorem mirrors_insistent :
    ∃ plain declaring, (insistent [("text", .string "")]).create
        (.object [("index", .ofNat 3), ("text", .string "a")]) = .ok plain ∧
      (insistence.foldl advance plain).raw "index" = none ∧
      ((insistence ++ Step.assign 2 :: insistence).foldl advance plain).Mirrors ∧
      ((insistence ++ Step.assign 2 :: insistence).foldl advance plain).index = some 2 ∧
      (insistent [("index", .ofNat 5)]).create .null = .ok declaring ∧
      (insistence.foldl advance declaring).index = none ∧
      (insistence.foldl advance declaring).raw "index" = some (.ofNat 5) ∧
      ¬ ∀ steps : List Step, (steps.foldl advance declaring).Mirrors := by
  obtain ⟨plain, created⟩ := @exists_create_object (insistent [("text", .string "")]) _ rfl
    [("index", .ofNat 3), ("text", .string "a")]
  obtain ⟨shown, mirrors⟩ := mirrors_iff_undeclared created
  have declares : (insistent [("index", .ofNat 5)]).create .null = .ok _ := rfl
  obtain ⟨shown', mirrors'⟩ := mirrors_iff_undeclared declares
  refine ⟨plain, _, created, (shown insistence).2, mirrors.2 rfl _, (shown _).1, declares,
    (shown' insistence).1, (shown' insistence).2, fun each => ?_⟩
  cases mirrors'.1 each

end Record

end LiveList
