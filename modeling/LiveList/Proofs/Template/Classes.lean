import LiveList.Proofs.Template.Steps

namespace LiveList.Template.Directive

open Json (Value)
open Markup (Attributes)

variable {record : Value} {attributes before after : Attributes} {name : String}

def classesOf (attributes : Attributes) : List String :=
  classNames ((attributes.get? "class").getD "")

def ClassName (name : String) : Prop := name ≠ "" ∧ ∀ c ∈ name.toList, Text.isBlank c = false

theorem className_of_mem {name : String} (inside : name ∈ classesOf attributes) :
    ClassName name := by
  obtain ⟨word, isWord, rfl⟩ := List.mem_map.1 inside
  obtain ⟨notEmpty, solid⟩ := Text.word_of_mem_words isWord
  rw [ClassName, String.toList_ofList]
  exact ⟨fun empty => notEmpty (by simpa using String.toList_eq_nil_iff.2 empty), solid⟩

theorem classesOf_writeClasses {names : List String} (solid : ∀ name ∈ names, ClassName name) :
    classesOf (writeClasses attributes names) = names := by
  unfold writeClasses classesOf
  split
  case isTrue none =>
    rw [OrderedMap.get?_remove, if_pos rfl, none]
    rfl
  case isFalse =>
    rw [OrderedMap.get?_put, if_pos rfl]
    exact Text.words_intercalate solid

theorem classesOf_toggleClass (solid : ClassName name) (on : Bool) (attributes : Attributes) :
    classesOf (toggleClass name on attributes) =
      if on then if name ∈ classesOf attributes then classesOf attributes
        else classesOf attributes ++ [name]
      else (classesOf attributes).filter (· ≠ name) := by
  have named : ∀ other ∈ classesOf attributes, ClassName other := fun _ => className_of_mem
  have toggled : toggleClass name on attributes =
      if on && !(classesOf attributes).contains name then
        writeClasses attributes (classesOf attributes ++ [name])
      else if !on && (classesOf attributes).contains name then
        writeClasses attributes ((classesOf attributes).filter (· ≠ name))
      else attributes := rfl
  by_cases present : name ∈ classesOf attributes
  · cases on with
    | true => simp [toggled, present]
    | false =>
      have written : classesOf (writeClasses attributes
          ((classesOf attributes).filter (· ≠ name))) = (classesOf attributes).filter (· ≠ name) :=
        classesOf_writeClasses fun other inside => named other (List.mem_filter.1 inside).1
      simpa [toggled, present] using written
  · cases on with
    | true =>
      have written : classesOf (writeClasses attributes (classesOf attributes ++ [name])) =
          classesOf attributes ++ [name] :=
        classesOf_writeClasses (List.forall_mem_append.2 ⟨named, List.forall_mem_singleton.2 solid⟩)
      simpa [toggled, present] using written
    | false =>
      have same : (classesOf attributes).filter (· ≠ name) = classesOf attributes :=
        List.filter_eq_self.2 fun other inside => by
          simpa using fun equal : other = name => present (equal ▸ inside)
      rw [if_neg (by simp), same]
      simp [toggled, present]

theorem mem_classesOf_toggleClass (solid : ClassName name) (on : Bool) (attributes : Attributes) :
    name ∈ classesOf (toggleClass name on attributes) ↔ on = true := by
  rw [classesOf_toggleClass solid]
  cases on with
  | true => by_cases present : name ∈ classesOf attributes <;> simp [present]
  | false => simp

theorem filter_classesOf_toggleClass (solid : ClassName name) (on : Bool) (attributes : Attributes)
    {keep : String → Bool} (gone : keep name = false) :
    (classesOf (toggleClass name on attributes)).filter keep =
      (classesOf attributes).filter keep := by
  rw [classesOf_toggleClass solid]
  cases on with
  | true => by_cases present : name ∈ classesOf attributes <;> simp [present, gone]
  | false =>
    rw [if_neg (by simp), List.filter_filter]
    refine List.filter_congr fun other _ => ?_
    by_cases same : other = name
    · simp [same, gone]
    · simp [same]

theorem only_toggleClass (name : String) (on : Bool) (attributes : Attributes) :
    Only "class" attributes (toggleClass name on attributes) := by
  have written (names : List String) : Only "class" attributes (writeClasses attributes names) := by
    unfold writeClasses
    split
    · exact .remove _ _
    · exact .put _ _ _
  unfold toggleClass
  dsimp only
  split
  · exact written _
  split
  · exact written _
  · exact .refl _ _

theorem classesOf_onEntries {fields : Json.Fields} {directive : ObjectDirective}
    {act : String → String → Attributes → Except TemplateError Attributes}
    (acts : ∀ key text before after, act key text before = .ok after →
      after = toggleClass key (classIsOn record text) before)
    (done : (onEntries directive act fields before).2 = none)
    (distinct : (OrderedMap.keys fields).Nodup)
    (solid : ∀ pair ∈ classRules fields, ClassName pair.1) :
    (∀ pair ∈ classRules fields,
      pair.1 ∈ classesOf (onEntries directive act fields before).1 ↔
        classIsOn record pair.2 = true) ∧
    ∀ keep : String → Bool, (∀ pair ∈ classRules fields, keep pair.1 = false) →
      (classesOf (onEntries directive act fields before).1).filter keep =
        (classesOf before).filter keep := by
  rw [classRules_eq] at solid ⊢
  refine (onEntries_each (fun name _ => ClassName name) (fun _ => True)
    (fun name field attributes => name ∈ classesOf attributes ↔ classIsOn record field = true)
    (fun keep attributes => (classesOf attributes).filter keep)
    ?_ ?_ done distinct solid trivial).2
  · intro name field before after ran
    obtain rfl := acts name field before after ran
    exact ⟨field, rfl, fun solid _ => ⟨trivial, mem_classesOf_toggleClass solid _ _,
      fun keep gone => filter_classesOf_toggleClass solid _ _ gone⟩⟩
  · intro name field before after same met
    rw [← met]
    simpa [List.mem_filter] using congrArg (name ∈ ·) same

end LiveList.Template.Directive
