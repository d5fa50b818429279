import LiveList.Proofs.Template.Entries

/-!
# Steps on an element

A step carries out the directive that stands in one attribute of an element and writes another one.
Main statements: where no step writes what another one reads its directive from, each fails as it does
alone, and only attributes that a directive of the element is for are written.
-/

namespace LiveList.Template.Directive

open Json (Value)
open Markup (Attributes)

variable {record : Value} {attributes before middle after : Attributes} {name : String}

/-! ## What is written -/

def Only (name : String) (before after : Attributes) : Prop :=
  OrderedMap.remove after name = OrderedMap.remove before name

namespace Only

theorem refl (name : String) (attributes : Attributes) : Only name attributes attributes := rfl

theorem trans (first : Only name before middle) (second : Only name middle after) :
    Only name before after :=
  Eq.trans second first

theorem put (name value : String) (attributes : Attributes) :
    Only name attributes (attributes.put name value) :=
  OrderedMap.remove_put attributes name value

theorem remove (name : String) (attributes : Attributes) :
    Only name attributes (attributes.remove name) := by
  rw [Only, OrderedMap.remove, OrderedMap.remove, List.filter_filter]
  simp

theorem get? (only : Only name before after) {other : String} (differ : other ≠ name) :
    after.get? other = before.get? other := by
  have same := congrArg (OrderedMap.get? · other) only
  simpa only [OrderedMap.get?_remove, if_neg differ.symm] using same

theorem filter (only : Only name before after) {keep : String → Bool} (gone : keep name = false) :
    after.filter (fun pair => keep pair.1) = before.filter fun pair => keep pair.1 := by
  have outside (attributes : Attributes) : attributes.filter (fun pair => keep pair.1) =
      (OrderedMap.remove attributes name).filter fun pair => keep pair.1 := by
    rw [OrderedMap.remove, List.filter_filter]
    refine List.filter_congr fun pair _ => ?_
    by_cases same : pair.1 = name
    · rw [same, gone, Bool.false_and]
    · simp [same]
  rw [outside after, outside before, only]

end Only

/-! ## Steps -/

/-- A step does what the directive in one attribute says to another attribute, and whether it fails is
settled by the directive. -/
structure Obeys (directive target : String) (step : Step) : Prop where
  absent : ∀ record attributes, attributes.get? directive = none →
    step record attributes = (attributes, none)
  only : ∀ record attributes, Only target attributes (step record attributes).1
  settled : ∀ record before after, OrderedMap.get? after directive = OrderedMap.get? before directive →
    ((step record after).2 = none ↔ (step record before).2 = none)

theorem onAttribute_done {directive : String} {act : Value → String → Attributes → Attributes}
    (record : Value) (attributes : Attributes) :
    (onAttribute directive (fun record spec attributes => (act record spec attributes, none)) record
      attributes).2 = none := by
  unfold onAttribute
  split <;> rfl

theorem obeys_onAttribute {directive target : String} {act : Value → String → Attributes → Attributes}
    (only : ∀ record spec attributes, Only target attributes (act record spec attributes)) :
    Obeys directive target (onAttribute directive fun record spec attributes =>
      (act record spec attributes, none)) where
  absent record attributes absent := by rw [onAttribute, absent]
  only record attributes := by
    unfold onAttribute
    split
    · exact .refl _ _
    · exact only _ _ _
  settled record before after _ := by rw [onAttribute_done, onAttribute_done]

theorem only_onEntries {directive : ObjectDirective} {target : String}
    {act : String → String → Attributes → Except TemplateError Attributes}
    (only : ∀ key text before after, act key text before = .ok after → Only target before after)
    (fields : Json.Fields) : Only target before (onEntries directive act fields before).1 := by
  induction fields generalizing before with
  | nil => exact .refl _ _
  | cons pair rest ih =>
    rw [onEntries]
    split
    · exact .refl _ _
    · split
      · exact .refl _ _
      case h_2 changed ran => exact (only _ _ _ _ ran).trans ih

theorem obeys_objectStep {directive : ObjectDirective} {target : String}
    {act : Value → String → String → Attributes → Except TemplateError Attributes}
    (only : ∀ record key text before after, act record key text before = .ok after →
      Only target before after)
    (accepts : ∀ record key text attributes,
      (∃ changed, act record key text attributes = .ok changed) ↔ Accepted directive text) :
    Obeys directive.attribute target (objectStep directive act) where
  absent record attributes absent := by rw [objectStep, onAttribute, absent]
  only record attributes := by
    unfold objectStep onAttribute
    split
    · exact .refl _ _
    · dsimp only
      split
      · exact .refl _ _
      · exact only_onEntries (only record) _
  settled record before after same := by
    rw [objectStep_done (accepts record), objectStep_done (accepts record), same]

def overElement (record : Value) : List Step → Attributes → Outcome
  | [], attributes => (attributes, none)
  | step :: rest, attributes =>
    match step record attributes with
    | (changed, some failure) => (changed, some failure)
    | (changed, none) => overElement record rest changed

structure Rule where
  directive : String
  target : String
  step : Step

namespace Rule

structure Sound (rules : List Rule) : Prop where
  obeys : ∀ rule ∈ rules, Obeys rule.directive rule.target rule.step
  apart : ∀ rule ∈ rules, ∀ other ∈ rules, rule.directive ≠ other.target

variable {rule : Rule} {rules : List Rule}

theorem Sound.rest (sound : Sound (rule :: rules)) : Sound rules where
  obeys other inside := sound.obeys other (List.mem_cons_of_mem _ inside)
  apart other inside another among :=
    sound.apart other (List.mem_cons_of_mem _ inside) another (List.mem_cons_of_mem _ among)

theorem Sound.get? (sound : Sound (rule :: rules)) (record : Value) (attributes : Attributes) :
    ∀ other ∈ rules,
      (rule.step record attributes).1.get? other.directive = attributes.get? other.directive :=
  fun other later => ((sound.obeys rule List.mem_cons_self).only record attributes).get?
    (sound.apart other (List.mem_cons_of_mem _ later) rule List.mem_cons_self)

def written (rules : List Rule) (attributes : Attributes) : List String :=
  (rules.filter fun rule => (attributes.get? rule.directive).isSome).map Rule.target

theorem overElement_done (sound : Sound rules) (record : Value) (attributes : Attributes) :
    (overElement record (rules.map Rule.step) attributes).2 = none ↔
      ∀ rule ∈ rules, (rule.step record attributes).2 = none := by
  induction rules generalizing attributes with
  | nil => simp [overElement]
  | cons rule rules ih =>
    have kept := sound.get? record attributes
    rw [List.forall_mem_cons, List.map_cons, overElement]
    generalize rule.step record attributes = outcome at kept
    obtain ⟨changed, failure⟩ := outcome
    cases failure with
    | some failure => simp
    | none =>
      simp only [true_and]
      rw [ih sound.rest]
      exact forall₂_congr fun other inside =>
        (sound.rest.obeys other inside).settled record _ _ (kept other inside)

theorem filter_overElement (sound : Sound rules) (record : Value) (attributes : Attributes)
    (keep : String → Bool) (gone : ∀ name ∈ written rules attributes, keep name = false)
    (done : (overElement record (rules.map Rule.step) attributes).2 = none) :
    (overElement record (rules.map Rule.step) attributes).1.filter (fun pair => keep pair.1) =
      attributes.filter fun pair => keep pair.1 := by
  induction rules generalizing attributes with
  | nil => rfl
  | cons rule rules ih =>
    have obeys := sound.obeys rule List.mem_cons_self
    have kept := sound.get? record attributes
    have here : (rule.step record attributes).1.filter (fun pair => keep pair.1) =
        attributes.filter fun pair => keep pair.1 := by
      cases found : attributes.get? rule.directive with
      | none => rw [obeys.absent record attributes found]
      | some spec =>
        exact (obeys.only record attributes).filter
          (gone _ (by simp [written, found]))
    rw [List.map_cons, overElement] at done ⊢
    generalize rule.step record attributes = outcome at kept here done
    obtain ⟨changed, failure⟩ := outcome
    cases failure with
    | some failure => cases done
    | none =>
      refine (ih sound.rest changed (fun name inside => gone name ?_) done).trans here
      obtain ⟨other, among, rfl⟩ := List.mem_map.1 inside
      obtain ⟨among, present⟩ := List.mem_filter.1 among
      refine List.mem_map.2 ⟨other, List.mem_filter.2 ⟨List.mem_cons_of_mem _ among, ?_⟩, rfl⟩
      rwa [← kept other among]

end Rule

end LiveList.Template.Directive
