import LiveList.Proofs.Document.Containment
import LiveList.Proofs.Template.Directives
import LiveList.Proofs.Template.Rendering

namespace LiveList.Document

open Json (Value)
open Markup (Attributes)
open Template.Directive (Step overElement overElement_cons overElement_of_done overElement_steps_done
  directed_overElement steps Directed Faulty Orderly)

variable {d d' d'' : Document} {list : List NodeId}

/-- The second document differs from the first in the attributes of listed elements only. -/
structure Rewritten (d : Document) (list : List NodeId) (change : Attributes → Attributes)
    (d' : Document) : Prop where
  elsewhere : ∀ id, id ∉ list → d'.node? id = d.node? id
  changed : ∀ id ∈ list, ∃ tag attributes parent children,
    d.node? id = some ⟨.element tag attributes, parent, children⟩ ∧
    d'.node? id = some ⟨.element tag (change attributes), parent, children⟩

def Elements (d : Document) (list : List NodeId) : Prop :=
  ∀ id ∈ list, ∃ tag attributes parent children,
    d.node? id = some ⟨.element tag attributes, parent, children⟩

theorem elements_of_filter (list : List NodeId) : d.Elements (list.filter d.isElement) := by
  intro id inside
  have tagged : (d.tag? id).isSome = true := by
    have found := (List.mem_filter.1 inside).2
    rw [isElement, Bool.and_eq_true] at found
    exact found.2
  unfold tag? kind? at tagged
  cases held : d.node? id with
  | none => simp [held] at tagged
  | some node =>
    obtain ⟨kind, parent, children⟩ := node
    cases kind with
    | element tag attributes => exact ⟨tag, attributes, parent, children, rfl⟩
    | text content => simp [held] at tagged
    | comment body => simp [held] at tagged

namespace Rewritten

variable {change next : Attributes → Attributes}

theorem elements (rewritten : Rewritten d list change d') : d'.Elements list := by
  intro id inside
  obtain ⟨tag, attributes, parent, children, -, held⟩ := rewritten.changed id inside
  exact ⟨tag, _, parent, children, held⟩

theorem attributes (rewritten : Rewritten d list change d') {id : NodeId} (inside : id ∈ list) :
    d'.attributes id = change (d.attributes id) := by
  obtain ⟨tag, attributes, parent, children, before, after⟩ := rewritten.changed id inside
  rw [attributes_of_node? after, attributes_of_node? before]

theorem trans (first : Rewritten d list change d') (second : Rewritten d' list next d'') :
    Rewritten d list (next ∘ change) d'' where
  elsewhere id outside := (second.elsewhere id outside).trans (first.elsewhere id outside)
  changed id inside := by
    obtain ⟨tag, attributes, parent, children, before, between⟩ := first.changed id inside
    obtain ⟨_, _, _, _, same, after⟩ := second.changed id inside
    rw [between] at same
    cases same
    exact ⟨tag, attributes, parent, children, before, after⟩

theorem congr (rewritten : Rewritten d list change d')
    (same : ∀ id ∈ list, next (d.attributes id) = change (d.attributes id)) :
    Rewritten d list next d' where
  elsewhere := rewritten.elsewhere
  changed id inside := by
    obtain ⟨tag, attributes, parent, children, before, after⟩ := rewritten.changed id inside
    have here := same id inside
    rw [attributes_of_node? before] at here
    exact ⟨tag, attributes, parent, children, before, here ▸ after⟩

end Rewritten

theorem applyStep_each (step : Step) (record : Value) (nodup : list.Nodup)
    (elements : d.Elements list) :
    ((d.applyStep step record list).2 = none ↔
      ∀ id ∈ list, (step record (d.attributes id)).2 = none) ∧
    ((d.applyStep step record list).2 = none →
      Rewritten d list (fun attributes => (step record attributes).1)
        (d.applyStep step record list).1) := by
  induction list generalizing d with
  | nil => exact ⟨by simp [applyStep], fun _ => ⟨fun _ _ => rfl, by simp⟩⟩
  | cons id rest ih =>
    obtain ⟨⟨tag, attributes, parent, children, held⟩, others⟩ := List.forall_mem_cons.1 elements
    obtain ⟨apart, nodup⟩ := List.nodup_cons.1 nodup
    have here := attributes_of_node? held
    rw [List.forall_mem_cons, here]
    generalize stepEq : step record attributes = outcome
    obtain ⟨changed, failure⟩ := outcome
    cases failure with
    | some failure => simp [applyStep_stopped held stepEq]
    | none =>
      have slots := node?_modifyAttributes held fun _ => changed
      rw [applyStep_changed held stepEq]
      generalize d.modifyAttributes id (fun _ => changed) = d₁ at slots
      -- The elements are distinct, so the others have the attributes that they had.
      have elsewhere : ∀ other, other ≠ id → d₁.node? other = d.node? other := fun other differ => by
        rw [slots, if_neg differ]
      have kept : ∀ other ∈ rest, d₁.node? other = d.node? other := fun other inside =>
        elsewhere other fun same => apart (same ▸ inside)
      have same : ∀ other ∈ rest, d₁.attributes other = d.attributes other := fun other inside => by
        rw [Document.attributes, Document.attributes, kind?, kind?, kept other inside]
      obtain ⟨done, rewritten⟩ := ih nodup (d := d₁) fun other inside => by
        rw [kept other inside]
        exact others other inside
      refine ⟨?_, fun ran => ⟨fun other outside => ?_, List.forall_mem_cons.2 ⟨?_, fun other inside => ?_⟩⟩⟩
      · rw [done]
        simp only [true_and]
        exact forall₂_congr fun other inside => by rw [same other inside]
      · obtain ⟨differ, outside⟩ := by simpa using outside
        rw [(rewritten ran).elsewhere other outside, elsewhere other differ]
      · refine ⟨tag, attributes, parent, children, held, ?_⟩
        rw [(rewritten ran).elsewhere id apart, slots, if_pos rfl, stepEq]
      · obtain ⟨tag, attributes, parent, children, before, after⟩ :=
          (rewritten ran).changed other inside
        exact ⟨tag, attributes, parent, children, by rw [← kept other inside, before], after⟩

theorem applySteps_each (steps : List Step) (record : Value) (nodup : list.Nodup)
    (elements : d.Elements list) :
    ((d.applySteps record list steps).2 = none ↔
      ∀ id ∈ list, (overElement record steps (d.attributes id)).2 = none) ∧
    ((d.applySteps record list steps).2 = none →
      Rewritten d list (fun attributes => (overElement record steps attributes).1)
        (d.applySteps record list steps).1) := by
  induction steps generalizing d with
  | nil =>
    refine ⟨by simp [applySteps, overElement], fun _ => ⟨fun _ _ => rfl, fun id inside => ?_⟩⟩
    obtain ⟨tag, attributes, parent, children, held⟩ := elements id inside
    exact ⟨tag, attributes, parent, children, held, held⟩
  | cons step rest ih =>
    have here := applyStep_each step record nodup elements
    rw [applySteps]
    generalize d.applyStep step record list = outcome at here
    obtain ⟨d₁, failure⟩ := outcome
    obtain ⟨done, rewritten⟩ := here
    cases failure with
    | some failure =>
      refine ⟨⟨by simp, fun all => ?_⟩, by simp⟩
      cases done.2 fun id inside => (overElement_cons (all id inside)).1
    | none =>
      have rewritten := rewritten rfl
      obtain ⟨later, changed⟩ := ih rewritten.elements
      have each : ∀ id ∈ list, overElement record (step :: rest) (d.attributes id) =
          overElement record rest (d₁.attributes id) := by
        intro id inside
        rw [overElement_of_done (done.1 rfl id inside),
          rewritten.attributes inside]
      refine ⟨?_, fun ran => (rewritten.trans (changed ran)).congr fun id inside => ?_⟩
      · rw [later]
        exact forall₂_congr fun id inside => by rw [each id inside]
      · rw [each id inside, rewritten.attributes inside]
        rfl

theorem WellFormed.nodup_subtree (wf : d.WellFormed) (id : NodeId) : (d.subtree id).Nodup := by
  by_cases live : d.contains id
  · obtain ⟨plant, rfl, held, nodup⟩ :=
      wf.coherent.toConsistent.exists_plant live (wf.coherent.untangled id)
    have listed := subtree_of_holds held nodup
    rw [List.map_singleton, List.flatMap_singleton] at listed
    rw [listed]
    exact nodup
  · have dead : d.node? id = none := by simpa [contains] using live
    unfold subtree
    cases d.slots.size <;> simp [subtreeWithin, dead]

def directed (d : Document) (roots : List NodeId) : List NodeId :=
  (roots.flatMap d.subtree).filter d.isElement

theorem WellFormed.nodup_directed (wf : d.WellFormed) {roots : List NodeId}
    (apart : roots.Pairwise fun root other => ∀ id ∈ d.subtree root, id ∉ d.subtree other) :
    (d.directed roots).Nodup :=
  (List.nodup_flatMap.2 ⟨fun root _ => wf.nodup_subtree root,
    apart.imp fun separate id inside among => separate id inside among⟩).filter _

theorem applyDirectives_directed (wf : d.WellFormed) {roots : List NodeId}
    (apart : roots.Pairwise fun root other => ∀ id ∈ d.subtree root, id ∉ d.subtree other)
    (record : Value) :
    ((d.applyDirectives roots record).2 ≠ none ↔
      ∃ id ∈ d.directed roots, Faulty (d.attributes id)) ∧
    ((d.applyDirectives roots record).2 = none →
      (∀ id, id ∉ d.directed roots → (d.applyDirectives roots record).1.node? id = d.node? id) ∧
      ∀ id ∈ d.directed roots, ∃ tag before after parent children,
        d.node? id = some ⟨.element tag before, parent, children⟩ ∧
        (d.applyDirectives roots record).1.node? id = some ⟨.element tag after, parent, children⟩ ∧
        Directed record before after) := by
  obtain ⟨done, rewritten⟩ := applySteps_each steps record
    (wf.nodup_directed apart) (elements_of_filter _)
  rw [applyDirectives, ← directed]
  simp only [overElement_steps_done] at done
  refine ⟨?_, fun ran => ⟨(rewritten ran).elsewhere, fun id inside => ?_⟩⟩
  · rw [ne_eq, done]
    simp
  · obtain ⟨tag, before, parent, children, held, changed⟩ := (rewritten ran).changed id inside
    have sound := done.1 ran id inside
    rw [attributes_of_node? held] at sound
    exact ⟨tag, before, _, parent, children, held, changed, directed_overElement
      ((overElement_steps_done record before).2 sound)⟩

def directedMarkup : String :=
  "<p data-checked=b data-hide=a data-show=b data-style='\x7b\x22color\x22:\x22a?red:\x22\x7d' " ++
    "data-class='\x7b\x22y\x22:\x22!a\x22\x7d' style=top:0 class=y><b data-hide=a>"

def directedRecord : Value := .object [("a", .bool true), ("b", .null)]

theorem applyDirectives_directed_nested :
    let d := ofHtml directedMarkup
    let changed := d.applyDirectives (d.children root) directedRecord
    d.WellFormed ∧
    (d.children root).Pairwise (fun root other => ∀ id ∈ d.subtree root, id ∉ d.subtree other) ∧
    changed.2 = none ∧ d.directed (d.children root) = [1, 2] ∧
    ∀ id ∈ d.directed (d.children root), Orderly (d.attributes id) ∧
      Directed directedRecord (d.attributes id) (changed.1.attributes id) := by
  intro d changed
  have facts : d.children root = [1] ∧ changed.2 = none ∧ d.directed (d.children root) = [1, 2] ∧
      Orderly (d.attributes 1) ∧ Orderly (d.attributes 2) := by
    decide +kernel
  obtain ⟨single, done, listed, outer, inner⟩ := facts
  have apart : (d.children root).Pairwise
      fun root other => ∀ id ∈ d.subtree root, id ∉ d.subtree other := by
    rw [single]
    exact List.pairwise_singleton _ _
  have orderly : ∀ id ∈ d.directed (d.children root), Orderly (d.attributes id) := by
    rw [listed]
    simpa using ⟨outer, inner⟩
  refine ⟨ofHtml_wellFormed _, apart, done, listed, fun id inside => ?_⟩
  obtain ⟨tag, before, after, parent, children, held, written, directed⟩ :=
    ((applyDirectives_directed (ofHtml_wellFormed _) apart directedRecord).2 done).2 id inside
  refine ⟨orderly id inside, ?_⟩
  rw [attributes_of_node? held, attributes_of_node? written]
  exact directed

end LiveList.Document
