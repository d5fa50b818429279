import LiveList.Proofs.Document.Layout
import LiveList.Proofs.Record.Collection
import LiveList.Proofs.View.Failure

/-!
# Standing views

A view stands in a document if collection, remembered nodes and the children of the container belong
together: the container has a block of plants for every record that is shown. A view follows another
one if it stands, and has come from it by changes of its records and its container only. Main
statements: adding, replacing, removing and redrawing records leave a view that follows.
-/

namespace LiveList

open Document (Plant Grows Layout Holds SameNodes)
open Document.Plant (Leafy ids trees)
open Json (Value)
open Markup (Tree)

def indicesOf (blocks : List (Nat × List Plant)) : List Nat := blocks.map Prod.fst

/-- Collection, remembered nodes and container belong together; `blocks` are the plants of the
records that are shown, in the order of the container. -/
structure Stands (view : ListView) (d : Document) (blocks : List (Nat × List Plant)) : Prop where
  sound : view.collection.Sound
  rooted : view.template.hasElementRoot
  parent : ∃ node, d.node? view.container = some node ∧
    node.children = (plantsOf blocks).map Plant.root
  holds : d.Holds (some view.container) (plantsOf blocks)
  nodup : (ids (plantsOf blocks)).Nodup
  outside : view.container ∉ ids (plantsOf blocks)
  remembered : view.nodes.Perm (rootsOf blocks)
  keys : (indicesOf blocks).Nodup
  known : ∀ index ∈ indicesOf blocks, index ∈ view.collection.indices
  marked : ∀ index plants, (index, plants) ∈ blocks → Marked index (trees plants)

def Faithful (view : ListView) (blocks : List (Nat × List Plant)) : Prop :=
  ∀ index plants, (index, plants) ∈ blocks → ∃ record, view.collection.get? index = some record ∧
    view.draw record = .ok (trees plants)

/-- The view has come from an earlier one by changes of its records and its container; the plants
`loose` are drawn and not yet shown. -/
structure Follows (view₀ : ListView) (d₀ : Document) (old : List (Nat × List Plant))
    (view : ListView) (d : Document) (blocks : List (Nat × List Plant)) (loose : List Plant) :
    Prop where
  stands : Stands view d blocks
  layout : Layout d₀ view₀.container (plantsOf old) d (plantsOf blocks) loose
  same : view = { view₀ with collection := view.collection, nodes := view.nodes }
  next : view₀.collection.next ≤ view.collection.next

variable {view view₀ view' : ListView} {d d₀ d' : Document} {index : Nat} {plants loose : List Plant}
  {blocks old before behind : List (Nat × List Plant)}

theorem keys_rootsOf (blocks : List (Nat × List Plant)) :
    OrderedMap.keys (rootsOf blocks) = indicesOf blocks := by
  simp [OrderedMap.keys, rootsOf, indicesOf]

@[simp] theorem indicesOf_append (left right : List (Nat × List Plant)) :
    indicesOf (left ++ right) = indicesOf left ++ indicesOf right := by
  simp [indicesOf]

@[simp] theorem indicesOf_cons (block : Nat × List Plant) (rest : List (Nat × List Plant)) :
    indicesOf (block :: rest) = block.1 :: indicesOf rest := rfl

@[simp] theorem indicesOf_nil : indicesOf [] = [] := rfl

namespace Stands

variable (stands : Stands view d blocks)
include stands

theorem keys_nodes : (OrderedMap.keys view.nodes).Perm (indicesOf blocks) := by
  rw [← keys_rootsOf]
  exact stands.remembered.map Prod.fst

theorem nodup_keys : (OrderedMap.keys view.nodes).Nodup :=
  stands.keys_nodes.nodup_iff.2 stands.keys

theorem get?_nodes (shown : (index, plants) ∈ blocks) :
    OrderedMap.get? view.nodes index = some (plants.map Plant.root) := by
  rw [OrderedMap.get?_eq_some_iff stands.nodup_keys, stands.remembered.mem_iff]
  exact List.mem_map_of_mem shown

theorem not_mem_keys_nodes (hidden : index ∉ indicesOf blocks) :
    index ∉ OrderedMap.keys view.nodes :=
  fun inside => hidden (stands.keys_nodes.mem_iff.1 inside)

theorem children_container : d.children view.container = (plantsOf blocks).map Plant.root := by
  obtain ⟨node, live, list⟩ := stands.parent
  rw [Document.children_of_node? live, list]

theorem next_not_mem : view.collection.next ∉ indicesOf blocks :=
  fun inside => stands.sound.next_not_mem (stands.known _ inside)

theorem congr (parent : ∃ node, d'.node? view.container = some node ∧
      node.children = (plantsOf blocks).map Plant.root)
    (same : ∀ id ∈ ids (plantsOf blocks), d'.node? id = d.node? id) : Stands view d' blocks :=
  { stands with parent, holds := stands.holds.congr same }

theorem congr_nodes (same : ∀ id, id = view.container ∨ id ∈ ids (plantsOf blocks) →
    d'.node? id = d.node? id) : Stands view d' blocks := by
  obtain ⟨node, live, list⟩ := stands.parent
  exact stands.congr ⟨node, by rw [same _ (.inl rfl), live], list⟩ fun id inside => same id (.inr inside)

theorem below_container {id : NodeId} (inside : id ∈ ids (plantsOf blocks)) :
    d.Below view.container id := by
  obtain ⟨plant, shown, below⟩ := stands.holds.below_root inside
  exact (Document.Below.step (stands.holds.parent?_root shown) .self).trans below

theorem follows (wf : d.WellFormed) : Follows view d blocks view d blocks [] := by
  obtain ⟨node, live, list⟩ := stands.parent
  exact ⟨stands, .start wf.grounded live list stands.holds stands.nodup stands.outside
    (wf.root_not_mem_ids stands.holds), rfl, Nat.le_refl _⟩

end Stands

theorem Stands.of_layout {d₀ : Document} {container : NodeId} {first : List Plant}
    (layout : Layout d₀ container first d (plantsOf blocks) loose) (at_ : view.container = container)
    (sound : view.collection.Sound) (rooted : view.template.hasElementRoot)
    (remembered : view.nodes.Perm (rootsOf blocks)) (keys : (indicesOf blocks).Nodup)
    (known : ∀ index ∈ indicesOf blocks, index ∈ view.collection.indices)
    (marked : ∀ index plants, (index, plants) ∈ blocks → Marked index (trees plants)) :
    Stands view d blocks := by
  subst at_
  obtain ⟨node, -, held⟩ := layout.parent
  have nodup := layout.nodup
  have outside := layout.outside
  rw [Plant.ids_append] at nodup outside
  rw [List.mem_append, not_or] at outside
  exact ⟨sound, rooted, ⟨_, held, rfl⟩, layout.holds, (List.nodup_append.1 nodup).1, outside.1,
    remembered, keys, known, marked⟩

namespace Follows

theorem container (follows : Follows view₀ d₀ old view d blocks loose) :
    view.container = view₀.container := by
  rw [follows.same]

theorem grow (follows : Follows view₀ d₀ old view d blocks loose) {more : List Plant}
    (grows : Grows d none more d') : Follows view₀ d₀ old view d' blocks (loose ++ more) := by
  have layout := follows.layout.grow grows
  have stands := follows.stands
  exact ⟨.of_layout layout follows.container stands.sound stands.rooted stands.remembered
    stands.keys stands.known stands.marked, layout, follows.same, follows.next⟩

end Follows

end LiveList
