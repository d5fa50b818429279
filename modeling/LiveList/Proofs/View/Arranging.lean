import LiveList.Proofs.Page.Shown
import LiveList.Proofs.Page.Joined
import LiveList.Proofs.View.Apart
import LiveList.Proofs.View.Showing

namespace LiveList

open Document (Plant Layout)
open Document.Plant (ids trees)
open Json (Value)
open Markup (Tree)

/-- The container holds the nodes of all records, in display order, and nothing else. There are
elements among the nodes of each, which carry its index, and all of them show the records as the
template gives them. -/
structure ListView.Presents (view : ListView) (d : Document) : Prop where
  children : d.children view.container = view.collection.indices.flatMap view.rootsAt
  element : ∀ index ∈ view.collection.indices, ∃ root ∈ view.rootsAt index, d.isElement root
  marked : ∀ index ∈ view.collection.indices, ∀ root ∈ view.rootsAt index, d.isElement root →
    d.attribute? root dataIdAttribute = some (toString index)
  drawn : ∀ index record, view.collection.get? index = some record →
    ∃ forest, view.draw record = .ok forest
  html : view.html d = String.ofList (Tree.forestMarkup (d.holdsRawText view.container)
    (view.collection.indices.flatMap view.drawnAt))

variable {view : ListView} {d : Document} {blocks : List (Nat × List Plant)} {items : Items Plant}
  {order : List Nat}

theorem trees_plantsOf {κ : Type} (blocks : List (κ × List Plant)) :
    trees (plantsOf blocks) = (blocks.map fun block => trees block.2).flatten := by
  simp only [Plant.trees_eq_map, plantsOf, List.map_flatMap]
  rfl

theorem Faithful.exists_draw (faithful : Faithful view blocks) {index : Nat} {record : Record}
    (shown : index ∈ indicesOf blocks) (held : view.collection.get? index = some record) :
    ∃ forest, view.draw record = .ok forest := by
  obtain ⟨block, inside, rfl⟩ := List.mem_map.1 shown
  obtain ⟨found, there, drawn⟩ := faithful block.1 block.2 inside
  cases held.symm.trans there
  exact ⟨_, drawn⟩

theorem Stands.presents (stands : Stands view d blocks)
    (notRoot : Document.root ∉ ids (plantsOf blocks))
    (whole : indicesOf blocks = view.collection.indices) (faithful : Faithful view blocks) :
    view.Presents d := by
  have block {index : Nat} (known : index ∈ view.collection.indices) :
      ∃ plants, (index, plants) ∈ blocks ∧ view.rootsAt index = plants.map Plant.root := by
    rw [← whole] at known
    obtain ⟨⟨_, plants⟩, shown, rfl⟩ := List.mem_map.1 known
    exact ⟨plants, shown, stands.rootsAt_shown shown⟩
  refine ⟨?_, fun index known => ?_, fun index known root isRoot element => ?_,
    fun index record held => ?_, ?_⟩
  · rw [stands.children_container, ← stands.flatMap_rootsAt, whole]
  · obtain ⟨plants, shown, same⟩ := block known
    exact same ▸ stands.exists_element notRoot shown
  · obtain ⟨plants, shown, same⟩ := block known
    exact stands.attribute?_root notRoot shown (same ▸ isRoot) element
  · exact faithful.exists_draw (whole ▸ Collection.mem_indices.2 ⟨record, held⟩) held
  · rw [ListView.html, Document.innerHtml_of_holds stands.holds stands.nodup
      stands.children_container, trees_plantsOf, faithful.map_trees, whole, List.flatMap]

section

variable {d' : Document} {id : NodeId} (same : d'.node? id = d.node? id)
include same

theorem Document.isElement_congr : d'.isElement id = d.isElement id := by
  simp only [isElement, tag?, kind?, same]

theorem Document.attribute?_congr (name : String) : d'.attribute? id name = d.attribute? id name := by
  simp only [attribute?, attributes, kind?, same]

end

theorem ListView.Presents.congr (presents : view.Presents d) (arranges : view.Arranges d items)
    {d' : Document} (grounded : d'.Grounded)
    (same : ∀ id ∈ d.subtree view.container, d'.node? id = d.node? id) : view.Presents d' := by
  have moved : view.Arranges d' items := arranges.congr grounded same
  have children : d'.children view.container = d.children view.container := by
    rw [Arranged.children_container moved, Arranged.children_container arranges]
  have atRoot {index : Nat} {root : NodeId} (known : index ∈ view.collection.indices)
      (isRoot : root ∈ view.rootsAt index) : d'.node? root = d.node? root := by
    have child : root ∈ d.children view.container :=
      presents.children ▸ List.mem_flatMap.2 ⟨index, known, isRoot⟩
    rw [Arranged.children_container arranges] at child
    refine same root ?_
    rw [arranges.layout.subtree_eq]
    exact List.mem_cons_of_mem _ ((Plant.map_root_sublist _).mem child)
  refine ⟨children ▸ presents.children, fun index known => ?_, fun index known root isRoot element => ?_,
    presents.drawn, ?_⟩
  · obtain ⟨root, isRoot, element⟩ := presents.element index known
    exact ⟨root, isRoot, (Document.isElement_congr (atRoot known isRoot)).trans element⟩
  · rw [Document.attribute?_congr (atRoot known isRoot)]
    exact presents.marked index known root isRoot
      ((Document.isElement_congr (atRoot known isRoot)).symm.trans element)
  · rw [Arranged.html_eq moved, arranges.holdsRawText_congr same, ← presents.html,
      Arranged.html_eq arranges]

structure ListView.Brought (order : List Nat) (view : ListView) (d : Document) (left : Scene) :
    Prop where
  same : left.view = { view with collection := left.view.collection, nodes := left.view.nodes }
  sound : left.view.collection.Sound
  rearranges : view.collection.Rearranges order left.view.collection
  arranges : ∃ items, left.view.Arranges left.document items
  raw : left.document.holdsRawText view.container = d.holdsRawText view.container
  presents : left.view.Presents left.document

theorem ListView.Brought.drawnAt {left : Scene} (brought : view.Brought order d left) (index : Nat) :
    left.view.drawnAt index = view.drawnAt index := by
  have draws (record : Record) : left.view.draw record = view.draw record := by
    rw [brought.same]
    rfl
  simp only [ListView.drawnAt, brought.rearranges.get?, draws]

theorem ListView.Brought.html_eq {left : Scene} {d' : Document} (brought : view.Brought order d left)
    (indices : left.view.collection.indices = view.collection.indices) (presents : view.Presents d)
    (later : left.view.Presents d') (raw : d'.holdsRawText left.view.container =
      left.document.holdsRawText left.view.container) : left.view.html d' = view.html d := by
  have container : left.view.container = view.container := by rw [brought.same]
  have drawn : left.view.drawnAt = view.drawnAt := funext brought.drawnAt
  rw [later.html, presents.html, raw, indices, drawn, container, brought.raw]

namespace Patch

theorem Sketched.arranges {α : Type} {patch : Patch α} {tries : Sketch → Except Error (α × Sketch)}
    (sketched : patch.Sketched tries) (arranges : view.Arranges d items) {a : α} {left : Scene}
    (run : patch.on ⟨view, d⟩ = (.ok a, left)) :
    (∃ items', left.view.Arranges left.document items') ∧
      left.document.holdsRawText view.container = d.holdsRawText view.container := by
  have outcome := sketched arranges
  split at outcome
  · obtain ⟨left', failed⟩ := outcome
    cases run.symm.trans failed
  · obtain ⟨left', items', made, arranged, -⟩ := outcome
    cases run.symm.trans made
    exact ⟨⟨items', .of_arranged arranged⟩, arranged.layout.holdsRawText_top⟩

theorem arrange_rearranges (distinct : view.collection.indices.Nodup) {values : List Value}
    {left : Scene} (run : (arrange order).on ⟨view, d⟩ = (.ok values, left)) :
    view.collection.Rearranges order left.view.collection ∧ values = left.view.collection.json := by
  obtain ⟨redrawn, mid, drawing, -, collection⟩ :=
    on_rerender (arrangedOrder view.collection order) view d
  rw [on_arrange, drawing] at run
  cases redrawn with
  | error cause => cases run
  | ok _ =>
    cases run
    rw [collection]
    exact ⟨Collection.reorder_arrangedOrder distinct order, rfl⟩

/-- Whatever stood in the container, it presents the records in the order. -/
theorem arrange_brought (arranges : view.Arranges d items) (sane : view.Sane) (distinct : order.Nodup)
    {values : List Value} {left : Scene} (run : (arrange order).on ⟨view, d⟩ = (.ok values, left)) :
    view.Brought order d left ∧ values = left.view.collection.json := by
  have sound := sane.sound
  have perm := arrangedOrder_perm sound distinct
  have once := perm.nodup_iff.2 sound.nodup
  obtain ⟨rearranges, isJson⟩ := arrange_rearranges sound.nodup run
  obtain ⟨arranges', raw⟩ := Sketched.arranges (arrange_sketched order) arranges run
  rw [on_arrange] at run
  cases drawn : view.drawAll (view.collection.listed (arrangedOrder view.collection order)) with
  | error cause =>
    have start : Document.Grows d none (plantsOf ([] : List (Nat × List Plant))) d :=
      .refl arranges.layout.grounded _
    obtain ⟨d', failed, -, -⟩ := on_renderAll_error _ arranges.layout.grounded start drawn
    rw [on_rerender_error failed] at run
    cases run
  | ok forests =>
    obtain ⟨d', new, redrawn, layout, stands, shown, faithful⟩ := rerender_stands arranges.layout rfl
      sound sane.rooted once (fun _ inside => perm.mem_iff.1 inside) drawn
    rw [redrawn] at run
    cases run
    have listed := Collection.indices_reorder sound perm
    have notRoot := layout.notRoot
    rw [List.append_nil] at notRoot
    have whole : Stands _ d' new := stands.reorder (arrangedOrder view.collection order)
    have asDrawn : Faithful { view with nodes := rootsOf new } new := faithful
    exact ⟨⟨rfl, sound.reorder _, rearranges, arranges', raw,
      whole.presents notRoot (shown.trans listed.symm) (asDrawn.reorder sound _)⟩, isJson⟩

theorem arrange_succeeds (arranges : view.Arranges d items)
    (drawable : ∀ index record, view.collection.get? index = some record →
      ∃ forest, view.draw record = .ok forest) (order : List Nat) :
    ∃ values left, (arrange order).on ⟨view, d⟩ = (.ok values, left) := by
  have each : ∀ item ∈ view.collection.listed (arrangedOrder view.collection order),
      ∃ forest, view.draw item.2 = .ok forest := fun item inside =>
    drawable item.1 item.2 (Collection.get?_of_mem_listed inside)
  obtain ⟨forests, drawn⟩ := ListView.exists_drawAll each
  have start : Document.Grows d none (plantsOf ([] : List (Nat × List Plant))) d :=
    .refl arranges.layout.grounded _
  obtain ⟨d', new, rendered, -, -⟩ := on_renderAll_ok _ start drawn
  exact ⟨_, _, by rw [on_arrange, on_rerender_ok rendered]⟩

theorem sort_brought (arranges : view.Arranges d items) (sane : view.Sane) {values : List Value}
    {left : Scene} (run : sort.on ⟨view, d⟩ = (.ok values, left)) :
    ∃ order, view.Brought order d left ∧ values = left.view.collection.json ∧
      left.view.collection.indices.Pairwise (· < ·) := by
  rw [on_sort] at run
  have perm := Collection.sortedIndices_perm view.collection fun a b => compare a.index b.index
  obtain ⟨brought, isJson⟩ := arrange_brought arranges sane (perm.nodup_iff.2 sane.sound.nodup) run
  refine ⟨_, brought, isJson, ?_⟩
  rw [brought.rearranges.indices_of_perm sane.sound.nodup perm]
  exact sane.sound.sortedIndices_ascending

end Patch

end LiveList
