import LiveList.Proofs.View.Failure
import LiveList.Proofs.View.Items

/-!
# Sketches of changes

What the changes of a view come to without a document: the result of each, and the records and trees
that it leaves. Main statement: where a container was arranged by its view, every change of the view
does in the document just what its sketch says, changes nothing but the content of the container, and
leaves it arranged. So nothing that a change gives depends on which slots its nodes are in.
-/

namespace LiveList

open Document (Plant Layout Grows)
open Document.Plant (trees)
open Json (Value)
open Markup (Tree)

def Document.Plant.tree : Plant → Tree
  | .node _ kind children => grow kind (trees children)

theorem Document.Plant.trees_eq_map (plants : List Plant) : trees plants = plants.map tree := by
  induction plants with
  | nil => rw [trees, List.map_nil]
  | cons plant rest ih =>
    obtain ⟨id, kind, children⟩ := plant
    rw [trees, ih]
    rfl

/-- A view, but for where its container is and which nodes it remembers, and the trees of the
container. -/
structure Sketch where
  view : ListView
  items : Items Tree

def ListView.sketch (view : ListView) (items : Items Plant) : Sketch :=
  ⟨{ view with container := Document.root, nodes := [] }, items.map Plant.tree⟩

section

variable (view : ListView) (items : Items Plant)

@[simp] theorem ListView.sketch_collection : (view.sketch items).view.collection = view.collection :=
  rfl

@[simp] theorem ListView.sketch_draw (record : Record) :
    (view.sketch items).view.draw record = view.draw record := rfl

@[simp] theorem ListView.sketch_drawAll {κ : Type} (records : List (κ × Record)) :
    (view.sketch items).view.drawAll records = view.drawAll records :=
  drawAll_congr (view.sketch_draw items) records

end

/-- Views with one sketch differ only in their containers and in what they remember. -/
theorem ListView.eq_of_sketch {view view' : ListView} {items items' : Items Plant}
    (same : view'.sketch items' = view.sketch items)
    (container : view'.container = view.container) :
    { view' with nodes := [] } = { view with nodes := [] } :=
  calc { view' with nodes := [] }
    _ = { (view'.sketch items').view with container := view'.container } := rfl
    _ = { (view.sketch items).view with container := view.container } := by rw [same, container]
    _ = { view with nodes := [] } := rfl

namespace Sketch

variable {α : Type}

def attempt (tries : Sketch → Except Error (α × Sketch)) (s : Sketch) : Except Error α × Sketch :=
  match tries s with
  | .error cause => (.error cause, s)
  | .ok (a, left) => (.ok a, left)

def withRecord (s : Sketch) (place : Place) (record : Record) (forest : List Tree) : Sketch :=
  ⟨{ s.view with collection := place.added s.view.collection record },
    s.items.add place s.view.collection.next forest⟩

def insert (record : Record) (place : Place) (s : Sketch) : Except Error ((Nat × Value) × Sketch) :=
  let index := s.view.collection.next
  match s.view.draw (record.withIndex index) with
  | .error cause => .error (.template cause)
  | .ok forest =>
    let left := s.withRecord place record forest
    .ok ((index, ((left.view.collection.get? index).map fun r => r.json).getD .null), left)

def addAll : List (Record × List Tree) → Sketch → List Nat × Sketch
  | [], s => ([], s)
  | (record, forest) :: rest, s =>
    let (indices, left) := addAll rest (s.withRecord .back record forest)
    (s.view.collection.next :: indices, left)

def insertAll (items : List Value) (s : Sketch) : Except Error ((List Nat × Value) × Sketch) :=
  match items.mapM s.view.model.create with
  | .error cause => .error cause
  | .ok records =>
    let numbered := Patch.numbered s.view.collection records
    match s.view.drawAll (numbered.map fun record => (record, record)) with
    | .error cause => .error (.template cause)
    | .ok forests =>
      let (indices, left) := addAll forests s
      .ok ((indices, .array left.view.collection.json), left)

def edit (index : Nat) (fields : Value) (s : Sketch) : Except Error (Option Value × Sketch) :=
  if fields.isTruthy = false then .ok (none, s)
  else match s.view.collection.get? index with
    | none => .ok (none, s)
    | some record =>
      if s.items.of index = [] then .error (.missingDataId index)
      else match record.update fields with
        | .error cause => .error cause
        | .ok record =>
          match s.view.draw record with
          | .error cause => .error (.template cause)
          | .ok forest =>
            .ok (some record.json,
              ⟨{ s.view with collection := s.view.collection.replace index record },
                s.items.replace index forest⟩)

def remove (index : Nat) (s : Sketch) : Option Value × Sketch :=
  match s.view.collection.get? index with
  | none => (none, s)
  | some record =>
    (some record.json, ⟨{ s.view with collection := (s.view.collection.remove index).1 },
      s.items.without index⟩)

def removeAll (s : Sketch) : Unit × Sketch :=
  ((), ⟨{ s.view with collection := s.view.collection.clear }, []⟩)

def addFilter (name : String) (filter : Template.Filter) (s : Sketch) : Bool × Sketch :=
  let (filters, replaced) := s.view.filters.register name filter
  (replaced, ⟨{ s.view with filters }, s.items⟩)

def rerender (order : List Nat) (s : Sketch) : Except Error (Unit × Sketch) :=
  match s.view.drawAll (s.view.collection.listed order) with
  | .error cause => .error (.template cause)
  | .ok forests => .ok ((), ⟨s.view, Items.addAll [] forests⟩)

def showOnly (matched : List Value) (s : Sketch) : Except Error (List Value × Sketch) :=
  let order := Patch.matchedOrder s.view.collection matched
  match s.rerender order with
  | .error cause => .error cause
  | .ok (_, left) =>
    .ok (order.filterMap fun index => (s.view.collection.get? index).map fun r => r.json, left)

def arrange (order : List Nat) (s : Sketch) : Except Error (List Value × Sketch) :=
  let order := Patch.arrangedOrder s.view.collection order
  match s.rerender order with
  | .error cause => .error cause
  | .ok (_, left) =>
    let reordered := left.view.collection.reorder order
    .ok (reordered.json, ⟨{ left.view with collection := reordered }, left.items⟩)

def sort (s : Sketch) : Except Error (List Value × Sketch) :=
  s.arrange (s.view.collection.sortedIndices fun a b => compare a.index b.index)

def updateView (s : Sketch) : Except Error (Unit × Sketch) := s.rerender s.view.collection.indices

end Sketch

/-- Since the first document nothing but the content of the container has changed. It is made of the
items, and the view remembers for each index just those that belong to it. -/
structure Arranged (d₀ : Document) (above : NodeId) (old : List Plant) (view : ListView)
    (d : Document) (items : Items Plant) (loose : List Plant) : Prop where
  container : view.container = above
  layout : Layout d₀ above old d items.content loose
  remembered : ∀ index,
    (OrderedMap.get? view.nodes index).getD [] = (items.of index).map Plant.root

variable {α : Type} {d₀ d d' : Document} {above : NodeId} {view : ListView}
  {old plants loose : List Plant} {items : Items Plant} {index : Nat}

def Change.Sketched (change : Change α) (sketch : Sketch → α × Sketch) : Prop :=
  ∀ {d₀ above old view d items}, Arranged d₀ above old view d items [] →
    ∃ left items', change.on ⟨view, d⟩ = ((sketch (view.sketch items)).1, left) ∧
      Arranged d₀ above old left.view left.document items' [] ∧
      (sketch (view.sketch items)).2 = left.view.sketch items'

def Patch.Sketched (patch : Patch α) (tries : Sketch → Except Error (α × Sketch)) : Prop :=
  ∀ {d₀ above old view d items}, Arranged d₀ above old view d items [] →
    match tries (view.sketch items) with
    | .error cause => ∃ left, patch.on ⟨view, d⟩ = (.error cause, left)
    | .ok (a, s) => ∃ left items', patch.on ⟨view, d⟩ = (.ok a, left) ∧
        Arranged d₀ above old left.view left.document items' [] ∧ s = left.view.sketch items'

theorem Patch.Careful.sketched {patch : Patch α} {tries : Sketch → Except Error (α × Sketch)}
    (careful : patch.Careful) (sketched : patch.Sketched tries) :
    Change.Sketched patch.run (Sketch.attempt tries) := by
  intro d₀ above old view d items arranged
  have outcome := sketched arranged
  rw [Sketch.attempt]
  cases tried : tries (view.sketch items) with
  | error cause =>
    rw [tried] at outcome
    obtain ⟨left, run⟩ := outcome
    obtain ⟨same, grounded, nodes⟩ := careful view d arranged.layout.grounded cause left run
    exact ⟨left, items, run, ⟨same ▸ arranged.container, arranged.layout.sameNodes grounded nodes,
      same ▸ arranged.remembered⟩, same ▸ rfl⟩
  | ok made =>
    rw [tried] at outcome
    exact outcome

namespace Arranged

theorem grow (arranged : Arranged d₀ above old view d items []) (grows : Grows d none plants d') :
    Arranged d₀ above old view d' items plants :=
  ⟨arranged.container, arranged.layout.grow grows, arranged.remembered⟩

theorem add (arranged : Arranged d₀ above old view d items (plants ++ loose)) (place : Place)
    (record : Record) :
    Arranged d₀ above old (view.withRecord place record (plants.map Plant.root))
      (place.hung view.container (plants.map Plant.root) d)
      (items.add place view.collection.next plants) loose := by
  obtain ⟨rfl, layout, remembered⟩ := arranged
  refine ⟨rfl, ?_, fun index => ?_⟩
  · rw [Items.content_add]
    exact layout.hung place
  · rw [ListView.withRecord, OrderedMap.get?_put, Items.of_add]
    split
    · rfl
    · exact remembered index

theorem sketch_add (place : Place) (record : Record) (roots : List NodeId) :
    (view.withRecord place record roots).sketch (items.add place view.collection.next plants) =
      (view.sketch items).withRecord place record (trees plants) := by
  rw [ListView.sketch, Items.map_add, Plant.trees_eq_map]
  rfl

theorem replace {anchor : NodeId} (arranged : Arranged d₀ above old view d items plants)
    (first : ((items.of index).map Plant.root).head? = some anchor) (record : Record) :
    Arranged d₀ above old (view.withReplaced index record (plants.map Plant.root))
      (((plants.map Plant.root).foldl (fun d root => (d.insertBefore anchor root).1) d).removeNodes
        ((items.of index).map Plant.root))
      (items.replace index plants) [] := by
  obtain ⟨container, layout, remembered⟩ := arranged
  rw [← List.append_nil plants, ← List.nil_append items.content] at layout
  refine ⟨container, Items.layout_replace layout first, fun other => ?_⟩
  rw [ListView.withReplaced, OrderedMap.get?_put, Items.of_replace]
  split
  · rfl
  · exact remembered other

theorem sketch_replace (index : Nat) (record : Record) (roots : List NodeId) :
    (view.withReplaced index record roots).sketch (items.replace index plants) =
      ⟨{ (view.sketch items).view with collection := view.collection.replace index record },
        (view.sketch items).items.replace index (trees plants)⟩ := by
  rw [ListView.sketch, Items.map_replace, Plant.trees_eq_map]
  rfl

theorem without (arranged : Arranged d₀ above old view d items []) (index : Nat) :
    Arranged d₀ above old (view.without index)
      (d.removeNodes ((items.of index).map Plant.root)) (items.without index) [] := by
  obtain ⟨container, layout, remembered⟩ := arranged
  rw [← List.nil_append items.content] at layout
  refine ⟨container, Items.layout_without layout index, fun other => ?_⟩
  rw [ListView.without, OrderedMap.get?_remove, Items.of_without]
  split
  · rfl
  · exact remembered other

theorem redraw {blocks : List (Nat × List Plant)}
    (arranged : Arranged d₀ above old view d items (plantsOf blocks)) :
    Arranged d₀ above old { view with nodes := OrderedMap.putAll [] (rootsOf blocks) }
      (((plantsOf blocks).map Plant.root).foldl (fun d root => d.appendChild view.container root)
        (d.clearChildren view.container))
      (Items.addAll [] blocks) [] := by
  obtain ⟨rfl, layout, -⟩ := arranged
  rw [← List.append_nil (plantsOf blocks)] at layout
  refine ⟨rfl, ?_, fun index => ?_⟩
  · rw [Items.content_addAll]
    exact layout.clear.hung .back
  · suffices each : ∀ (nodes : OrderedMap Nat (List NodeId)) (items : Items Plant),
        (∀ index, (OrderedMap.get? nodes index).getD [] = (items.of index).map Plant.root) →
        (OrderedMap.get? (OrderedMap.putAll nodes (rootsOf blocks)) index).getD [] =
          ((items.addAll blocks).of index).map Plant.root from each [] [] fun _ => rfl
    clear layout
    induction blocks with
    | nil => exact fun _ _ same => same index
    | cons block rest ih =>
      refine fun nodes items same => ih _ _ fun index => ?_
      rw [OrderedMap.get?_put, Items.of_add]
      split
      · rfl
      · exact same index

end Arranged

theorem Items.map_addAll_trees (items : Items Plant) (blocks : List (Nat × List Plant)) :
    (items.addAll blocks).map Plant.tree = (items.map Plant.tree).addAll (treesOf blocks) := by
  simp only [Items.map_addAll, treesOf, Plant.trees_eq_map]

/-! ## Adding records -/

theorem Change.addAll_sketched (rest : List (Record × List Plant))
    (arranged : Arranged d₀ above old view d items (plantsOf rest)) :
    ∃ left items', (addAll (rootsOf rest)).on ⟨view, d⟩ =
        ((Sketch.addAll (treesOf rest) (view.sketch items)).1, left) ∧
      Arranged d₀ above old left.view left.document items' [] ∧
      (Sketch.addAll (treesOf rest) (view.sketch items)).2 = left.view.sketch items' := by
  induction rest generalizing view d items with
  | nil => exact ⟨⟨view, d⟩, items, rfl, arranged, rfl⟩
  | cons block rest ih =>
    obtain ⟨record, plants⟩ := block
    rw [plantsOf_cons] at arranged
    obtain ⟨left, items', run, arranged', same⟩ := ih (arranged.add .back record)
    rw [Arranged.sketch_add] at run same
    refine ⟨left, items', ?_, arranged', same⟩
    rw [rootsOf, List.map_cons, on_addAll_cons, ← rootsOf, run]
    rfl

namespace Patch

theorem insert_sketched (record : Record) (place : Place) :
    (insert record place).Sketched (Sketch.insert record place) := by
  intro d₀ above old view d items arranged
  cases drawn : view.draw (record.withIndex view.collection.next) with
  | error cause =>
    obtain ⟨d', failed, -, -⟩ := ListView.renderRecord_error arranged.layout.grounded drawn
    simp only [Sketch.insert, ListView.sketch_collection, ListView.sketch_draw, drawn]
    exact ⟨_, on_insert_error place failed⟩
  | ok forest =>
    obtain ⟨d', plants, rendered, grows, rfl⟩ :=
      ListView.renderRecord_ok arranged.layout.grounded drawn
    have grown := arranged.grow grows
    rw [← List.append_nil plants] at grown
    simp only [Sketch.insert, ListView.sketch_collection, ListView.sketch_draw, drawn]
    exact ⟨_, _, on_insert_ok place rendered, grown.add place record,
      (Arranged.sketch_add place record _).symm⟩

theorem insertAll_sketched (values : List Value) :
    (insertAll values).Sketched (Sketch.insertAll values) := by
  intro d₀ above old view d items arranged
  have grounded := arranged.layout.grounded
  have sameModel : (view.sketch items).view.model = view.model := rfl
  unfold Sketch.insertAll
  rw [sameModel]
  cases created : values.mapM view.model.create with
  | error cause => exact ⟨_, on_insertAll_of_create created⟩
  | ok records =>
    have start : Grows d none (plantsOf ([] : List (Record × List Plant))) d := .refl grounded _
    simp only [ListView.sketch_collection, ListView.sketch_drawAll]
    cases drawn : view.drawAll ((numbered view.collection records).map fun record =>
      (record, record)) with
    | error cause =>
      obtain ⟨d', failed, -, -⟩ := on_renderAll_error _ grounded start drawn
      exact ⟨_, on_insertAll_error created failed⟩
    | ok forests =>
      obtain ⟨d', rest, rendered, grows, rfl⟩ := on_renderAll_ok _ start drawn
      obtain ⟨left, items', run, arranged', same⟩ :=
        Change.addAll_sketched rest (arranged.grow grows)
      have whole := on_insertAll_ok created rendered
      rw [List.nil_append, run] at whole
      exact ⟨left, items', by rw [whole, same]; rfl, arranged', same⟩

/-! ## Editing and removing records -/

theorem edit_sketched (index : Nat) (fields : Value) :
    (edit index fields).Sketched (Sketch.edit index fields) := by
  intro d₀ above old view d items arranged
  have spelled : (edit index fields).on ⟨view, d⟩ = _ := on_edit index fields
  unfold Sketch.edit
  by_cases falsy : fields.isTruthy = false
  · rw [if_pos falsy] at spelled ⊢
    exact ⟨_, items, spelled, arranged, rfl⟩
  rw [if_neg falsy] at spelled ⊢
  rw [ListView.sketch_collection]
  cases held : view.collection.get? index with
  | none =>
    rw [held] at spelled
    exact ⟨_, items, spelled, arranged, rfl⟩
  | some found =>
    have head : (OrderedMap.get? view.nodes index).bind List.head? =
        ((items.of index).map Plant.root).head? := by
      rw [← arranged.remembered index]
      cases OrderedMap.get? view.nodes index <;> rfl
    have hidden : (view.sketch items).items.of index = [] ↔ items.of index = [] := by
      rw [ListView.sketch, Items.of_map, List.map_eq_nil_iff]
    simp only [held, head, arranged.remembered index] at spelled
    simp only [hidden]
    cases shown : items.of index with
    | nil =>
      simp only [shown, List.map_nil, List.head?_nil] at spelled
      exact ⟨_, spelled⟩
    | cons plant rest =>
      have first : ((items.of index).map Plant.root).head? = some plant.root := by rw [shown]; rfl
      simp only [first] at spelled
      simp only [reduceCtorEq, if_false]
      cases updated : found.update fields with
      | error cause =>
        simp only [updated] at spelled
        exact ⟨_, spelled⟩
      | ok record =>
        simp only [updated] at spelled
        simp only [ListView.sketch_draw]
        cases drawn : view.draw record with
        | error cause =>
          obtain ⟨d', failed, -, -⟩ := ListView.renderRecord_error arranged.layout.grounded drawn
          simp only [failed] at spelled
          exact ⟨_, spelled⟩
        | ok forest =>
          obtain ⟨d', plants, rendered, grows, rfl⟩ :=
            ListView.renderRecord_ok arranged.layout.grounded drawn
          simp only [rendered] at spelled
          exact ⟨_, _, spelled, (arranged.grow grows).replace first record,
            (Arranged.sketch_replace index record _).symm⟩

end Patch

namespace Change

theorem remove_sketched (index : Nat) : (remove index).Sketched (Sketch.remove index) := by
  intro d₀ above old view d items arranged
  unfold Sketch.remove
  rw [ListView.sketch_collection]
  cases held : view.collection.get? index with
  | none => exact ⟨_, items, on_remove held, arranged, rfl⟩
  | some record =>
    have run : (remove index).on ⟨view, d⟩ = (some record.json,
        ⟨view.without index, d.removeNodes ((items.of index).map Plant.root)⟩) := by
      rw [← arranged.remembered index]
      exact on_remove_held held
    refine ⟨_, _, run, arranged.without index, ?_⟩
    rw [ListView.sketch, ListView.sketch, Items.map_without]
    rfl

theorem removeAll_sketched : removeAll.Sketched Sketch.removeAll := by
  intro d₀ above old view d items arranged
  obtain ⟨rfl, layout, -⟩ := arranged
  exact ⟨_, [], on_removeAll, ⟨rfl, layout.clear, fun _ => rfl⟩, rfl⟩

theorem addFilter_sketched (name : String) (filter : Template.Filter) :
    (addFilter name filter).Sketched (Sketch.addFilter name filter) := by
  intro d₀ above old view d items arranged
  exact ⟨_, items, rfl, ⟨arranged.container, arranged.layout, arranged.remembered⟩, rfl⟩

end Change

/-! ## Redrawing -/

namespace Patch

theorem rerender_sketched (order : List Nat) : (rerender order).Sketched (Sketch.rerender order) := by
  intro d₀ above old view d items arranged
  have grounded := arranged.layout.grounded
  have start : Grows d none (plantsOf ([] : List (Nat × List Plant))) d := .refl grounded _
  unfold Sketch.rerender
  rw [ListView.sketch_collection, ListView.sketch_drawAll]
  cases drawn : view.drawAll (view.collection.listed order) with
  | error cause =>
    obtain ⟨d', failed, -, -⟩ := on_renderAll_error _ grounded start drawn
    exact ⟨_, on_rerender_error failed⟩
  | ok forests =>
    obtain ⟨d', blocks, rendered, grows, rfl⟩ := on_renderAll_ok _ start drawn
    have run := on_rerender_ok rendered
    rw [List.nil_append, flatMap_snd_rootsOf] at run
    refine ⟨_, _, run, (arranged.grow grows).redraw, ?_⟩
    rw [ListView.sketch, ListView.sketch, Items.map_addAll_trees]
    rfl

theorem showOnly_sketched (matched : List Value) :
    (showOnly matched).Sketched (Sketch.showOnly matched) := by
  intro d₀ above old view d items arranged
  have redrawn := rerender_sketched (matchedOrder view.collection matched) arranged
  unfold Sketch.showOnly
  simp only [ListView.sketch_collection]
  generalize (view.sketch items).rerender (matchedOrder view.collection matched) = outcome at redrawn
  rcases outcome with cause | ⟨⟨⟩, s⟩
  · obtain ⟨left, failed⟩ := redrawn
    exact ⟨left, by rw [on_showOnly, failed]⟩
  · obtain ⟨left, items', run, arranged', rfl⟩ := redrawn
    exact ⟨left, items', by rw [on_showOnly, run], arranged', rfl⟩

theorem arrange_sketched (order : List Nat) : (arrange order).Sketched (Sketch.arrange order) := by
  intro d₀ above old view d items arranged
  have redrawn := rerender_sketched (arrangedOrder view.collection order) arranged
  unfold Sketch.arrange
  simp only [ListView.sketch_collection]
  generalize (view.sketch items).rerender (arrangedOrder view.collection order) = outcome at redrawn
  rcases outcome with cause | ⟨⟨⟩, s⟩
  · obtain ⟨left, failed⟩ := redrawn
    exact ⟨left, by rw [on_arrange, failed]⟩
  · obtain ⟨left, items', run, arranged', rfl⟩ := redrawn
    have whole := on_arrange order ⟨view, d⟩
    rw [run] at whole
    exact ⟨_, items', whole, ⟨arranged'.container, arranged'.layout, arranged'.remembered⟩, rfl⟩

theorem sort_sketched : sort.Sketched Sketch.sort := by
  intro d₀ above old view d items arranged
  have run := on_sort ⟨view, d⟩
  rw [Sketch.sort, run]
  exact arrange_sketched _ arranged

theorem updateView_sketched : updateView.Sketched Sketch.updateView := by
  intro d₀ above old view d items arranged
  rw [Sketch.updateView, on_updateView]
  exact rerender_sketched _ arranged

end Patch

/-! ## What a container shows -/

def Sketch.html (s : Sketch) (raw : Bool) : String :=
  String.ofList (Tree.forestMarkup raw s.items.content)

def shownIndex : Tree → Option Nat
  | .element _ attributes _ => (attributes.get? dataIdAttribute).bind ListView.indexOfText
  | _ => none

def Sketch.renderedIndices (s : Sketch) : List Nat := s.items.content.filterMap shownIndex

namespace Arranged

variable (arranged : Arranged d₀ above old view d items loose)
include arranged

theorem children_container : d.children view.container = items.content.map Plant.root := by
  obtain ⟨node, -, held⟩ := arranged.layout.parent
  rw [arranged.container, Document.children_of_node? held]
  rfl

theorem html_eq : view.html d = (view.sketch items).html (d.holdsRawText view.container) := by
  have nodup := arranged.layout.nodup
  rw [Plant.ids_append] at nodup
  rw [ListView.html, Document.innerHtml_of_holds arranged.layout.holds (List.nodup_append.1 nodup).1
    arranged.children_container, Plant.trees_eq_map, ← Items.content_map]
  rfl

theorem renderedIndices_eq : view.renderedIndices d = (view.sketch items).renderedIndices := by
  have notRoot := arranged.layout.notRoot
  rw [Plant.ids_append, List.mem_append, not_or] at notRoot
  rw [ListView.renderedIndices, Document.elementChildren, arranged.children_container,
    Sketch.renderedIndices, ListView.sketch, Items.content_map, List.filterMap_filter,
    List.filterMap_map, List.filterMap_map]
  refine List.filterMap_congr fun plant inside => ?_
  have atRoot := arranged.layout.holds.kind?_root inside
  have differ : plant.root ≠ Document.root := fun same =>
    notRoot.1 (same ▸ Plant.root_mem_ids inside)
  obtain ⟨id, kind, children⟩ := plant
  cases kind <;>
    simp only [Plant.root, Plant.kind] at atRoot differ <;>
    simp [Document.isElement, Document.tag?, Document.attribute?, Document.attributes, Plant.root,
      Plant.tree, Plant.grow, shownIndex, atRoot, differ]

end Arranged

end LiveList
