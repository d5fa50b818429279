import LiveList.Proofs.Template.Rendering
import LiveList.Proofs.Template.Roots
import LiveList.Proofs.View.Runs

namespace LiveList

open Document (Plant Grows Redrawn SameNodes)
open Document.Plant (Leafy ids trees)
open Json (Value)
open Markup (Tree Attributes)
open Template (isElementTree)

def stampedTree (index : Nat) : Tree → Tree
  | .element tag attributes children =>
    .element tag (attributes.put dataIdAttribute (toString index)) children
  | tree => tree

def stampedPlant (index : Nat) : Plant → Plant
  | .node id (.element tag attributes) children =>
    .node id (.element tag (attributes.put dataIdAttribute (toString index))) children
  | plant => plant

structure Marked (index : Nat) (forest : List Tree) : Prop where
  element : forest.any isElementTree
  marked : ∀ tag attributes children, Tree.element tag attributes children ∈ forest →
    attributes.get? dataIdAttribute = some (toString index)

theorem isElementTree_stampedTree (index : Nat) (tree : Tree) :
    isElementTree (stampedTree index tree) = isElementTree tree := by
  cases tree <;> rfl

theorem marked_map_stampedTree {forest : List Tree} (element : forest.any isElementTree)
    (index : Nat) : Marked index (forest.map (stampedTree index)) := by
  refine ⟨?_, ?_⟩
  · have same : isElementTree ∘ stampedTree index = isElementTree :=
      funext (isElementTree_stampedTree index)
    rw [List.any_map, same]
    exact element
  · intro tag attributes children inside
    obtain ⟨tree, -, same⟩ := List.mem_map.1 inside
    cases tree with
    | element tag' attributes' children' =>
      simp only [stampedTree, Tree.element.injEq] at same
      rw [← same.2.1]
      simp [OrderedMap.get?_put]
    | _ => simp [stampedTree] at same

theorem trees_map_stampedPlant (index : Nat) (plants : List Plant) :
    trees (plants.map (stampedPlant index)) = (trees plants).map (stampedTree index) := by
  induction plants with
  | nil => simp [trees]
  | cons plant rest ih =>
    obtain ⟨id, kind, children⟩ := plant
    cases kind <;> simp [stampedPlant, trees, Plant.grow, stampedTree, ih]

namespace ListView

variable {view : ListView} {record : Record} {d d' : Document} {plants : List Plant}

def draw (view : ListView) (record : Record) : Except TemplateError (List Tree) :=
  match view.template.trees view.setting record.json with
  | .error cause => .error cause
  | .ok forest =>
    match record.index with
    | none => .ok forest
    | some index => .ok (forest.map (stampedTree index))

theorem draw_marked {forest : List Tree} {index : Nat} (rooted : view.template.hasElementRoot)
    (given : record.index = some index) (drawn : view.draw record = .ok forest) :
    Marked index forest := by
  rw [draw] at drawn
  split at drawn
  · simp at drawn
  case h_2 bare bareEq =>
    simp only [given, Except.ok.injEq] at drawn
    subst drawn
    exact marked_map_stampedTree (Template.any_isElementTree_trees rooted bareEq) index

theorem redrawn_stamp_first {plant : Plant} (grounded : d.Grounded) (holds : d.Holds none [plant])
    (nodup : (ids [plant]).Nodup) (leafy : Leafy [plant]) (differ : plant.root ≠ Document.root)
    (index : Nat) (rest : List NodeId) :
    ∃ d₁, stamp d (plant.root :: rest) index = stamp d₁ rest index ∧
      Redrawn d none [plant] d₁ [stampedPlant index plant] := by
  obtain ⟨id, kind, children⟩ := plant
  obtain ⟨top, below, -⟩ := Document.Holds.cons_iff.1 holds
  change id ≠ Document.root at differ
  cases kind with
  | element tag attributes =>
    have slots := Document.node?_modifyAttributes top (·.put dataIdAttribute (toString index))
    refine ⟨d.setAttribute id dataIdAttribute (toString index), ?_,
      .below nodup rfl rfl (by rw [Document.setAttribute, slots, if_pos rfl])
        (fun other different => by rw [Document.setAttribute, slots, if_neg different])
        (.refl (grounded.modifyAttributes _ _) (below.congr ?_) ?_)⟩
    · simp [stamp, Plant.root, Document.isElement, differ, Document.tag?, Document.kind?, top]
    · intro other inside
      have different : other ≠ id := by
        rintro rfl
        simp [ids, inside] at nodup
      rw [Document.setAttribute, slots, if_neg different]
    · simp only [Leafy] at leafy
      exact leafy.2.1
  | text content | comment body =>
    refine ⟨d, ?_, .refl grounded holds leafy⟩
    simp [stamp, Plant.root, Document.isElement, Document.tag?, Document.kind?, top]

theorem redrawn_stamp (grounded : d.Grounded) (holds : d.Holds none plants)
    (nodup : (ids plants).Nodup) (leafy : Leafy plants) (notRoot : Document.root ∉ ids plants)
    (index : Nat) :
    Redrawn d none plants (stamp d (plants.map Plant.root) index)
      (plants.map (stampedPlant index)) := by
  induction plants generalizing d with
  | nil => exact .refl grounded holds leafy
  | cons plant rest ih =>
    obtain ⟨first, beside⟩ := (Document.Holds.cons plant).1 holds
    have whole := nodup
    rw [Plant.ids_cons] at whole notRoot
    obtain ⟨firstNodup, restNodup, apart⟩ := List.nodup_append.1 whole
    rw [List.mem_append, not_or] at notRoot
    obtain ⟨leafyFirst, leafyRest⟩ : Leafy [plant] ∧ Leafy rest := Document.Plant.leafy_append.1 leafy
    have differ : plant.root ≠ Document.root := fun same =>
      notRoot.1 (same ▸ Plant.root_mem_ids List.mem_cons_self)
    obtain ⟨d₁, same, redrawn⟩ :=
      redrawn_stamp_first grounded first firstNodup leafyFirst differ index (rest.map Plant.root)
    have beside₁ : d₁.Holds none rest := beside.congr fun other inside =>
      redrawn.elsewhere other fun both => apart other both other inside rfl
    rw [List.map_cons, same]
    exact redrawn.append nodup (ih redrawn.grounded beside₁ restNodup leafyRest notRoot.2)

theorem renderRecord_ok (grounded : d.Grounded) {forest : List Tree}
    (drawn : view.draw record = .ok forest) :
    ∃ d' plants, view.renderRecord record d = (d', .ok (plants.map Plant.root)) ∧
      Grows d none plants d' ∧ trees plants = forest := by
  unfold draw at drawn
  split at drawn
  · simp at drawn
  case h_2 bare bareEq =>
    obtain ⟨d₁, plants, run, grows, same⟩ := Template.renderInto_ok grounded bareEq
    cases indexEq : record.index with
    | none =>
      simp only [indexEq, Except.ok.injEq] at drawn
      exact ⟨d₁, plants, by simp [renderRecord, run, indexEq], grows, same.trans drawn⟩
    | some index =>
      simp only [indexEq, Except.ok.injEq] at drawn
      have redrawn := redrawn_stamp grows.grounded grows.holds grows.nodup grows.leafy
        (grows.root_not_mem grounded) index
      refine ⟨_, plants.map (stampedPlant index), ?_, grows.redrawn redrawn, ?_⟩
      · simp [renderRecord, run, indexEq, redrawn.roots]
      · rw [trees_map_stampedPlant, same, drawn]

theorem renderRecord_error (grounded : d.Grounded) {cause : TemplateError}
    (failed : view.draw record = .error cause) :
    ∃ d', view.renderRecord record d = (d', .error (.template cause)) ∧ d'.Grounded ∧
      d.SameNodes d' := by
  unfold draw at failed
  split at failed
  case h_1 other bareEq =>
    rw [Except.error.injEq] at failed
    obtain ⟨d', run, grounded', same⟩ := Template.renderInto_error grounded bareEq
    exact ⟨d', by simp [renderRecord, run, failed], grounded', same⟩
  case h_2 bare bareEq =>
    cases indexEq : record.index <;> simp [indexEq] at failed

variable {κ : Type}

def drawAll (view : ListView) : List (κ × Record) → Except TemplateError (List (κ × List Tree))
  | [] => .ok []
  | (key, record) :: rest =>
    match view.draw record with
    | .error cause => .error cause
    | .ok forest =>
      match drawAll view rest with
      | .error cause => .error cause
      | .ok others => .ok ((key, forest) :: others)

theorem drawAll_congr {view' : ListView} (same : ∀ record, view'.draw record = view.draw record)
    (items : List (κ × Record)) : view'.drawAll items = view.drawAll items := by
  induction items with
  | nil => rfl
  | cons item rest ih => rw [drawAll, drawAll, same, ih]

theorem drawAll_eq_ok {items : List (κ × Record)} {forests : List (κ × List Tree)} :
    view.drawAll items = .ok forests ↔ List.Forall₂
      (fun item block => block.1 = item.1 ∧ view.draw item.2 = .ok block.2) items forests := by
  induction items generalizing forests with
  | nil => simp [drawAll, eq_comm]
  | cons item rest ih =>
    rw [drawAll, List.forall₂_cons_left_iff]
    cases drawn : view.draw item.2 with
    | error cause => simp
    | ok forest =>
      cases others : view.drawAll rest with
      | error cause =>
        have none : ∀ forests, ¬ List.Forall₂ _ rest forests := fun forests drawnAll => by
          cases others.symm.trans (ih.2 drawnAll)
        simp [none]
      | ok blocks =>
        constructor
        · rintro ⟨⟩
          exact ⟨_, _, ⟨rfl, rfl⟩, ih.1 others, rfl⟩
        · rintro ⟨⟨key, other⟩, blocks', ⟨rfl, same⟩, drawnRest, rfl⟩
          cases same
          cases others.symm.trans (ih.2 drawnRest)
          rfl

theorem exists_of_mem_drawAll {items : List (κ × Record)} {forests : List (κ × List Tree)}
    (drawn : view.drawAll items = .ok forests) {key : κ} {forest : List Tree}
    (inside : (key, forest) ∈ forests) :
    ∃ record, (key, record) ∈ items ∧ view.draw record = .ok forest := by
  have each := drawAll_eq_ok.1 drawn
  clear drawn
  induction each with
  | nil => simp at inside
  | @cons item block _ _ first _ ih =>
    rcases List.mem_cons.1 inside with rfl | inside
    · obtain ⟨rfl, drawn⟩ := first
      exact ⟨item.2, List.mem_cons_self, drawn⟩
    · obtain ⟨record, there, drawn⟩ := ih inside
      exact ⟨record, List.mem_cons_of_mem _ there, drawn⟩

theorem keys_drawAll {items : List (κ × Record)} {forests : List (κ × List Tree)}
    (drawn : view.drawAll items = .ok forests) : forests.map Prod.fst = items.map Prod.fst := by
  rw [← List.forall₂_eq_eq_eq, List.forall₂_map_left_iff, List.forall₂_map_right_iff]
  exact (drawAll_eq_ok.1 drawn).flip.imp fun _ _ block => block.1

end ListView

def plantsOf {κ : Type} (blocks : List (κ × List Plant)) : List Plant := blocks.flatMap Prod.snd

def rootsOf {κ : Type} (blocks : List (κ × List Plant)) : List (κ × List NodeId) :=
  blocks.map fun block => (block.1, block.2.map Plant.root)

def treesOf {κ : Type} (blocks : List (κ × List Plant)) : List (κ × List Tree) :=
  blocks.map fun block => (block.1, trees block.2)

variable {κ : Type} {view : ListView} {d d' d₀ : Document}

@[simp] theorem rootsOf_append (left right : List (κ × List Plant)) :
    rootsOf (left ++ right) = rootsOf left ++ rootsOf right := by
  simp [rootsOf]

@[simp] theorem rootsOf_cons (key : κ) (plants : List Plant) (rest : List (κ × List Plant)) :
    rootsOf ((key, plants) :: rest) = (key, plants.map Plant.root) :: rootsOf rest := rfl

@[simp] theorem plantsOf_append (left right : List (κ × List Plant)) :
    plantsOf (left ++ right) = plantsOf left ++ plantsOf right := by
  simp [plantsOf]

@[simp] theorem plantsOf_cons (block : κ × List Plant) (rest : List (κ × List Plant)) :
    plantsOf (block :: rest) = block.2 ++ plantsOf rest := by
  simp [plantsOf]

@[simp] theorem plantsOf_nil : plantsOf ([] : List (κ × List Plant)) = [] := rfl

theorem flatMap_snd_rootsOf (blocks : List (κ × List Plant)) :
    (rootsOf blocks).flatMap Prod.snd = (plantsOf blocks).map Plant.root := by
  simp [rootsOf, plantsOf, List.flatMap_map, List.map_flatMap]

namespace Patch

/-- Rendering more records behind those that are done already: all of them, or none. -/
theorem on_renderAll_ok (items : List (κ × Record)) {done : List (κ × List Plant)}
    (grown : Grows d₀ none (plantsOf done) d)
    {forests : List (κ × List Tree)} (drawn : view.drawAll items = .ok forests) :
    ∃ d' blocks, (renderAll items (rootsOf done)).on ⟨view, d⟩ =
        (.ok (rootsOf (done ++ blocks)), ⟨view, d'⟩) ∧
      Grows d₀ none (plantsOf (done ++ blocks)) d' ∧ treesOf blocks = forests := by
  induction items generalizing d done forests with
  | nil =>
    simp only [ListView.drawAll, Except.ok.injEq] at drawn
    exact ⟨d, [], by simp [renderAll], by simpa using grown, drawn⟩
  | cons item rest ih =>
    obtain ⟨key, record⟩ := item
    rw [ListView.drawAll] at drawn
    split at drawn
    · simp at drawn
    case h_2 forest drawnFirst =>
      split at drawn
      · simp at drawn
      case h_2 others drawnRest =>
        obtain ⟨d₁, plants, run, grows, same⟩ := ListView.renderRecord_ok grown.grounded drawnFirst
        have grown₁ : Grows d₀ none (plantsOf (done ++ [(key, plants)])) d₁ := by
          simpa [plantsOf] using grown.append grows (.none _)
        obtain ⟨d', blocks, runRest, grown', sameRest⟩ := ih grown₁ drawnRest
        refine ⟨d', (key, plants) :: blocks, ?_, by simpa using grown', ?_⟩
        · rw [renderAll, on_bind, on_tryCatch, on_render, run]
          simpa [rootsOf] using runRest
        · rw [Except.ok.injEq] at drawn
          simpa [treesOf, same] using (congrArg _ sameRest).trans drawn

theorem on_renderAll_error (items : List (κ × Record)) {done : List (κ × List Plant)}
    (grounded₀ : d₀.Grounded) (grown : Grows d₀ none (plantsOf done) d) {cause : TemplateError}
    (failed : view.drawAll items = .error cause) :
    ∃ d', (renderAll items (rootsOf done)).on ⟨view, d⟩ =
        (.error (.template cause), ⟨view, d'⟩) ∧ d'.Grounded ∧ d₀.SameNodes d' := by
  induction items generalizing d done with
  | nil => simp [ListView.drawAll] at failed
  | cons item rest ih =>
    obtain ⟨key, record⟩ := item
    rw [ListView.drawAll] at failed
    split at failed
    case h_1 other failedFirst =>
      rw [Except.error.injEq] at failed
      subst failed
      obtain ⟨d₁, run, grounded₁, same⟩ := ListView.renderRecord_error grown.grounded failedFirst
      have held : d₁.Holds none (plantsOf done) := grown.holds.congr fun id _ => same id
      have notRoot := grown.root_not_mem grounded₀
      have removable := Document.Removable.of_root_not_mem held grown.nodup (.none _) notRoot
      -- What was drawn before the record that fails is freed again, and those nodes were new.
      have nodes : d₀.SameNodes (d₁.removeNodes ((plantsOf done).map Plant.root)) := fun id => by
        rw [removable.node?_removeNodes, same]
        by_cases inside : id ∈ ids (plantsOf done)
        · rw [if_pos inside, grown.fresh id inside]
        · rw [if_neg inside, if_neg (by simp), grown.node?_of_roots inside]
      refine ⟨_, ?_, removable.grounded_removeNodes grounded₁ notRoot, nodes⟩
      rw [renderAll, on_bind, on_tryCatch, on_render, run]
      simp [flatMap_snd_rootsOf]
    case h_2 forest drawnFirst =>
      split at failed
      case h_2 => simp at failed
      case h_1 other failedRest =>
        rw [Except.error.injEq] at failed
        subst failed
        obtain ⟨d₁, plants, run, grows, -⟩ := ListView.renderRecord_ok grown.grounded drawnFirst
        have grown₁ : Grows d₀ none (plantsOf (done ++ [(key, plants)])) d₁ := by
          simpa [plantsOf] using grown.append grows (.none _)
        obtain ⟨d', runRest, grounded', same⟩ := ih grown₁ failedRest
        refine ⟨d', ?_, grounded', same⟩
        rw [renderAll, on_bind, on_tryCatch, on_render, run]
        simpa [rootsOf] using runRest

end Patch

end LiveList
