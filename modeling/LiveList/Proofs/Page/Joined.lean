import LiveList.Proofs.Page.Reached

namespace LiveList

open Document (Plant)
open Document.Plant (ids trees)
open Json (Value)

def ListView.rootsAt (view : ListView) (index : Nat) : List NodeId :=
  (OrderedMap.get? view.nodes index).getD []

/-- How collection, remembered nodes and container of a list belong together. The remembered nodes
are those of records; they are there, and no node is remembered twice. The container holds them
record by record, in display order unless a filter took effect while whose predicate was asked
records were sorted. Its elements carry the index of their record. All records are shown unless a
filter took effect after all of them were last. -/
structure Mounted.Joined {ℓ : Type} (mounted : Mounted ℓ) (d : Document) : Prop where
  distinct : (OrderedMap.keys mounted.view.nodes).Nodup
  known : ∀ index ∈ OrderedMap.keys mounted.view.nodes, index ∈ mounted.view.collection.indices
  live : ∀ index roots, (index, roots) ∈ mounted.view.nodes →
    (∀ root ∈ roots, d.contains root) ∧ ∃ root ∈ roots, d.isElement root
  once : (mounted.view.nodes.flatMap Prod.snd).Nodup
  joined : ∃ order : List Nat, order.Perm (OrderedMap.keys mounted.view.nodes) ∧
    d.children mounted.view.container = order.flatMap mounted.view.rootsAt
  ordered : InOrder mounted.journal → d.children mounted.view.container =
    mounted.view.collection.indices.flatMap mounted.view.rootsAt
  marked : ∀ index roots root, (index, roots) ∈ mounted.view.nodes → root ∈ roots →
    d.isElement root → d.attribute? root dataIdAttribute = some (toString index)
  whole : ShowsAll mounted.journal →
    ∀ index ∈ mounted.view.collection.indices, index ∈ OrderedMap.keys mounted.view.nodes

namespace Document

open Plant (grow)

theorem Plant.mem_trees_iff {plants : List Plant} {tree : Markup.Tree} :
    tree ∈ trees plants ↔ ∃ plant ∈ plants, ∃ id children,
      plant = .node id plant.kind children ∧ tree = grow plant.kind (trees children) := by
  induction plants with
  | nil => simp [trees]
  | cons plant rest ih =>
    obtain ⟨id, kind, children⟩ := plant
    simp [trees, ih, Plant.kind]

theorem isElementTree_grow (kind : Kind) (below : List Markup.Tree) :
    Template.isElementTree (grow kind below) = kind.isElement := by
  cases kind <;> rfl

theorem Holds.isElement_root {d : Document} {parent : Option NodeId} {plants : List Plant}
    {plant : Plant} (held : d.Holds parent plants) (inside : plant ∈ plants)
    (notRoot : plant.root ≠ Document.root) : d.isElement plant.root = plant.kind.isElement := by
  rw [isElement, tag?, held.kind?_root inside]
  cases plant.kind <;> simp [Kind.isElement, notRoot]

end Document

theorem flatMap_of_sublist {α : Type} {part whole : List Nat} (sublist : part.Sublist whole)
    (nodup : whole.Nodup) {f : Nat → List α} (none : ∀ n ∈ whole, n ∉ part → f n = []) :
    whole.flatMap f = part.flatMap f := by
  induction sublist with
  | slnil => rfl
  | @cons part whole n sublist ih =>
    obtain ⟨absent, nodup⟩ := List.nodup_cons.1 nodup
    have notPart : n ∉ part := fun inside => absent (sublist.mem inside)
    rw [List.flatMap_cons, none n List.mem_cons_self notPart, List.nil_append,
      ih nodup fun m inside => none m (List.mem_cons_of_mem _ inside)]
  | @cons_cons part whole n sublist ih =>
    obtain ⟨absent, nodup⟩ := List.nodup_cons.1 nodup
    rw [List.flatMap_cons, List.flatMap_cons, ih nodup fun m inside notPart => none m
      (List.mem_cons_of_mem _ inside) (by
        rw [List.mem_cons, not_or]
        exact ⟨fun same => absent (same ▸ inside), notPart⟩)]

theorem root_mem_plantsOf {index : Nat} {plants : List Plant} {blocks : List (Nat × List Plant)}
    (shown : (index, plants) ∈ blocks)
    {plant : Plant} (inside : plant ∈ plants) : plant.root ∈ ids (plantsOf blocks) :=
  Plant.root_mem_ids (List.mem_flatMap.2 ⟨_, shown, inside⟩)

namespace Stands

variable {view : ListView} {d : Document} {blocks : List (Nat × List Plant)}
  (stands : Stands view d blocks)
include stands

theorem exists_block {index : Nat} {roots : List NodeId} (inside : (index, roots) ∈ view.nodes) :
    ∃ plants, (index, plants) ∈ blocks ∧ roots = plants.map Plant.root := by
  have there := stands.remembered.mem_iff.1 inside
  obtain ⟨⟨other, plants⟩, shown, same⟩ := List.mem_map.1 there
  rw [Prod.mk.injEq] at same
  exact ⟨plants, same.1 ▸ shown, same.2.symm⟩

theorem holds_block {index : Nat} {plants : List Plant} (shown : (index, plants) ∈ blocks) :
    d.Holds (some view.container) plants := by
  obtain ⟨before, behind, rfl⟩ := List.append_of_mem shown
  have holds := stands.holds
  simp only [plantsOf_append, plantsOf_cons, Document.Holds.append_iff] at holds
  exact holds.2.1

theorem rootsAt_shown {index : Nat} {plants : List Plant} (shown : (index, plants) ∈ blocks) :
    view.rootsAt index = plants.map Plant.root := by
  rw [ListView.rootsAt, stands.get?_nodes shown, Option.getD_some]

theorem flatMap_rootsAt :
    (indicesOf blocks).flatMap view.rootsAt = (plantsOf blocks).map Plant.root := by
  rw [indicesOf, List.flatMap_map, plantsOf, List.map_flatMap]
  exact List.flatMap_congr fun block shown => stands.rootsAt_shown shown

theorem rootsAt_hidden {index : Nat} (hidden : index ∉ indicesOf blocks) : view.rootsAt index = [] := by
  rw [ListView.rootsAt, OrderedMap.get?_eq_none_iff.2 (stands.not_mem_keys_nodes hidden),
    Option.getD_none]

section

variable (notRoot : Document.root ∉ ids (plantsOf blocks)) {index : Nat} {plants : List Plant}
  (shown : (index, plants) ∈ blocks)
include notRoot shown

theorem exists_element : ∃ root ∈ plants.map Plant.root, d.isElement root := by
  obtain ⟨tree, grown, element⟩ := List.any_eq_true.1 (stands.marked index plants shown).element
  obtain ⟨plant, there, -, children, -, rfl⟩ := Plant.mem_trees_iff.1 grown
  rw [Document.isElementTree_grow] at element
  refine ⟨plant.root, List.mem_map_of_mem there, ?_⟩
  rwa [(stands.holds_block shown).isElement_root there fun same =>
    notRoot (same ▸ root_mem_plantsOf shown there)]

theorem attribute?_root {root : NodeId} (isRoot : root ∈ plants.map Plant.root)
    (element : d.isElement root) : d.attribute? root dataIdAttribute = some (toString index) := by
  have holds := stands.holds_block shown
  obtain ⟨⟨id, kind, children⟩, there, rfl⟩ := List.mem_map.1 isRoot
  have differ : id ≠ Document.root := fun same => notRoot (same ▸ root_mem_plantsOf shown there)
  rw [holds.isElement_root there differ] at element
  have kindEq : d.kind? id = some kind := holds.kind?_root there
  cases kind with
  | element tag attributes =>
    have tree : Markup.Tree.element tag attributes (trees children) ∈ trees plants :=
      Plant.mem_trees_iff.2 ⟨_, there, id, children, rfl, rfl⟩
    have value := (stands.marked index plants shown).marked _ _ _ tree
    rw [Plant.root, Document.attribute?, Document.attributes, kindEq]
    exact value
  | text | comment => simp [Plant.kind, Document.Kind.isElement] at element

end

end Stands

theorem Mounted.Standing.joined {ℓ : Type} {quiet : Prop} {mounted : Mounted ℓ} {d : Document}
    {blocks : List (Nat × List Plant)} (standing : mounted.Standing quiet d blocks)
    (wf : d.WellFormed) : mounted.Joined d := by
  obtain ⟨stands, tracked, -⟩ := standing
  have keys := stands.keys_nodes
  have notRoot := wf.root_not_mem_ids stands.holds
  refine ⟨stands.nodup_keys, fun index inside => stands.known index (keys.mem_iff.1 inside),
    fun index roots inside => ?_, ?_, ⟨indicesOf blocks, keys.symm, ?_⟩, fun inOrder => ?_,
    fun index roots root inside isRoot element => ?_, fun all index listed => ?_⟩
  · obtain ⟨plants, shown, rfl⟩ := stands.exists_block inside
    refine ⟨fun root isRoot => ?_, stands.exists_element notRoot shown⟩
    obtain ⟨plant, there, rfl⟩ := List.mem_map.1 isRoot
    exact Document.contains_iff.2 (stands.holds.live (root_mem_plantsOf shown there))
  · have perm := stands.remembered.flatMap_right Prod.snd
    rw [flatMap_snd_rootsOf] at perm
    exact perm.nodup_iff.2 ((Plant.map_root_sublist _).nodup stands.nodup)
  · rw [stands.children_container, stands.flatMap_rootsAt]
  · rw [stands.children_container, ← stands.flatMap_rootsAt]
    exact (flatMap_of_sublist (tracked.ordered inOrder) stands.sound.nodup fun index _ hidden =>
      stands.rootsAt_hidden hidden).symm
  · obtain ⟨plants, shown, rfl⟩ := stands.exists_block inside
    exact stands.attribute?_root notRoot shown isRoot element
  · rw [keys.mem_iff, tracked.whole all]
    exact listed

namespace Page

variable {ℓ π κ σ : Type}

def AllJoined (page : Page ℓ σ) : Prop :=
  ∀ list mounted, page.list? list = some mounted → mounted.Joined page.document

theorem allJoined_of_sane {quiet : Prop} {page : Page ℓ σ} (sane : (standing quiet).sane page) :
    page.AllJoined := fun list mounted there =>
  have ⟨_, stands⟩ := sane
  (stands.lists list mounted there).joined stands.wf

/-- Whatever is asked of the lists of a page that was reached, every list is joined wherever a
callback is called and wherever a request was answered, at any depth. -/
theorem perform_joined {behaviour : Behaviour ℓ π κ σ} (onLists : behaviour.OnLists)
    {page left : Page ℓ σ} (reached : Reached behaviour page) {depth : Nat} {r : Request ℓ π κ}
    (onList : r.OnList) {answer : r.Answer}
    (run : (perform behaviour depth r).run page = some (answer, left)) :
    (performAudited AllJoined behaviour depth r).run page = some (answer, left) ∧ left.AllJoined := by
  obtain ⟨same, sane, -⟩ := perform_keeps onLists (fun _ sane => allJoined_of_sane sane) depth r
    onList (reached.standing onLists) answer left run
  exact ⟨same, allJoined_of_sane sane⟩

def laterFirst (x y : Value) : Ordering :=
  compare ((Patch.indexOf y).getD 0) ((Patch.indexOf x).getD 0)

/-- A predicate that sorts the list while it is asked, and lets every record pass. -/
def sortingPredicate : Behaviour Unit Unit Unit Unit where
  listen _ _ := .done ()
  test _ _ := .ask (.call 0 (.sortBy ())) fun _ => .done true
  compare _ x y := .done (laterFirst x y)

theorem onLists_sortingPredicate : sortingPredicate.OnLists where
  listen _ _ := trivial
  test _ _ := ⟨trivial, fun _ => trivial⟩
  compare _ _ _ := trivial

theorem texts_disordered :
    ((performEach sortingPredicate 1 [pushText "a", pushText "b"]).run textsPage).any
      (fun (_, page) => ((perform sortingPredicate 2 (.call 0 (.filter ()))).run page).any
        fun (_, left) => (left.list? 0).any fun mounted =>
          left.document.children mounted.view.container !=
            mounted.view.collection.indices.flatMap mounted.view.rootsAt) := by
  decide +kernel

theorem exists_disordered : ∃ page left answer mounted, Reached sortingPredicate page ∧
    (perform sortingPredicate 2 (.call 0 (.filter ()))).run page = some (answer, left) ∧
    left.list? 0 = some mounted ∧ left.document.children mounted.view.container ≠
      mounted.view.collection.indices.flatMap mounted.view.rootsAt := by
  obtain ⟨⟨_, page⟩, pushed, filtered⟩ := (Option.any_eq_true _ _).1 texts_disordered
  obtain ⟨⟨answer, left⟩, run, shown⟩ := (Option.any_eq_true _ _).1 filtered
  obtain ⟨mounted, there, differ⟩ := (Option.any_eq_true _ _).1 shown
  have onList : ∀ r ∈ [pushText "a", pushText "b"], r.OnList := by
    simp [pushText, Request.OnList]
  exact ⟨page, left, answer, mounted, (reached_textsPage _).each onList pushed, run, there,
    bne_iff_ne.1 differ⟩

theorem perform_joined_disordered : ∃ page left answer, Reached sortingPredicate page ∧
    (perform sortingPredicate 2 (.call 0 (.filter ()))).run page = some (answer, left) ∧
    (performAudited AllJoined sortingPredicate 2 (.call 0 (.filter ()))).run page =
      some (answer, left) ∧ left.AllJoined := by
  obtain ⟨⟨_, page⟩, pushed, filtered⟩ := (Option.any_eq_true _ _).1 texts_disordered
  obtain ⟨⟨answer, left⟩, run, -⟩ := (Option.any_eq_true _ _).1 filtered
  have onList : ∀ r ∈ [pushText "a", pushText "b"], r.OnList := by
    simp [pushText, Request.OnList]
  have reached := (reached_textsPage sortingPredicate).each onList pushed
  exact ⟨page, left, answer, reached, run,
    perform_joined (r := .call 0 (.filter ())) onLists_sortingPredicate reached trivial run⟩

end Page

end LiveList
