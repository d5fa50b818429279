import LiveList.Proofs.Document.Growth
import LiveList.Proofs.Document.Operations

namespace LiveList.Document

open Plant (ids trees)

structure Moved (d d' : Document) (parent child : NodeId) (list : List NodeId) : Prop where
  contains : ∀ id, d'.contains id = d.contains id
  kind? : ∀ id, d'.kind? id = d.kind? id
  parent?_child : d'.parent? child = some parent
  parent?_other : ∀ id, id ≠ child → d'.parent? id = d.parent? id
  children_parent : d'.children parent = list
  children_other : ∀ id, id ≠ parent → d'.children id = (d.children id).filter (· ≠ child)
  children_apart : ∀ id, id ≠ parent → d.parent? child ≠ some id → d'.children id = d.children id
  siblings : ∀ id, (d'.children id).filter (· ≠ child) = (d.children id).filter (· ≠ child)
  subtree : d'.subtree child = d.subtree child
  tree? : d'.tree? child = d.tree? child

structure Freed (d d' : Document) (tops : List NodeId) : Prop where
  contains_iff : ∀ id, d'.contains id ↔ d.contains id ∧ id ∉ tops.flatMap d.subtree
  free : d'.free.Perm (tops.flatMap d.subtree ++ d.free)
  kind? : ∀ id, id ∉ tops.flatMap d.subtree → d'.kind? id = d.kind? id
  parent? : ∀ id, id ∉ tops.flatMap d.subtree → d'.parent? id = d.parent? id
  children : ∀ id, id ∉ tops.flatMap d.subtree →
    d'.children id = (d.children id).filter (· ∉ tops)
  children_apart : ∀ id, id ∉ tops.flatMap d.subtree → (∀ top ∈ tops, d.parent? top ≠ some id) →
    d'.children id = d.children id

variable {d d' : Document} {id other parent child reference : NodeId}

/-! ## Moving -/

theorem kind?_modify (f : Node → Node) (keeps : ∀ node, (f node).kind = node.kind) :
    (d.modify id f).kind? other = d.kind? other := by
  rw [kind?, kind?, node?_modify]
  split <;> cases d.node? other <;> simp [keeps]

theorem kind?_setParent (p : Option NodeId) :
    (d.setParent id p).kind? other = d.kind? other :=
  kind?_modify _ fun _ => rfl

theorem kind?_modifyChildren (f : List NodeId → List NodeId) :
    (d.modifyChildren id f).kind? other = d.kind? other :=
  kind?_modify _ fun _ => rfl

theorem kind?_detach (id other : NodeId) : (d.detach id).kind? other = d.kind? other := by
  unfold detach
  split
  · rfl
  · rw [kind?_setParent, kind?_modifyChildren]

theorem kind?_attach (parent child : NodeId) (place : List NodeId → List NodeId) (other : NodeId) :
    (d.attach parent child place).kind? other = d.kind? other := by
  rw [attach, kind?_setParent, kind?_modifyChildren, kind?_detach]

namespace Consistent

variable (consistent : d.Consistent)
include consistent

theorem children_attach (live : d.contains parent) (place : List NodeId → List NodeId)
    (id : NodeId) :
    (d.attach parent child place).children id =
      if id = parent then place ((d.children parent).filter (· ≠ child))
      else (d.children id).filter (· ≠ child) := by
  rw [← attach_detach, Document.children_attach (by simp [parent?_detach]) (by rwa [contains_detach]),
    consistent.children_detach, consistent.children_detach]

end Consistent

theorem parent?_attach_child (live : d.contains child) (place : List NodeId → List NodeId) :
    (d.attach parent child place).parent? child = some parent := by
  rw [← attach_detach, parent?_attach (by simp [parent?_detach]) (by rwa [contains_detach]),
    if_pos rfl]

theorem Holds.attach {plant : Plant} {above : Option NodeId} (held : d.Holds above [plant])
    (nodup : (ids [plant]).Nodup) (outside : Outside above [plant]) (apart : parent ∉ ids [plant])
    (place : List NodeId → List NodeId) :
    (d.attach parent plant.root place).Holds (some parent) [plant] := by
  rw [← attach_detach]
  have alone := holds_detach held nodup outside
  have differ : parent ≠ plant.root := fun same =>
    apart (same ▸ Plant.root_mem_ids List.mem_cons_self)
  refine alone.of_reparented nodup fun id inside => ?_
  rw [node?_attach_of_parent?_none (by simp [parent?_detach]) differ,
    if_neg (show id ≠ parent from fun same => apart (same ▸ inside))]
  by_cases atRoot : id = plant.root
  · subst atRoot
    simp
  · simp [atRoot]

theorem tree?_eq_of_forest (same : d'.forest [id] = d.forest [id]) : d'.tree? id = d.tree? id := by
  rw [forest, forest, List.filterMap_cons, List.filterMap_cons] at same
  cases here : d'.tree? id <;> cases there : d.tree? id <;> simp_all

namespace Coherent

variable (coherent : d.Coherent)
include coherent

theorem attach_keeps_subtree (childLive : d.contains child) (apart : parent ∉ d.subtree child)
    (place : List NodeId → List NodeId) :
    (d.attach parent child place).subtree child = d.subtree child ∧
      (d.attach parent child place).tree? child = d.tree? child := by
  obtain ⟨plant, rfl, held, nodup⟩ := coherent.exists_plant childLive (coherent.untangled child)
  have below : d.subtree plant.root = ids [plant] := by
    simpa using subtree_of_holds held nodup
  -- The plant below the child is held on, since the new parent is not in it.
  have moved := held.attach nodup (held.outside coherent) (below ▸ apart) place
  refine ⟨?_, tree?_eq_of_forest ?_⟩
  · rw [below]
    simpa using subtree_of_holds moved nodup
  · exact (forest_of_holds moved nodup).trans (forest_of_holds held nodup).symm

theorem moved_attach (childLive : d.contains child) (parentLive : d.contains parent)
    (apart : parent ∉ d.subtree child) {place : List NodeId → List NodeId}
    (inserts : ∀ list, child ∉ list → (place list).filter (· ≠ child) = list) :
    Moved d (d.attach parent child place) parent child
      (place ((d.children parent).filter (· ≠ child))) := by
  have lists (id : NodeId) : (d.attach parent child place).children id =
      if id = parent then place ((d.children parent).filter (· ≠ child))
      else (d.children id).filter (· ≠ child) :=
    coherent.children_attach parentLive place id
  obtain ⟨subtree, tree⟩ := coherent.attach_keeps_subtree childLive apart place
  refine ⟨fun _ => contains_attach place, kind?_attach parent child place,
    parent?_attach_child childLive place, fun id differ => parent?_attach_of_ne differ place,
    (lists parent).trans (if_pos rfl), fun id differ => (lists id).trans (if_neg differ), ?_, ?_,
    subtree, tree⟩
  · intro id differ stranger
    rw [lists, if_neg differ, coherent.filter_children_of_apart stranger]
  · intro id
    rw [lists]
    split
    case isTrue same => rw [same, inserts _ (by simp)]
    case isFalse => simp [List.filter_filter]

end Coherent

theorem filter_insertBeforeIn (reference : NodeId) {list : List NodeId} (absent : child ∉ list) :
    (insertBeforeIn reference child list).filter (· ≠ child) = list := by
  induction list with
  | nil => simp [insertBeforeIn]
  | cons first rest ih =>
    rw [List.mem_cons, not_or] at absent
    rw [insertBeforeIn]
    split
    case isTrue =>
      rw [List.filter_cons_of_neg (by simp)]
      exact filter_ne_of_not_mem (by simpa using absent)
    case isFalse => rw [List.filter_cons_of_pos (by simp [Ne.symm absent.1]), ih absent.2]

theorem insertBefore_stays_iff (consistent : d.Consistent) (live : d.contains child) :
    (d.insertBefore reference child = (d, false) ↔
      reference = child ∨ d.parent? reference = none) ∧
    ((d.insertBefore reference child).2 = false ↔
      reference = child ∨ d.parent? reference = none) := by
  unfold insertBefore
  by_cases same : reference = child
  · simp [same]
  · cases up : d.parent? reference with
    | none => simp
    | some parent =>
      have parentLive := consistent.contains_parent up
      simp [same, live, contains_detach, parentLive]

namespace Coherent

variable (coherent : d.Coherent) (childLive : d.contains child)
include coherent childLive

theorem moved_appendChild (parentLive : d.contains parent) (differ : child ≠ parent)
    (apart : parent ∉ d.subtree child) :
    Moved d (d.appendChild parent child) parent child
      ((d.children parent).filter (· ≠ child) ++ [child]) := by
  rw [Document.appendChild, if_neg (by simp [Ne.symm differ, parentLive, childLive])]
  refine coherent.moved_attach childLive parentLive apart fun list absent => ?_
  rw [List.filter_append, filter_ne_of_not_mem absent]
  simp

theorem moved_prependChild (parentLive : d.contains parent) (differ : child ≠ parent)
    (apart : parent ∉ d.subtree child) :
    Moved d (d.prependChild parent child) parent child
      (child :: (d.children parent).filter (· ≠ child)) := by
  rw [Document.prependChild, if_neg (by simp [Ne.symm differ, parentLive, childLive])]
  refine coherent.moved_attach childLive parentLive apart fun list absent => ?_
  rw [List.filter_cons_of_neg (by simp), filter_ne_of_not_mem absent]

theorem moved_insertBefore (differ : reference ≠ child) (up : d.parent? reference = some parent)
    (apart : parent ∉ d.subtree child) :
    ∃ before behind, (d.children parent).filter (· ≠ child) = before ++ reference :: behind ∧
      (d.insertBefore reference child).2 = true ∧
      Moved d (d.insertBefore reference child).1 parent child
        (before ++ child :: reference :: behind) := by
  have parentLive := coherent.contains_parent up
  have run : d.insertBefore reference child =
      (d.attach parent child (insertBeforeIn reference child), true) := by
    simp [Document.insertBefore, differ, childLive, up, contains_detach, parentLive]
  have listed : reference ∈ (d.children parent).filter (· ≠ child) := by
    simpa [differ] using (coherent.linked parent reference).2 up
  have once := (coherent.nodup parent).filter (· ≠ child)
  have moved := coherent.moved_attach childLive parentLive apart
    fun list absent => filter_insertBeforeIn reference absent
  obtain ⟨before, behind, whole⟩ := List.append_of_mem listed
  rw [whole] at once moved
  have notBefore : reference ∉ before := fun inside =>
    (List.nodup_append.1 once).2.2 reference inside reference List.mem_cons_self rfl
  rw [insertBeforeIn_append notBefore] at moved
  exact ⟨before, behind, whole, by rw [run], by rwa [run]⟩

end Coherent

/-! ## Removing -/

theorem free_foldl_release (list : List NodeId) (d : Document) :
    (list.foldl release d).free = list.reverse ++ d.free := by
  induction list generalizing d with
  | nil => rfl
  | cons first rest ih => simp [ih, release]

theorem free_detach (id : NodeId) : (d.detach id).free = d.free := by
  unfold detach
  split <;> rfl

theorem Consistent.filter_children_of_strange (consistent : d.Consistent) {tops : List NodeId} {id : NodeId}
    (stranger : ∀ top ∈ tops, d.parent? top ≠ some id) :
    (d.children id).filter (· ∉ tops) = d.children id :=
  List.filter_eq_self.2 fun child inside => decide_eq_true fun isTop =>
    stranger child isTop ((consistent.linked id child).1 inside)

namespace Removable

variable {plants rest : List Plant} {plant : Plant} {above : Option NodeId}

theorem free_removeNode (removable : d.Removable above [plant]) :
    (d.removeNode plant.root).free = (ids [plant]).reverse ++ d.free := by
  have live := contains_iff.2 (removable.held.live (Plant.root_mem_ids List.mem_cons_self))
  rw [removeNode, if_neg (by simp [removable.root_ne, live])]
  simp only [removable.subtree_detach, free_foldl_release, free_detach]

theorem free_removeNodes (removable : d.Removable above plants) :
    (d.removeNodes (plants.map Plant.root)).free.Perm (ids plants ++ d.free) := by
  induction plants generalizing d with
  | nil => simp [removeNodes, ids]
  | cons plant rest ih =>
    have later := ih removable.others
    rw [removable.first.free_removeNode] at later
    rw [List.map_cons, removeNodes, List.foldl_cons, ← removeNodes, Plant.ids_cons plant rest]
    refine later.trans ?_
    rw [← List.append_assoc]
    exact (List.perm_append_comm.trans ((List.reverse_perm _).append_right _)).append_right _

theorem children_removeNodes (removable : d.Removable above plants) (consistent : d.Consistent)
    {id : NodeId} (outside : id ∉ ids plants) :
    (d.removeNodes (plants.map Plant.root)).children id =
      (d.children id).filter (· ∉ plants.map Plant.root) := by
  rw [children_eq, removable.node?_removeNodes, if_neg outside]
  split
  case isTrue => rw [children_eq]; cases d.node? id <;> rfl
  case isFalse differ =>
    rw [← children_eq, consistent.filter_children_of_strange]
    intro top isTop up
    obtain ⟨plant, inside, rfl⟩ := List.mem_map.1 isTop
    exact differ ((removable.held.parent?_root inside).symm.trans up)

theorem freed_removeNodes (removable : d.Removable above plants) (consistent : d.Consistent) :
    Freed d (d.removeNodes (plants.map Plant.root)) (plants.map Plant.root) := by
  have gone : (plants.map Plant.root).flatMap d.subtree = ids plants :=
    subtree_of_holds removable.held removable.nodup
  have slots := removable.node?_removeNodes
  have lists {id : NodeId} (outside : id ∉ ids plants) :=
    removable.children_removeNodes consistent outside
  constructor
  · intro id
    rw [gone, Document.contains, slots]
    by_cases inside : id ∈ ids plants
    · simp [inside]
    · rw [if_neg inside]
      split <;> simp [Document.contains, inside]
  · rw [gone]
    exact removable.free_removeNodes
  · intro id outside
    rw [gone] at outside
    rw [Document.kind?, slots, if_neg outside]
    split
    · rw [Document.kind?]; cases d.node? id <;> rfl
    · rfl
  · intro id outside
    rw [gone] at outside
    rw [Document.parent?, slots, if_neg outside]
    split
    · rw [Document.parent?]; cases d.node? id <;> rfl
    · rfl
  · rw [gone]
    exact fun id outside => lists outside
  · intro id outside stranger
    rw [gone] at outside
    rw [lists outside, consistent.filter_children_of_strange stranger]

end Removable

namespace Coherent

variable (coherent : d.Coherent) (live : d.contains id)
include coherent live

theorem freed_removeNode (notRoot : id ≠ root) : Freed d (d.removeNode id) [id] := by
  obtain ⟨plant, rfl, held, nodup⟩ := coherent.exists_plant live (coherent.untangled id)
  have removable : d.Removable _ [plant] :=
    ⟨held, nodup, held.outside coherent, by simpa using Ne.symm notRoot⟩
  exact removable.freed_removeNodes coherent.toConsistent

theorem freed_clearChildren (notRoot : root ∉ d.children id) :
    Freed d (d.clearChildren id) (d.children id) ∧ (d.clearChildren id).children id = [] := by
  obtain ⟨⟨_, kind, plants⟩, rfl, held, nodup⟩ :=
    coherent.exists_plant live (coherent.untangled id)
  obtain ⟨top, below, -⟩ := Holds.cons_iff.1 held
  obtain ⟨notBelow, belowNodup⟩ := by simpa [ids] using nodup
  have list : d.children (Plant.node _ kind plants).root = plants.map Plant.root :=
    children_of_node? top
  rw [list] at notRoot
  have removable : d.Removable _ plants := ⟨below, belowNodup, below.outside coherent, notRoot⟩
  have freed := removable.freed_removeNodes coherent.toConsistent
  rw [Document.clearChildren, list]
  refine ⟨freed, ?_⟩
  have gone : (plants.map Plant.root).flatMap d.subtree = ids plants :=
    subtree_of_holds below belowNodup
  rw [freed.children _ (by rwa [gone]), list]
  simp

end Coherent

/-- Moves and removals touch only what they name. The document is any that editing may lead to; its
root may have been moved or freed. -/
theorem moves_and_removals (coherent : d.Coherent) :
    (∀ parent child, d.contains parent → d.contains child → child ≠ parent →
      parent ∉ d.subtree child →
      Moved d (d.appendChild parent child) parent child
        ((d.children parent).filter (· ≠ child) ++ [child]) ∧
      Moved d (d.prependChild parent child) parent child
        (child :: (d.children parent).filter (· ≠ child))) ∧
    (∀ reference child, d.contains child →
      ((d.insertBefore reference child = (d, false) ↔
        reference = child ∨ d.parent? reference = none) ∧
      ((d.insertBefore reference child).2 = false ↔
        reference = child ∨ d.parent? reference = none)) ∧
      ∀ parent, reference ≠ child → d.parent? reference = some parent → parent ∉ d.subtree child →
        ∃ before behind, (d.children parent).filter (· ≠ child) = before ++ reference :: behind ∧
          (d.insertBefore reference child).2 = true ∧
          Moved d (d.insertBefore reference child).1 parent child
            (before ++ child :: reference :: behind)) ∧
    (∀ id, d.contains id → id ≠ root → Freed d (d.removeNode id) [id]) ∧
    ∀ id, d.contains id → root ∉ d.children id →
      Freed d (d.clearChildren id) (d.children id) ∧ (d.clearChildren id).children id = [] :=
  ⟨fun _ _ parentLive childLive differ apart =>
      ⟨coherent.moved_appendChild childLive parentLive differ apart,
        coherent.moved_prependChild childLive parentLive differ apart⟩,
    fun _ _ childLive => ⟨insertBefore_stays_iff coherent.toConsistent childLive,
      fun _ differ up apart => coherent.moved_insertBefore childLive differ up apart⟩,
    fun _ live notRoot => coherent.freed_removeNode live notRoot,
    fun _ live notRoot => coherent.freed_clearChildren live notRoot⟩

def threeItems : Document := ofHtml "<ul><li>a</li><li>b</li><li>c</li></ul>"

theorem moves_and_removals_threeItems :
    threeItems.Coherent ∧
    Moved threeItems (threeItems.appendChild 1 2) 1 2 [4, 6, 2] ∧
    Moved threeItems (threeItems.prependChild 4 2) 4 2 [2, 5] ∧
    threeItems.insertBefore 2 2 = (threeItems, false) ∧
    (∃ before behind, [4, 6] = before ++ 6 :: behind ∧
      (threeItems.insertBefore 6 2).2 = true ∧
      Moved threeItems (threeItems.insertBefore 6 2).1 1 2 (before ++ 2 :: 6 :: behind)) ∧
    Freed threeItems (threeItems.removeNode 4) [4] ∧
    Freed threeItems (threeItems.clearChildren 1) [2, 4, 6] := by
  have coherent : threeItems.Coherent := (ofHtml_wellFormed _).coherent
  obtain ⟨moving, inserting, removing, clearing⟩ := moves_and_removals coherent
  have items : (threeItems.children 1).filter (· ≠ 2) = [4, 6] := by decide +kernel
  have inner : (threeItems.children 4).filter (· ≠ 2) = [5] := by decide +kernel
  have appended := moving 1 2 (by decide +kernel) (by decide +kernel) (by decide)
    (by decide +kernel)
  have prepended := moving 4 2 (by decide +kernel) (by decide +kernel) (by decide)
    (by decide +kernel)
  obtain ⟨stays, inserted⟩ := inserting 6 2 (by decide +kernel)
  have cleared := (clearing 1 (by decide +kernel) (by decide +kernel)).1
  rw [items] at appended
  rw [inner] at prepended
  refine ⟨coherent, appended.1, prepended.2,
    (inserting 2 2 (by decide +kernel)).1.1.2 (.inl rfl), ?_,
    removing 4 (by decide +kernel) (by decide), ?_⟩
  · rw [← items]
    exact inserted 1 (by decide) (by decide +kernel) (by decide +kernel)
  · rwa [show threeItems.children 1 = [2, 4, 6] by decide +kernel] at cleared

end LiveList.Document
