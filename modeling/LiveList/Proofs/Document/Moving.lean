import LiveList.Proofs.Document.Plant

namespace LiveList.Document

open Plant (ids entries trees)

variable {d d' : Document} {plants rest : List Plant} {plant : Plant} {id : NodeId}
  {parent : Option NodeId}

def Node.withChildren (node : Node) (children : List NodeId) : Node := { node with children }

theorem Node.filter_children_cons (node : Node) (first : NodeId) (rest : List NodeId) :
    (node.withChildren (node.children.filter (· ≠ first))).withChildren
        ((node.children.filter (· ≠ first)).filter (· ∉ rest)) =
      node.withChildren (node.children.filter (· ∉ first :: rest)) := by
  simp [withChildren, List.filter_filter, Bool.and_comm]

theorem Plant.ids_cons (plant : Plant) (rest : List Plant) :
    ids (plant :: rest) = ids [plant] ++ ids rest :=
  Plant.ids_append [plant] rest

theorem Plant.trees_cons (plant : Plant) (rest : List Plant) :
    trees (plant :: rest) = trees [plant] ++ trees rest :=
  Plant.trees_append [plant] rest

theorem Holds.cons (plant : Plant) :
    d.Holds parent (plant :: rest) ↔ d.Holds parent [plant] ∧ d.Holds parent rest :=
  ⟨fun held => append_iff.1 (held : d.Holds parent ([plant] ++ rest)), append_iff.2⟩

/-! ## Removing -/

theorem node?_foldl_release (list : List NodeId) (d : Document) (id : NodeId) :
    (list.foldl release d).node? id = if id ∈ list then none else d.node? id := by
  induction list generalizing d with
  | nil => simp
  | cons first rest ih =>
    rw [List.foldl_cons, ih, node?_release]
    by_cases same : id = first
    · simp [same]
    · simp [same, Ne.symm same]

theorem Tidy.foldl_release (tidy : d.Tidy) {list : List NodeId} (nodup : list.Nodup)
    (live : ∀ id ∈ list, d.contains id) : (list.foldl Document.release d).Tidy := by
  induction list generalizing d with
  | nil => exact tidy
  | cons first rest ih =>
    obtain ⟨absent, restNodup⟩ := List.nodup_cons.1 nodup
    refine ih (tidy.release (live first List.mem_cons_self)) restNodup ?_
    intro id inside
    have differ : first ≠ id := fun same => absent (same ▸ inside)
    rw [contains, node?_release, if_neg differ]
    exact live id (List.mem_cons_of_mem _ inside)

def Outside (parent : Option NodeId) (plants : List Plant) : Prop :=
  ∀ above, parent = some above → above ∉ ids plants

theorem Outside.none (plants : List Plant) : Outside none plants := by
  simp [Outside]

theorem Outside.cons_iff :
    Outside parent (plant :: rest) ↔ Outside parent [plant] ∧ Outside parent rest := by
  simp only [Outside, Plant.ids_cons plant rest, List.mem_append, not_or]
  exact ⟨fun all => ⟨fun above same => (all above same).1, fun above same => (all above same).2⟩,
    fun both above same => ⟨both.1 above same, both.2 above same⟩⟩

theorem Holds.outside (held : d.Holds parent plants) (coherent : d.Coherent) :
    Outside parent plants := by
  rintro above rfl inside
  obtain ⟨plant, isRoot, below⟩ := held.below_root inside
  exact not_below_parent (coherent.untangled _) (held.parent?_root isRoot) below

theorem node?_detach_of_holds (held : d.Holds parent [plant]) (outside : Outside parent [plant])
    (id : NodeId) :
    (d.detach plant.root).node? id =
      if id = plant.root then (d.node? id).map fun node => { node with parent := none }
      else if parent = some id then
        (d.node? id).map fun node => node.withChildren (node.children.filter (· ≠ plant.root))
      else d.node? id := by
  have up := held.parent?_root List.mem_cons_self
  unfold Document.detach
  split
  case h_1 alone =>
    have none : parent = none := up.symm.trans alone
    subst none
    split
    case isTrue same =>
      subst same
      unfold parent? at up
      cases h : d.node? plant.root with
      | none => rfl
      | some node =>
        simp only [h, Option.bind_some] at up
        simp [← up]
    case isFalse => simp
  case h_2 above same =>
    have isSome : parent = some above := up.symm.trans same
    subst isSome
    have differ : plant.root ≠ above := fun equal =>
      outside above rfl (equal ▸ Plant.root_mem_ids List.mem_cons_self)
    rw [node?_setParent, node?_modifyChildren]
    by_cases atRoot : id = plant.root
    · subst atRoot
      simp [Ne.symm differ]
    · by_cases atParent : id = above
      · subst atParent
        simp [differ, Ne.symm differ, Node.withChildren]
      · simp [atRoot, Ne.symm atRoot, Ne.symm atParent]

theorem holds_detach (held : d.Holds parent [plant]) (nodup : (ids [plant]).Nodup)
    (outside : Outside parent [plant]) : (d.detach plant.root).Holds none [plant] := by
  obtain ⟨id, kind, children⟩ := plant
  have slots := node?_detach_of_holds held outside
  obtain ⟨top, below, -⟩ := Holds.cons_iff.1 held
  have absent : id ∉ ids children := by
    simp only [ids, List.append_nil, List.nodup_cons] at nodup
    exact nodup.1
  refine Holds.cons_iff.2 ⟨?_, below.congr ?_, .nil⟩
  · rw [slots, Plant.root, if_pos rfl, top]
    rfl
  · intro other inside
    have differ : other ≠ id := fun same => absent (same ▸ inside)
    have apart : parent ≠ some other := fun same => outside other same (by simp [ids, inside])
    rw [slots, Plant.root, if_neg differ, if_neg apart]

/-- Plants that can be removed one after the other: no node is in them twice, and their parent is not
among them. The root itself is not removed, but may be in a plant that is. -/
structure Removable (d : Document) (parent : Option NodeId) (plants : List Plant) : Prop where
  held : d.Holds parent plants
  nodup : (ids plants).Nodup
  outside : Outside parent plants
  notRoot : Document.root ∉ plants.map Plant.root

namespace Removable

section

variable (removable : d.Removable parent [plant])
include removable

theorem root_ne : plant.root ≠ Document.root := fun same => removable.notRoot (by simp [same])

theorem subtree_detach : (d.detach plant.root).subtree plant.root = ids [plant] := by
  have alone := holds_detach removable.held removable.nodup removable.outside
  simpa using subtree_of_holds alone removable.nodup

theorem node?_removeNode (id : NodeId) :
    (d.removeNode plant.root).node? id =
      if id ∈ ids [plant] then none
      else if parent = some id then
        (d.node? id).map fun node => node.withChildren (node.children.filter (· ≠ plant.root))
      else d.node? id := by
  obtain ⟨node, live⟩ := removable.held.live (Plant.root_mem_ids List.mem_cons_self)
  rw [removeNode, if_neg (by simp [removable.root_ne, contains, live])]
  simp only [removable.subtree_detach]
  rw [node?_foldl_release, node?_detach_of_holds removable.held removable.outside]
  by_cases inside : id ∈ ids [plant]
  · rw [if_pos inside, if_pos inside]
  · have differ : id ≠ plant.root := fun same =>
      inside (same ▸ Plant.root_mem_ids List.mem_cons_self)
    rw [if_neg inside, if_neg inside, if_neg differ]

theorem tidy_removeNode (tidy : d.Tidy) : (d.removeNode plant.root).Tidy := by
  unfold removeNode
  split
  · exact tidy
  · have alone := holds_detach removable.held removable.nodup removable.outside
    simp only [removable.subtree_detach]
    exact (tidy.detach plant.root).foldl_release removable.nodup fun id inside =>
      contains_iff.2 (alone.live inside)

theorem parent?_removeNode (id : NodeId) :
    (d.removeNode plant.root).parent? id = if id ∈ ids [plant] then none else d.parent? id := by
  rw [parent?, removable.node?_removeNode]
  split
  · rfl
  · change _ = (d.node? id).bind Node.parent
    split <;> cases d.node? id <;> rfl

variable (consistent : d.Consistent)
include consistent

theorem children_removeNode (id : NodeId) :
    (d.removeNode plant.root).children id =
      if id ∈ ids [plant] then [] else (d.children id).filter (· ≠ plant.root) := by
  rw [children_eq, removable.node?_removeNode, children_eq]
  split
  · rfl
  · split
    · cases d.node? id <;> rfl
    case isFalse differ =>
      rw [← children_eq]
      refine (consistent.filter_children_of_apart fun up => differ ?_).symm
      exact (removable.held.parent?_root List.mem_cons_self).symm.trans up

theorem linked_removeNode (above child : NodeId) :
    child ∈ (d.removeNode plant.root).children above ↔
      (d.removeNode plant.root).parent? child = some above := by
  have held := removable.held
  rw [removable.children_removeNode consistent, removable.parent?_removeNode]
  by_cases aboveInside : above ∈ ids [plant]
  · rw [if_pos aboveInside]
    apply iff_of_false List.not_mem_nil
    split
    · simp
    case isFalse childOutside =>
      exact fun up => childOutside (held.mem_ids_of_parent? consistent up aboveInside)
  · rw [if_neg aboveInside, List.mem_filter, consistent.linked, decide_eq_true_eq]
    by_cases childInside : child ∈ ids [plant]
    · rw [if_pos childInside]
      refine iff_of_false ?_ (by simp)
      rintro ⟨up, differ⟩
      -- A node of the plant other than its root has its parent in the plant.
      obtain ⟨node, entry⟩ := Plant.exists_entry parent childInside
      rcases Plant.parent_of_entry entry with ⟨-, isTop⟩ | ⟨top, inside, same⟩
      · exact differ (by simpa using isTop)
      · rw [parent?, held _ _ entry, Option.bind_some, same, Option.some.injEq] at up
        exact aboveInside (up ▸ inside)
    · rw [if_neg childInside]
      exact ⟨fun both => both.1, fun up =>
        ⟨up, fun same => childInside (same ▸ Plant.root_mem_ids List.mem_cons_self)⟩⟩

theorem consistent_removeNode : (d.removeNode plant.root).Consistent where
  tidy := removable.tidy_removeNode consistent.tidy
  linked := removable.linked_removeNode consistent
  nodup := fun id => by
    rw [removable.children_removeNode consistent]
    split
    · exact List.nodup_nil
    · exact (consistent.nodup id).filter _

end

theorem of_root_not_mem (held : d.Holds parent plants) (nodup : (ids plants).Nodup)
    (outside : Outside parent plants) (notRoot : Document.root ∉ ids plants) :
    d.Removable parent plants :=
  ⟨held, nodup, outside, fun isRoot => notRoot ((Plant.map_root_sublist plants).mem isRoot)⟩

theorem first (removable : d.Removable parent (plant :: rest)) : d.Removable parent [plant] := by
  have nodup := removable.nodup
  have notRoot := removable.notRoot
  rw [Plant.ids_cons plant rest] at nodup
  rw [List.map_cons, List.mem_cons, not_or] at notRoot
  exact ⟨((Holds.cons plant).1 removable.held).1, (List.nodup_append.1 nodup).1,
    (Outside.cons_iff.1 removable.outside).1, by simpa using notRoot.1⟩

theorem others (removable : d.Removable parent (plant :: rest)) :
    (d.removeNode plant.root).Removable parent rest := by
  have nodup := removable.nodup
  have notRoot := removable.notRoot
  rw [Plant.ids_cons plant rest] at nodup
  obtain ⟨-, restNodup, apart⟩ := List.nodup_append.1 nodup
  have outside := (Outside.cons_iff.1 removable.outside).2
  refine ⟨((Holds.cons plant).1 removable.held).2.congr fun other inside => ?_, restNodup,
    outside, fun isRoot => notRoot (List.mem_cons_of_mem _ isRoot)⟩
  have notFirst : other ∉ ids [plant] := fun both => apart other both other inside rfl
  have notParent : parent ≠ some other := fun same => outside other same inside
  rw [removable.first.node?_removeNode, if_neg notFirst, if_neg notParent]

theorem node?_removeNodes (removable : d.Removable parent plants) (id : NodeId) :
    (d.removeNodes (plants.map Plant.root)).node? id =
      if id ∈ ids plants then none
      else if parent = some id then
        (d.node? id).map fun node =>
          node.withChildren (node.children.filter (· ∉ plants.map Plant.root))
      else d.node? id := by
  induction plants generalizing d with
  | nil =>
    simp only [List.map_nil, removeNodes, List.foldl_nil, ids, List.not_mem_nil, if_false,
      not_false_eq_true, decide_true, List.filter_true]
    split <;> cases d.node? id <;> rfl
  | cons plant rest ih =>
    rw [List.map_cons, removeNodes, List.foldl_cons, ← removeNodes, ih removable.others,
      removable.first.node?_removeNode]
    simp only [Plant.ids_cons plant rest, List.mem_append]
    by_cases inOthers : id ∈ ids rest
    · simp [inOthers]
    · by_cases inFirst : id ∈ ids [plant]
      · simp [inFirst]
      · by_cases atParent : parent = some id
        · simp only [inOthers, inFirst, atParent, or_self, if_false, if_true, Option.map_map]
          cases d.node? id with
          | none => rfl
          | some node => exact congrArg some (node.filter_children_cons ..)
        · simp [inOthers, inFirst, atParent]

theorem consistent_removeNodes (removable : d.Removable parent plants)
    (consistent : d.Consistent) : (d.removeNodes (plants.map Plant.root)).Consistent := by
  induction plants generalizing d with
  | nil => exact consistent
  | cons plant rest ih =>
    exact ih removable.others (removable.first.consistent_removeNode consistent)

theorem grounded_removeNodes (removable : d.Removable parent plants) (grounded : d.Grounded)
    (notRoot : Document.root ∉ ids plants) :
    (d.removeNodes (plants.map Plant.root)).Grounded := by
  refine ⟨removable.consistent_removeNodes grounded.consistent, ?_⟩
  obtain ⟨node, rootHeld⟩ := contains_iff.1 grounded.rootLive
  rw [contains, removable.node?_removeNodes, if_neg notRoot, rootHeld]
  split <;> rfl

end Removable

namespace Coherent

theorem removeNode (coherent : d.Coherent) (id : NodeId) : (d.removeNode id).Coherent := by
  by_cases stays : id = Document.root || !d.contains id
  · rw [Document.removeNode, if_pos (by simpa using stays)]
    exact coherent
  · obtain ⟨notRoot, live⟩ : id ≠ Document.root ∧ d.contains id := by simpa using stays
    obtain ⟨plant, rfl, held, nodup⟩ := coherent.exists_plant live (coherent.untangled id)
    have removable : d.Removable _ [plant] :=
      ⟨held, nodup, held.outside coherent, by simpa using Ne.symm notRoot⟩
    refine coherent.of_parents (removable.consistent_removeNode coherent.toConsistent) ?_
    intro child parent up
    rw [removable.parent?_removeNode] at up
    split at up
    · simp at up
    · exact up

theorem removeNodes (coherent : d.Coherent) (list : List NodeId) :
    (d.removeNodes list).Coherent := by
  induction list generalizing d with
  | nil => exact coherent
  | cons first rest ih => exact ih (coherent.removeNode first)

theorem clearChildren (coherent : d.Coherent) (id : NodeId) : (d.clearChildren id).Coherent :=
  coherent.removeNodes _

end Coherent

theorem filter_not_mem_append {before gone behind : List NodeId}
    (distinct : (before ++ (gone ++ behind)).Nodup) :
    (before ++ (gone ++ behind)).filter (· ∉ gone) = before ++ behind := by
  simp only [List.nodup_append, List.mem_append] at distinct
  obtain ⟨-, ⟨-, -, goneBehind⟩, beforeRest⟩ := distinct
  have left : before.filter (· ∉ gone) = before := List.filter_eq_self.2 fun id inside => by
    simpa using fun inGone => beforeRest id inside id (.inl inGone) rfl
  have middle : gone.filter (· ∉ gone) = [] := by simp
  have right : behind.filter (· ∉ gone) = behind := List.filter_eq_self.2 fun id inside => by
    simpa using fun inGone => goneBehind id inGone id inside rfl
  rw [List.filter_append, List.filter_append, left, middle, right, List.nil_append]

/-! ## Attaching and detaching -/

theorem Holds.of_reparented {first second : Option NodeId} (held : d.Holds first plants)
    (nodup : (ids plants).Nodup)
    (moved : ∀ id ∈ ids plants, d'.node? id =
      if id ∈ plants.map Plant.root then (d.node? id).map fun node => { node with parent := second }
      else d.node? id) : d'.Holds second plants := by
  induction plants with
  | nil => exact .nil
  | cons plant rest ih =>
    obtain ⟨id, kind, children⟩ := plant
    obtain ⟨top, below, beside⟩ := Holds.cons_iff.1 held
    simp only [ids, List.cons_append, List.nodup_cons, List.mem_append, not_or,
      List.nodup_append] at nodup moved
    obtain ⟨⟨notBelow, notBeside⟩, -, besideNodup, apart⟩ := nodup
    have rootsInside : ∀ other, other ∈ rest.map Plant.root → other ∈ ids rest :=
      fun other inside => (Plant.map_root_sublist rest).mem inside
    refine Holds.cons_iff.2 ⟨?_, below.congr ?_,
      ih beside besideNodup ?_⟩
    · rw [moved id List.mem_cons_self, if_pos (by simp [Plant.root]), top]
      rfl
    · intro other inside
      rw [moved other (by simp [inside]), if_neg]
      rw [List.map_cons, List.mem_cons, Plant.root, not_or]
      exact ⟨fun same => notBelow (same ▸ inside),
        fun isRoot => apart other inside other (rootsInside other isRoot) rfl⟩
    · intro other inside
      have differ : other ≠ id := fun same => notBeside (same ▸ inside)
      rw [moved other (by simp [inside])]
      simp [Plant.root, differ]

def attachAll (d : Document) (parent : NodeId) (place : NodeId → List NodeId → List NodeId)
    (list : List NodeId) : Document :=
  list.foldl (fun d child => d.attach parent child (place child)) d

section attachAll

variable {above : NodeId} {node : Node} {place : NodeId → List NodeId → List NodeId}

theorem holds_rest_attach (held : d.Holds none (plant :: rest)) (nodup : (ids (plant :: rest)).Nodup)
    (outside : above ∉ ids (plant :: rest)) (place : List NodeId → List NodeId) :
    (d.attach above plant.root place).Holds none rest := by
  obtain ⟨first, others⟩ := (Holds.cons plant).1 held
  rw [Plant.ids_cons plant rest] at nodup outside
  obtain ⟨-, -, apart⟩ := List.nodup_append.1 nodup
  have atTop : plant.root ∈ ids [plant] := Plant.root_mem_ids List.mem_cons_self
  have distinct : above ≠ plant.root := fun same =>
    outside (List.mem_append_left _ (same ▸ atTop))
  apply others.congr
  intro other inside
  have notTop : other ≠ plant.root := fun same => apart _ atTop other inside same.symm
  have notAbove : other ≠ above := fun same => outside (List.mem_append_right _ (same ▸ inside))
  rw [node?_attach_of_parent?_none (first.parent?_root List.mem_cons_self) distinct,
    if_neg notTop, if_neg notAbove]

theorem node?_attachAll (place : NodeId → List NodeId → List NodeId) (held : d.Holds none plants)
    (nodup : (ids plants).Nodup) (live : d.node? above = some node) (outside : above ∉ ids plants)
    (id : NodeId) :
    (d.attachAll above place (plants.map Plant.root)).node? id =
      if id ∈ plants.map Plant.root then
        (d.node? id).map fun node => { node with parent := some above }
      else if id = above then
        some (node.withChildren
          ((plants.map Plant.root).foldl (fun list child => place child list) node.children))
      else d.node? id := by
  induction plants generalizing d node with
  | nil => by_cases same : id = above <;> simp [attachAll, Node.withChildren, same, live]
  | cons plant rest ih =>
    obtain ⟨first, -⟩ := (Holds.cons plant).1 held
    have alone := first.parent?_root List.mem_cons_self
    have stay := holds_rest_attach held nodup outside (place plant.root)
    rw [Plant.ids_cons plant rest] at nodup outside
    obtain ⟨-, restNodup, apart⟩ := List.nodup_append.1 nodup
    rw [List.mem_append, not_or] at outside
    have atTop : plant.root ∈ ids [plant] := Plant.root_mem_ids List.mem_cons_self
    have distinct : above ≠ plant.root := fun same => outside.1 (same ▸ atTop)
    have notLater : plant.root ∉ rest.map Plant.root := fun inside =>
      apart _ atTop _ ((Plant.map_root_sublist rest).mem inside) rfl
    have aboveNotLater : above ∉ rest.map Plant.root := fun inside =>
      outside.2 ((Plant.map_root_sublist rest).mem inside)
    have step := node?_attach_of_parent?_none alone distinct (place plant.root)
    have live' : (d.attach above plant.root (place plant.root)).node? above =
        some (node.withChildren (place plant.root node.children)) := by
      rw [step, if_neg distinct, if_pos rfl, live]
      rfl
    rw [List.map_cons, attachAll, List.foldl_cons, ← attachAll, ih stay restNodup live' outside.2,
      step]
    by_cases atRoot : id = plant.root
    · subst atRoot
      simp [notLater, Ne.symm distinct]
    · by_cases atAbove : id = above
      · subst atAbove
        simp [aboveNotLater, atRoot, Node.withChildren]
      · simp [atRoot, atAbove]

theorem holds_attachAll (place : NodeId → List NodeId → List NodeId) (held : d.Holds none plants)
    (nodup : (ids plants).Nodup) (live : d.node? above = some node) (outside : above ∉ ids plants) :
    (d.attachAll above place (plants.map Plant.root)).Holds (some above) plants := by
  apply held.of_reparented nodup
  intro id inside
  have differ : id ≠ above := fun same => outside (same ▸ inside)
  rw [node?_attachAll place held nodup live outside, if_neg differ]

theorem Consistent.attachAll (consistent : d.Consistent) (held : d.Holds none plants)
    (nodup : (ids plants).Nodup) (live : d.contains above) (outside : above ∉ ids plants)
    (perm : ∀ child list, (place child list).Perm (child :: list)) :
    (d.attachAll above place (plants.map Plant.root)).Consistent := by
  induction plants generalizing d with
  | nil => exact consistent
  | cons plant rest ih =>
    obtain ⟨first, -⟩ := (Holds.cons plant).1 held
    have atTop : plant.root ∈ ids [plant] := Plant.root_mem_ids List.mem_cons_self
    have stay := holds_rest_attach held nodup outside (place plant.root)
    rw [Plant.ids_cons plant rest] at nodup outside
    rw [List.mem_append, not_or] at outside
    refine ih ?_ stay (List.nodup_append.1 nodup).2.1 (by rwa [contains_attach]) outside.2
    exact consistent.attach_alone (first.parent?_root List.mem_cons_self)
      (contains_iff.2 (first.live atTop)) live (perm _ _)

theorem contains_attachAll (place : NodeId → List NodeId → List NodeId) (list : List NodeId) :
    (d.attachAll above place list).contains id = d.contains id := by
  induction list generalizing d with
  | nil => rfl
  | cons child rest ih => rw [attachAll, List.foldl_cons, ← attachAll, ih, contains_attach]

theorem Grounded.attachAll (grounded : d.Grounded) (held : d.Holds none plants)
    (nodup : (ids plants).Nodup) (live : d.contains above) (outside : above ∉ ids plants)
    (perm : ∀ child list, (place child list).Perm (child :: list)) :
    (d.attachAll above place (plants.map Plant.root)).Grounded :=
  ⟨grounded.consistent.attachAll held nodup live outside perm,
    (contains_attachAll place _).trans grounded.rootLive⟩

theorem foldl_eq_attachAll (Ready : Document → Prop) {step : Document → NodeId → Document}
    {list : List NodeId} (live : d.contains above) (lives : ∀ child ∈ list, d.contains child)
    (outside : above ∉ list) (ready : Ready d)
    (attaches : ∀ d, ∀ child ∈ list, Ready d → d.contains above → d.contains child →
      above ≠ child → step d child = d.attach above child (place child))
    (keeps : ∀ d, ∀ child ∈ list, Ready d → Ready (d.attach above child (place child))) :
    list.foldl step d = d.attachAll above place list := by
  induction list generalizing d with
  | nil => rfl
  | cons child rest ih =>
    rw [List.mem_cons, not_or] at outside
    rw [List.foldl_cons, attachAll, List.foldl_cons,
      attaches d child List.mem_cons_self ready live (lives child List.mem_cons_self) outside.1]
    refine ih (by rwa [contains_attach]) ?_ outside.2
      (keeps d child List.mem_cons_self ready)
      (fun d other inside => attaches d other (List.mem_cons_of_mem _ inside))
      fun d other inside => keeps d other (List.mem_cons_of_mem _ inside)
    intro other inside
    rw [contains_attach]
    exact lives other (List.mem_cons_of_mem _ inside)

theorem foldl_appendChild_eq {list : List NodeId} (live : d.contains above)
    (lives : ∀ child ∈ list, d.contains child) (outside : above ∉ list) :
    list.foldl (fun d child => d.appendChild above child) d =
      d.attachAll above (fun child list => list ++ [child]) list :=
  foldl_eq_attachAll (fun _ => True) live lives outside trivial
    (fun d child _ _ aboveLive childLive differ => by
      rw [appendChild, if_neg (by simp [differ, aboveLive, childLive])])
    fun _ _ _ _ => trivial

theorem foldl_prependChild_eq {list : List NodeId} (live : d.contains above)
    (lives : ∀ child ∈ list, d.contains child) (outside : above ∉ list) :
    list.foldl (fun d child => d.prependChild above child) d =
      d.attachAll above (fun child list => child :: list) list :=
  foldl_eq_attachAll (fun _ => True) live lives outside trivial
    (fun d child _ _ aboveLive childLive differ => by
      rw [prependChild, if_neg (by simp [differ, aboveLive, childLive])])
    fun _ _ _ _ => trivial

theorem foldl_insertBefore_eq {list : List NodeId} {anchor : NodeId} (live : d.contains above)
    (lives : ∀ child ∈ list, d.contains child) (outside : above ∉ list) (apart : anchor ∉ list)
    (up : d.parent? anchor = some above) :
    list.foldl (fun d child => (d.insertBefore anchor child).1) d =
      d.attachAll above (insertBeforeIn anchor) list := by
  refine foldl_eq_attachAll (fun d => d.parent? anchor = some above) live lives outside up ?_ ?_
  · intro d child inside up aboveLive childLive differ
    have notAnchor : anchor ≠ child := fun same => apart (same ▸ inside)
    simp [insertBefore, notAnchor, childLive, up, contains_detach, aboveLive]
  · intro d child inside up
    have notAnchor : anchor ≠ child := fun same => apart (same ▸ inside)
    rw [parent?_attach_of_ne notAnchor, up]

theorem foldl_append_singleton (list more : List NodeId) :
    more.foldl (fun list child => list ++ [child]) list = list ++ more := by
  induction more generalizing list with
  | nil => simp
  | cons child rest ih => simp [ih]

theorem foldl_cons_reverse (list more : List NodeId) :
    more.reverse.foldl (fun list child => child :: list) list = more ++ list := by
  rw [List.foldl_reverse]
  induction more with
  | nil => rfl
  | cons child rest ih => simp [ih]

theorem insertBeforeIn_append {anchor child : NodeId} {before : List NodeId}
    (apart : anchor ∉ before) (behind : List NodeId) :
    insertBeforeIn anchor child (before ++ anchor :: behind) =
      before ++ child :: anchor :: behind := by
  induction before with
  | nil => simp [insertBeforeIn]
  | cons first rest ih =>
    rw [List.mem_cons, not_or] at apart
    simp [insertBeforeIn, Ne.symm apart.1, ih apart.2]

theorem foldl_insertBeforeIn {anchor : NodeId} {before : List NodeId} (apart : anchor ∉ before)
    (behind more : List NodeId) (notNew : anchor ∉ more) :
    more.foldl (fun list child => insertBeforeIn anchor child list) (before ++ anchor :: behind) =
      before ++ more ++ anchor :: behind := by
  induction more generalizing before with
  | nil => simp
  | cons child rest ih =>
    rw [List.mem_cons, not_or] at notNew
    have apart' : anchor ∉ before ++ [child] := by simp [apart, notNew.1]
    have again := ih apart' notNew.2
    rw [List.foldl_cons, insertBeforeIn_append apart]
    simpa using again

end attachAll

end LiveList.Document
