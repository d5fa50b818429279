import LiveList.Proofs.Document.Growth
import Mathlib.Data.List.Perm.Subperm

/-!
# Laying out the children of a node

The children of one node are replaced in steps: plants are grown as roots, hung among the children,
and children are removed. A layout says how far this has come since a first document: which plants
are children now, which are loose, and that every other node is as it was. Main statements: one for
each kind of step, and that a layout without loose plants follows on from another one.
-/

namespace LiveList.Document

open Plant (ids)

/-- Since the first document, in which a node had the plants `old` below it, it has come to have the
plants `now`, the plants `loose` are detached, and no other node has changed. -/
structure Layout (d₀ : Document) (above : NodeId) (old : List Plant) (d : Document)
    (now loose : List Plant) : Prop where
  grounded : d.Grounded
  parent : ∃ node, d₀.node? above = some node ∧
    d.node? above = some (node.withChildren (now.map Plant.root))
  holds : d.Holds (some above) now
  loosely : d.Holds none loose
  nodup : (ids (now ++ loose)).Nodup
  outside : above ∉ ids (now ++ loose)
  notRoot : Document.root ∉ ids (now ++ loose)
  within : ∀ id ∈ ids (now ++ loose), id ∈ ids old ∨ d₀.node? id = none
  freed : ∀ id ∈ ids old, id ∉ ids (now ++ loose) → d.node? id = none
  elsewhere : ∀ id, id ≠ above → id ∉ ids old → id ∉ ids (now ++ loose) →
    d.node? id = d₀.node? id

variable {d₀ d d' : Document} {above : NodeId} {old now loose more now' : List Plant}

theorem Layout.start (grounded : d.Grounded) {node : Node} (live : d.node? above = some node)
    (list : node.children = old.map Plant.root) (holds : d.Holds (some above) old)
    (nodup : (ids old).Nodup) (outside : above ∉ ids old) (notRoot : Document.root ∉ ids old) :
    Layout d above old d old [] where
  grounded := grounded
  parent := ⟨node, live, by rw [live, ← list]; rfl⟩
  holds := holds
  loosely := .nil
  nodup := by simpa using nodup
  outside := by simpa using outside
  notRoot := by simpa using notRoot
  within := fun id inside => .inl (by simpa using inside)
  freed := fun id inside outside => absurd inside (by simpa using outside)
  elsewhere := fun _ _ _ _ => rfl

namespace Layout

theorem live (layout : Layout d₀ above old d now loose) : d.contains above := by
  obtain ⟨node, -, held⟩ := layout.parent
  exact contains_iff.2 ⟨_, held⟩

theorem parent?_above (layout : Layout d₀ above old d now loose) :
    d.parent? above = d₀.parent? above := by
  obtain ⟨node, before, held⟩ := layout.parent
  rw [parent?, parent?, before, held]
  rfl

theorem contains_of_mem (layout : Layout d₀ above old d now loose) {id : NodeId}
    (inside : id ∈ ids (now ++ loose)) : d.contains id := by
  rw [Plant.ids_append, List.mem_append] at inside
  cases inside with
  | inl left =>
    exact contains_iff.2 (layout.holds.live left)
  | inr right =>
    exact contains_iff.2 (layout.loosely.live right)

theorem ne_above (layout : Layout d₀ above old d now loose) {id : NodeId}
    (dead : d.node? id = none) : id ≠ above := by
  rintro rfl
  have live := layout.live
  simp [contains, dead] at live

theorem dead_before (layout : Layout d₀ above old d now loose) {id : NodeId}
    (dead : d.node? id = none) (notOld : id ∉ ids old) : d₀.node? id = none := by
  have notHeld : id ∉ ids (now ++ loose) := fun inside => by
    have live := layout.contains_of_mem inside
    simp [contains, dead] at live
  rw [← layout.elsewhere id (layout.ne_above dead) notOld notHeld, dead]

theorem parent?_root (layout : Layout d₀ above old d now loose) :
    d.parent? Document.root = d₀.parent? Document.root := by
  by_cases atAbove : Document.root = above
  · rw [atAbove, layout.parent?_above]
  · have notOld : Document.root ∉ ids old := fun inOld => by
      have live := layout.grounded.rootLive
      simp [contains, layout.freed _ inOld layout.notRoot] at live
    rw [parent?, layout.elsewhere _ atAbove notOld layout.notRoot, parent?]

theorem parent?_of_not_mem (layout : Layout d₀ above old d now loose) {id parent : NodeId}
    (elsewhere : id ∉ ids (now ++ loose)) (up : d.parent? id = some parent) :
    d₀.parent? id = some parent := by
  by_cases atAbove : id = above
  · rw [atAbove, ← layout.parent?_above, ← atAbove, up]
  · have notOld : id ∉ ids old := fun inOld => by
      simp [parent?, layout.freed id inOld elsewhere] at up
    rwa [parent?, ← layout.elsewhere id atAbove notOld elsewhere]

theorem mem_of_parent? (layout : Layout d₀ above old d now loose) {id parent : NodeId}
    (up : d.parent? id = some parent) (inside : parent ∈ ids (now ++ loose)) :
    id ∈ ids (now ++ loose) := by
  rw [Plant.ids_append, List.mem_append] at inside ⊢
  have consistent := layout.grounded.consistent
  exact inside.imp (layout.holds.mem_ids_of_parent? consistent up)
    (layout.loosely.mem_ids_of_parent? consistent up)

theorem wellFormed (layout : Layout d₀ above old d now loose) (wf : d₀.WellFormed) :
    d.WellFormed := by
  refine wf.of_root layout.grounded (fun id => ?_) layout.parent?_root
  refine untangled_of_region (· ∈ ids (now ++ loose)) wf.coherent.untangled ?_ ?_
  · intro child parent elsewhere up
    exact ⟨fun inside => elsewhere (layout.mem_of_parent? up inside),
      layout.parent?_of_not_mem elsewhere up⟩
  · intro id inside
    rw [Plant.ids_append, List.mem_append] at inside
    cases inside with
    | inl inNow =>
      obtain ⟨plant, isRoot, below⟩ := layout.holds.below_root inNow
      refine ⟨plant.root, below, fun parent up => ?_⟩
      obtain rfl := Option.some.inj ((layout.holds.parent?_root isRoot).symm.trans up)
      exact layout.outside
    | inr inLoose =>
      obtain ⟨plant, isRoot, below⟩ := layout.loosely.below_root inLoose
      refine ⟨plant.root, below, fun parent up => ?_⟩
      rw [layout.loosely.parent?_root isRoot] at up
      cases up

theorem grow (layout : Layout d₀ above old d now loose) (grows : Grows d none more d') :
    Layout d₀ above old d' now (loose ++ more) := by
  -- What grows takes empty slots only, so it meets nothing that is laid out.
  have apart : ∀ id ∈ ids (now ++ loose), id ∉ ids more := fun id inside =>
    grows.not_mem_of_contains (layout.contains_of_mem inside)
  have same : ∀ id ∈ ids (now ++ loose), d'.node? id = d.node? id := fun id inside =>
    grows.node?_of_roots (apart id inside)
  have aboveOutside := grows.not_mem_of_contains layout.live
  have split : ids (now ++ (loose ++ more)) = ids (now ++ loose) ++ ids more := by simp
  refine ⟨grows.grounded, ?_, layout.holds.congr fun id inside => same id (by simp [inside]),
    Holds.append_iff.2 ⟨layout.loosely.congr fun id inside => same id (by simp [inside]),
      grows.holds⟩, ?_, ?_, ?_, ?_, ?_, ?_⟩
  · obtain ⟨node, before, held⟩ := layout.parent
    exact ⟨node, before, by rw [grows.node?_of_roots aboveOutside, held]⟩
  · rw [split, List.nodup_append]
    exact ⟨layout.nodup, grows.nodup, fun a left b right equal => apart a left (equal ▸ right)⟩
  · rw [split, List.mem_append, not_or]
    exact ⟨layout.outside, aboveOutside⟩
  · rw [split, List.mem_append, not_or]
    exact ⟨layout.notRoot, grows.root_not_mem layout.grounded⟩
  · intro id inside
    rw [split, List.mem_append] at inside
    cases inside with
    | inl left =>
      exact layout.within id left
    | inr right =>
      by_cases inOld : id ∈ ids old
      · exact .inl inOld
      · exact .inr (layout.dead_before (grows.fresh id right) inOld)
  · intro id inOld gone
    rw [split, List.mem_append, not_or] at gone
    rw [grows.node?_of_roots gone.2, layout.freed id inOld gone.1]
  · intro id differ notOld gone
    rw [split, List.mem_append, not_or] at gone
    rw [grows.node?_of_roots gone.2, layout.elsewhere id differ notOld gone.1]

theorem hang {place : NodeId → List NodeId → List NodeId}
    (layout : Layout d₀ above old d now (more ++ loose))
    (perm : ∀ child list, (place child list).Perm (child :: list))
    (perm' : now'.Perm (now ++ more))
    (placed : (more.map Plant.root).foldl (fun list child => place child list)
      (now.map Plant.root) = now'.map Plant.root) :
    Layout d₀ above old (d.attachAll above place (more.map Plant.root)) now' loose := by
  have heldMore := (Holds.append_iff.1 layout.loosely).1
  have heldLoose := (Holds.append_iff.1 layout.loosely).2
  have nodup := layout.nodup
  have outside := layout.outside
  have notRoot := layout.notRoot
  simp only [Plant.ids_append, List.nodup_append, List.mem_append, not_or] at nodup outside notRoot
  obtain ⟨nowNodup, ⟨moreNodup, looseNodup, moreLoose⟩, nowRest⟩ := nodup
  obtain ⟨node, before, held⟩ := layout.parent
  have slots := node?_attachAll place heldMore moreNodup held outside.2.1
  have rootsInside : ∀ root ∈ more.map Plant.root, root ∈ ids more :=
    fun root inside => (Plant.map_root_sublist more).mem inside
  -- Attaching writes the new children and their parent, and no other node.
  have same : ∀ id, id ≠ above → id ∉ ids more →
      (d.attachAll above place (more.map Plant.root)).node? id = d.node? id :=
    fun id differ notMore => by
      rw [slots, if_neg fun isRoot => notMore (rootsInside id isRoot), if_neg differ]
  have hung := holds_attachAll place heldMore moreNodup held outside.2.1
  have both : (d.attachAll above place (more.map Plant.root)).Holds (some above) (now ++ more) :=
    Holds.append_iff.2 ⟨layout.holds.congr fun id inside => same id
      (fun equal => outside.1 (equal ▸ inside))
      (fun inMore => nowRest id inside id (.inl inMore) rfl), hung⟩
  have idsPerm : (ids now').Perm (ids (now ++ more)) := Plant.ids_perm perm'
  have memIff : ∀ id, id ∈ ids (now' ++ loose) ↔ id ∈ ids (now ++ (more ++ loose)) := fun id => by
    simp [idsPerm.mem_iff, or_assoc]
  refine ⟨layout.grounded.attachAll heldMore moreNodup layout.live outside.2.1 perm,
    ⟨node, before, ?_⟩, both.of_perm perm', heldLoose.congr fun id inside => same id
      (fun equal => outside.2.2 (equal ▸ inside)) (fun inMore => moreLoose id inMore id inside rfl),
    ?_, ?_, ?_, fun id inside => layout.within id ((memIff id).1 inside), ?_, ?_⟩
  · rw [slots, if_neg fun isRoot => outside.2.1 (rootsInside above isRoot), if_pos rfl]
    simp only [Node.withChildren] at placed ⊢
    rw [placed]
  · have whole : (ids (now' ++ loose)).Perm (ids (now ++ (more ++ loose))) := by
      rw [Plant.ids_append, ← List.append_assoc, Plant.ids_append (now ++ more)]
      exact idsPerm.append_right _
    exact whole.nodup_iff.2 layout.nodup
  · rw [memIff]
    exact layout.outside
  · rw [memIff]
    exact layout.notRoot
  · intro id inOld gone
    have gone' := fun inside => gone ((memIff id).2 inside)
    have notMore : id ∉ ids more := fun inMore => gone' (by simp [inMore])
    have dead := layout.freed id inOld gone'
    rw [same id (layout.ne_above dead) notMore, dead]
  · intro id differ notOld gone
    have gone' := fun inside => gone ((memIff id).2 inside)
    have notMore : id ∉ ids more := fun inMore => gone' (by simp [inMore])
    rw [same id differ notMore, layout.elsewhere id differ notOld gone']

theorem sameNodes (layout : Layout d₀ above old d now loose) (grounded : d'.Grounded)
    (same : d.SameNodes d') : Layout d₀ above old d' now loose where
  grounded := grounded
  parent := by
    obtain ⟨node, before, held⟩ := layout.parent
    exact ⟨node, before, by rw [same, held]⟩
  holds := layout.holds.congr fun id _ => same id
  loosely := layout.loosely.congr fun id _ => same id
  nodup := layout.nodup
  outside := layout.outside
  notRoot := layout.notRoot
  within := layout.within
  freed := fun id inOld gone => by rw [same, layout.freed id inOld gone]
  elsewhere := fun id differ notOld gone => by rw [same, layout.elsewhere id differ notOld gone]

theorem remove {before gone behind : List Plant}
    (layout : Layout d₀ above old d (before ++ (gone ++ behind)) loose) :
    Layout d₀ above old (d.removeNodes (gone.map Plant.root)) (before ++ behind) loose := by
  have held := layout.holds
  have nodup := layout.nodup
  have outside := layout.outside
  have notRoot := layout.notRoot
  simp only [Holds.append_iff] at held
  simp only [Plant.ids_append, List.nodup_append, List.mem_append, not_or] at nodup outside notRoot
  obtain ⟨heldBefore, heldGone, heldBehind⟩ := held
  obtain ⟨⟨beforeNodup, ⟨goneNodup, behindNodup, goneBehind⟩, beforeRest⟩, looseNodup, nowLoose⟩ :=
    nodup
  have removable := Removable.of_root_not_mem heldGone goneNodup
    (fun other equal => Option.some.inj equal ▸ outside.1.2.1) notRoot.1.2.1
  have slots := removable.node?_removeNodes
  have same : ∀ id, id ≠ above → id ∉ ids gone →
      (d.removeNodes (gone.map Plant.root)).node? id = d.node? id := fun id differ notGone => by
    rw [slots, if_neg notGone, if_neg (by simpa using Ne.symm differ)]
  -- What is left is in other plants, so it is neither freed nor the parent.
  have stay : ∀ id, id ∈ ids before ∨ id ∈ ids behind ∨ id ∈ ids loose →
      (d.removeNodes (gone.map Plant.root)).node? id = d.node? id := fun id inside => by
    refine same id ?_ ?_
    · intro equal
      subst equal
      rcases inside with left | middle | right
      · exact outside.1.1 left
      · exact outside.1.2.2 middle
      · exact outside.2 right
    · intro inGone
      rcases inside with left | middle | right
      · exact beforeRest id left id (.inl inGone) rfl
      · exact goneBehind id inGone id middle rfl
      · exact nowLoose id (.inr (.inl inGone)) id right rfl
  have notBefore : ∀ id, id ∉ ids (before ++ behind ++ loose) → id ∉ ids gone →
      id ∉ ids (before ++ (gone ++ behind) ++ loose) := fun id notHeld notGone => by
    simp only [Plant.ids_append, List.mem_append, not_or] at notHeld ⊢
    exact ⟨⟨notHeld.1.1, notGone, notHeld.1.2⟩, notHeld.2⟩
  obtain ⟨node, first, now⟩ := layout.parent
  refine ⟨removable.grounded_removeNodes layout.grounded notRoot.1.2.1, ⟨node, first, ?_⟩,
    Holds.append_iff.2 ⟨heldBefore.congr fun id inside => stay id (.inl inside),
      heldBehind.congr fun id inside => stay id (.inr (.inl inside))⟩,
    layout.loosely.congr fun id inside => stay id (.inr (.inr inside)), ?_, ?_, ?_,
    fun id inside => layout.within id ?_, ?_, ?_⟩
  · rw [slots, if_neg outside.1.2.1, if_pos rfl, now]
    have distinct : ((before ++ (gone ++ behind)).map Plant.root).Nodup := by
      refine (Plant.map_root_sublist _).nodup ?_
      have whole := layout.nodup
      rw [Plant.ids_append] at whole
      exact (List.nodup_append.1 whole).1
    simp only [Option.map_some, Node.withChildren, List.map_append] at distinct ⊢
    congr 2
    exact filter_not_mem_append distinct
  · simp only [Plant.ids_append, List.nodup_append, List.mem_append]
    exact ⟨⟨beforeNodup, behindNodup, fun a left b right => beforeRest a left b (.inr right)⟩,
      looseNodup, fun a inside => nowLoose a (inside.imp id .inr)⟩
  · simpa using ⟨outside.1.1, outside.1.2.2, outside.2⟩
  · simpa using ⟨notRoot.1.1, notRoot.1.2.2, notRoot.2⟩
  · simp only [Plant.ids_append, List.mem_append] at inside ⊢
    exact inside.imp_left fun both => both.imp_right .inr
  · intro id inOld notHeld
    by_cases inGone : id ∈ ids gone
    · rw [slots, if_pos inGone]
    · have dead := layout.freed id inOld (notBefore id notHeld inGone)
      rw [same id (layout.ne_above dead) inGone, dead]
  · intro id differ notOld notHeld
    by_cases inGone : id ∈ ids gone
    · -- A node that is neither old nor there any more was drawn into a slot that was empty.
      rw [slots, if_pos inGone]
      have wasHeld : id ∈ ids (before ++ (gone ++ behind) ++ loose) := by simp [inGone]
      exact ((layout.within id wasHeld).resolve_left notOld).symm
    · rw [same id differ inGone, layout.elsewhere id differ notOld (notBefore id notHeld inGone)]

theorem clear (layout : Layout d₀ above old d now loose) :
    Layout d₀ above old (d.clearChildren above) [] loose := by
  obtain ⟨node, -, held⟩ := layout.parent
  have whole : now = [] ++ (now ++ []) := by simp
  rw [clearChildren, children_of_node? held]
  rw [whole] at layout
  exact layout.remove

theorem release {list kept : List NodeId} (layout : Layout d₀ above old d now loose)
    (inside : (list ++ kept).Subperm (now.map Plant.root)) :
    ∃ left, Layout d₀ above old (d.removeNodes list) left loose ∧
      kept.Subperm (left.map Plant.root) := by
  induction list generalizing d now with
  | nil => exact ⟨now, layout, inside⟩
  | cons first rest ih =>
    obtain ⟨plant, there, rfl⟩ := List.mem_map.1 (inside.subset List.mem_cons_self)
    obtain ⟨before, behind, rfl⟩ := List.append_of_mem there
    rw [List.cons_append, List.map_append, List.map_cons, List.perm_middle.subperm_left,
      List.subperm_cons, ← List.map_append] at inside
    rw [← List.singleton_append] at layout
    exact ih layout.remove inside

end Layout

end LiveList.Document
