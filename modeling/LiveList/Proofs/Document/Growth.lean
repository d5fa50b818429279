import LiveList.Document.Graft
import LiveList.Proofs.Document.Moving
import LiveList.Proofs.Markup.Trees

namespace LiveList.Document

open Markup (Tree)
open Plant (Leafy ids trees)

/-- The second document is the first one with plants in slots that were empty: behind the children
of a parent, or as roots. -/
structure Grows (d : Document) (parent : Option NodeId) (plants : List Plant) (d' : Document) :
    Prop where
  grounded : d'.Grounded
  fresh : ∀ id ∈ ids plants, d.node? id = none
  nodup : (ids plants).Nodup
  leafy : Leafy plants
  holds : d'.Holds parent plants
  elsewhere : ∀ id, id ∉ ids plants → d'.node? id =
    if parent = some id then
      (d.node? id).map fun node => node.withChildren (node.children ++ plants.map Plant.root)
    else d.node? id

def Rooted (d : Document) (parent : Option NodeId) : Prop :=
  ∀ above, parent = some above → d.contains above

variable {d d' d'' : Document} {plants rest : List Plant} {id above : NodeId}
  {parent : Option NodeId}

theorem Rooted.none (d : Document) : d.Rooted none := by
  simp [Rooted]

theorem Rooted.some (live : d.contains above) : d.Rooted (some above) := by
  rintro _ ⟨⟩
  exact live

namespace Grows

theorem refl (grounded : d.Grounded) (parent : Option NodeId) : Grows d parent [] d where
  grounded := grounded
  fresh := by simp [ids]
  nodup := by simp [ids]
  leafy := by simp [Leafy]
  holds := .nil
  elsewhere := fun id _ => by
    split
    · cases d.node? id <;> simp [Node.withChildren]
    · rfl

theorem live_of_live (grows : Grows d parent plants d') {node : Node}
    (live : d.node? id = some node) : ∃ node', d'.node? id = some node' := by
  have old : id ∉ ids plants := fun inside => by simp [grows.fresh id inside] at live
  rw [grows.elsewhere id old, live]
  split <;> exact ⟨_, rfl⟩

theorem contains_of_contains (grows : Grows d parent plants d') (live : d.contains id) :
    d'.contains id := by
  obtain ⟨node, held⟩ := contains_iff.1 live
  exact contains_iff.2 (grows.live_of_live held)

theorem not_mem_of_contains (grows : Grows d parent plants d') (live : d.contains id) :
    id ∉ ids plants := fun inside => by
  simp [contains, grows.fresh id inside] at live

theorem rooted (grows : Grows d parent plants d') (rooted : d.Rooted parent) : d'.Rooted parent :=
  fun above same => grows.contains_of_contains (rooted above same)

theorem node?_of_roots (grows : Grows d none plants d') (old : id ∉ ids plants) :
    d'.node? id = d.node? id := by
  simpa using grows.elsewhere id old

theorem root_not_mem (grows : Grows d parent plants d') (grounded : d.Grounded) :
    Document.root ∉ ids plants :=
  grows.not_mem_of_contains grounded.rootLive

theorem parent?_of_not_mem (grows : Grows d parent plants d') (old : id ∉ ids plants) :
    d'.parent? id = d.parent? id := by
  rw [parent?, grows.elsewhere id old, parent?]
  split
  · cases d.node? id <;> rfl
  · rfl

theorem wellFormed (grows : Grows d parent plants d') (rooted : d.Rooted parent)
    (wf : d.WellFormed) : d'.WellFormed := by
  refine wf.of_root grows.grounded (fun id => ?_)
    (grows.parent?_of_not_mem (grows.not_mem_of_contains wf.rootLive))
  refine untangled_of_region (· ∈ ids plants) wf.coherent.untangled ?_ ?_
  · intro child above old up
    have apart : above ∉ ids plants := fun inside =>
      old (grows.holds.mem_ids_of_parent? grows.grounded.consistent up inside)
    exact ⟨apart, (grows.parent?_of_not_mem old).symm.trans up⟩
  · intro id inside
    obtain ⟨plant, isRoot, below⟩ := grows.holds.below_root inside
    refine ⟨plant.root, below, fun above up => ?_⟩
    have same := (grows.holds.parent?_root isRoot).symm.trans up
    exact grows.not_mem_of_contains (rooted above same)

theorem append (first : Grows d parent plants d') (second : Grows d' parent rest d'')
    (rooted : d.Rooted parent) : Grows d parent (plants ++ rest) d'' := by
  have apart : ∀ id ∈ ids plants, id ∉ ids rest := fun id inside =>
    second.not_mem_of_contains (contains_iff.2 (first.holds.live inside))
  refine ⟨second.grounded, fun id inside => ?_, ?_,
    Plant.leafy_append.2 ⟨first.leafy, second.leafy⟩, Holds.append_iff.2 ⟨?_, second.holds⟩,
    fun id outside => ?_⟩
  · rw [Plant.ids_append, List.mem_append] at inside
    cases inside with
    | inl left =>
      exact first.fresh id left
    | inr right =>
      have dead := second.fresh id right
      rw [first.elsewhere id fun left => apart id left right] at dead
      split at dead
      · simpa using dead
      · exact dead
  · rw [Plant.ids_append, List.nodup_append]
    exact ⟨first.nodup, second.nodup, fun a left b right same => apart a left (same ▸ right)⟩
  · apply first.holds.congr
    intro id inside
    have notParent : parent ≠ some id := fun same =>
      first.not_mem_of_contains (rooted id same) inside
    rw [second.elsewhere id (apart id inside), if_neg notParent]
  · rw [Plant.ids_append, List.mem_append, not_or] at outside
    rw [second.elsewhere id outside.2, first.elsewhere id outside.1]
    split
    · cases d.node? id <;> simp [Node.withChildren]
    · rfl

theorem below {kind : Kind} (first : Grows d parent [.node id kind []] d')
    (second : Grows d' (some id) plants d'') (isElement : kind.isElement) :
    Grows d parent [.node id kind plants] d'' := by
  obtain ⟨top, -, -⟩ := Holds.cons_iff.1 first.holds
  have apart : id ∉ ids plants := second.not_mem_of_contains (contains_iff.2 ⟨_, top⟩)
  refine ⟨second.grounded, ?_, ?_, ?_, Holds.cons_iff.2 ⟨?_, second.holds, .nil⟩, ?_⟩
  · intro other inside
    simp only [ids, List.append_nil, List.mem_cons] at inside
    rcases inside with rfl | inside
    · exact first.fresh _ (by simp [ids])
    · have differ : other ≠ id := fun same => apart (same ▸ inside)
      have dead := second.fresh other inside
      rw [first.elsewhere other (by simpa [ids] using differ)] at dead
      split at dead
      · simpa using dead
      · exact dead
  · simpa [ids] using ⟨apart, second.nodup⟩
  · simp [Leafy, isElement, second.leafy]
  · rw [second.elsewhere id apart, if_pos rfl, top]
    simp [Node.withChildren]
  · intro other outside
    simp only [ids, List.append_nil, List.mem_cons, not_or] at outside
    rw [second.elsewhere other outside.2, if_neg (by simpa using Ne.symm outside.1),
      first.elsewhere other (by simpa [ids] using outside.1)]
    simp [Plant.root]

theorem create (grounded : d.Grounded) (kind : Kind) :
    Grows d none [.node (d.create kind).2 kind []] (d.create kind).1 where
  grounded := grounded.create kind
  fresh := by simpa [ids] using node?_create_of_dead grounded.consistent.tidy kind
  nodup := by simp [ids]
  leafy := by simp [Leafy]
  holds := Holds.cons_iff.2
    ⟨by rw [node?_create grounded.consistent.tidy, if_pos rfl]; rfl, .nil, .nil⟩
  elsewhere := fun id outside => by
    rw [node?_create grounded.consistent.tidy, if_neg (by simpa [ids] using outside)]
    simp

theorem hang (grows : Grows d none plants d') (live : d.contains above) :
    Grows d (some above) plants
      ((plants.map Plant.root).foldl (fun d id => d.appendChild above id) d') := by
  obtain ⟨node, held⟩ := contains_iff.1 live
  have outside := grows.not_mem_of_contains live
  have held' : d'.node? above = some node := by rw [grows.node?_of_roots outside, held]
  have live' := contains_iff.2 ⟨node, held'⟩
  have rootsInside : ∀ root ∈ plants.map Plant.root, root ∈ ids plants :=
    fun root inside => (Plant.map_root_sublist plants).mem inside
  rw [foldl_appendChild_eq live'
    (fun child inside => contains_iff.2 (grows.holds.live (rootsInside child inside)))
    fun inside => outside (rootsInside above inside)]
  refine ⟨?_, grows.fresh, grows.nodup, grows.leafy,
    holds_attachAll _ grows.holds grows.nodup held' outside, ?_⟩
  · exact grows.grounded.attachAll grows.holds grows.nodup live' outside append_singleton_perm
  · intro id notInside
    have notRoot : id ∉ plants.map Plant.root := fun inside => notInside (rootsInside id inside)
    rw [node?_attachAll _ grows.holds grows.nodup held' outside, if_neg notRoot,
      foldl_append_singleton]
    by_cases same : id = above
    · subst same
      simp [held]
    · rw [if_neg same, if_neg (by simpa using Ne.symm same), grows.node?_of_roots notInside]

theorem create_below (grounded : d.Grounded) (kind : Kind) (live : d.contains above) :
    Grows d (some above) [.node (d.create kind).2 kind []]
      ((d.create kind).1.appendChild above (d.create kind).2) :=
  (create grounded kind).hang live

end Grows

theorem exists_grows_graftForest (grounded : d.Grounded) (live : d.contains above)
    (forest : List Tree) :
    ∃ plants, Grows d (some above) plants (d.graftForest above forest) ∧ trees plants = forest := by
  induction forest using Tree.forest_induction generalizing d above with
  | nil => exact ⟨[], .refl grounded _, by simp [trees]⟩
  | text content rest ih =>
    have first := Grows.create_below grounded (.text content) live
    obtain ⟨plants, second, same⟩ := ih first.grounded (first.contains_of_contains live)
    exact ⟨_, first.append second (.some live), by simp [trees, Plant.grow, same]⟩
  | comment body rest ih =>
    have first := Grows.create_below grounded (.comment body) live
    obtain ⟨plants, second, same⟩ := ih first.grounded (first.contains_of_contains live)
    exact ⟨_, first.append second (.some live), by simp [trees, Plant.grow, same]⟩
  | element tag attributes children rest below beside =>
    have top := Grows.create_below grounded (.element tag attributes) live
    obtain ⟨held, -, -⟩ := Holds.cons_iff.1 top.holds
    obtain ⟨inner, grown, innerSame⟩ := below top.grounded (contains_iff.2 ⟨_, held⟩)
    have first := top.below grown rfl
    obtain ⟨plants, second, same⟩ := beside first.grounded (first.contains_of_contains live)
    exact ⟨_, first.append second (.some live), by simp [trees, Plant.grow, innerSame, same]⟩

theorem Grows.children_above (grows : Grows d (some above) plants d')
    (live : d.contains above) : d'.children above = d.children above ++ plants.map Plant.root := by
  obtain ⟨node, held⟩ := contains_iff.1 live
  have slot := grows.elsewhere above (grows.not_mem_of_contains live)
  rw [if_pos rfl, held, Option.map_some] at slot
  rw [children_of_node? slot, children_of_node? held]
  rfl

theorem exists_grows_ofHtml (markup : String) :
    ∃ plants, Grows empty (some root) plants (ofHtml markup) ∧ trees plants = Markup.parse markup :=
  exists_grows_graftForest empty_wellFormed.grounded empty_wellFormed.rootLive
    (Markup.parse markup)

theorem ofHtml_wellFormed (markup : String) : (ofHtml markup).WellFormed :=
  have ⟨_, grows, _⟩ := exists_grows_ofHtml markup
  grows.wellFormed (.some empty_wellFormed.rootLive) empty_wellFormed

theorem forest_ofHtml (markup : String) :
    (ofHtml markup).forest ((ofHtml markup).children root) = Markup.parse markup := by
  obtain ⟨plants, grows, same⟩ := exists_grows_ofHtml markup
  have bare : empty.children root = [] := rfl
  rw [grows.children_above empty_wellFormed.rootLive, bare, List.nil_append,
    forest_of_holds grows.holds grows.nodup, same]

theorem node?_foldl_detach (held : d.Holds (some above) plants) (nodup : (ids plants).Nodup)
    (outside : above ∉ ids plants) (id : NodeId) :
    ((plants.map Plant.root).foldl detach d).node? id =
      if id ∈ plants.map Plant.root then (d.node? id).map fun node => { node with parent := none }
      else if id = above then
        (d.node? id).map fun node =>
          node.withChildren (node.children.filter (· ∉ plants.map Plant.root))
      else d.node? id := by
  induction plants generalizing d with
  | nil =>
    simp only [List.map_nil, List.foldl_nil, List.not_mem_nil, if_false, not_false_eq_true,
      decide_true, List.filter_true]
    split <;> cases d.node? id <;> rfl
  | cons plant rest ih =>
    obtain ⟨first, others⟩ := (Holds.cons plant).1 held
    rw [Plant.ids_cons plant rest] at nodup outside
    obtain ⟨-, restNodup, apart⟩ := List.nodup_append.1 nodup
    rw [List.mem_append, not_or] at outside
    have atTop : plant.root ∈ ids [plant] := Plant.root_mem_ids List.mem_cons_self
    have slots := node?_detach_of_holds first fun p same inside => by
      cases same
      exact outside.1 inside
    -- Detaching writes the node and its parent, so the others are held as before.
    have stay : (d.detach plant.root).Holds (some above) rest := others.congr fun other inside => by
      have notTop : other ≠ plant.root := fun same => apart _ atTop other inside same.symm
      have notAbove : some above ≠ some other := fun same =>
        outside.2 (Option.some.inj same ▸ inside)
      rw [slots, if_neg notTop, if_neg notAbove]
    have notLater : plant.root ∉ rest.map Plant.root := fun inside =>
      apart _ atTop _ ((Plant.map_root_sublist rest).mem inside) rfl
    rw [List.map_cons, List.foldl_cons, ih stay restNodup outside.2, slots]
    by_cases atRoot : id = plant.root
    · subst atRoot
      have differ : plant.root ≠ above := fun same => outside.1 (same ▸ atTop)
      simp [notLater, differ]
    · by_cases atAbove : id = above
      · subst atAbove
        have notLater : id ∉ rest.map Plant.root := fun inside =>
          outside.2 ((Plant.map_root_sublist rest).mem inside)
        have notRoot : id ∉ plant.root :: rest.map Plant.root := by simp [atRoot, notLater]
        simp only [atRoot, notLater, notRoot, if_false, if_true, Option.map_map]
        cases d.node? id with
        | none => rfl
        | some node => exact congrArg some (node.filter_children_cons ..)
      · simp [atRoot, atAbove, Ne.symm atAbove]

theorem Grounded.foldl_detach (grounded : d.Grounded) (list : List NodeId) :
    (list.foldl Document.detach d).Grounded := by
  induction list generalizing d with
  | nil => exact grounded
  | cons first rest ih => exact ih (grounded.detach first)

theorem exists_grows_parseFragment (grounded : d.Grounded) (markup : String) :
    ∃ plants, Grows d none plants (d.parseFragment markup).1 ∧
      (d.parseFragment markup).2 = plants.map Plant.root ∧ trees plants = Markup.parse markup := by
  generalize kindEq : Kind.element (String.ofList (Markup.lowerName holderTag.toList)) [] = kind
  -- A holder is created, and the markup is read below it.
  have held := Grows.create grounded kind
  generalize createdEq : d.create kind = created at held
  obtain ⟨d₁, holder⟩ := created
  obtain ⟨top, -, -⟩ := Holds.cons_iff.1 held.holds
  have holderLive : d₁.contains holder := contains_iff.2 ⟨_, top⟩
  obtain ⟨plants, grows, same⟩ :=
    exists_grows_graftForest held.grounded holderLive (Markup.parse markup)
  generalize readEq : d₁.graftForest holder (Markup.parse markup) = d₂ at grows
  have apart : holder ∉ ids plants := grows.not_mem_of_contains holderLive
  have holderNode : d₂.node? holder = some ⟨kind, none, plants.map Plant.root⟩ := by
    rw [grows.elsewhere holder apart, if_pos rfl, top]
    simp [Node.withChildren]
  -- The plants are detached, which leaves the holder empty.
  have slots := node?_foldl_detach grows.holds grows.nodup apart
  generalize detachedEq : (plants.map Plant.root).foldl Document.detach d₂ = d₃ at slots
  have rootsInside : ∀ root ∈ plants.map Plant.root, root ∈ ids plants :=
    fun root inside => (Plant.map_root_sublist plants).mem inside
  have emptied : d₃.node? holder = some ⟨kind, none, []⟩ := by
    rw [slots, if_neg fun inside => apart (rootsInside holder inside), if_pos rfl, holderNode]
    simp [Node.withChildren]
  have loose : d₃.Holds none plants := grows.holds.of_reparented grows.nodup fun id inside => by
    have differ : id ≠ holder := fun same => apart (same ▸ inside)
    rw [slots, if_neg differ]
  have holderAlone : d₃.Holds none [.node holder kind []] := Holds.cons_iff.2 ⟨emptied, .nil, .nil⟩
  -- Then it is removed, and nothing but the plants is new.
  have notRoot : holder ≠ Document.root :=
    grounded.root_ne_of_dead (held.fresh holder (by simp [ids]))
  have notRootBelow : Document.root ∉ ids [Plant.node holder kind []] := by
    simpa [ids] using Ne.symm notRoot
  have removable := Removable.of_root_not_mem holderAlone (by simp [ids]) (.none _) notRootBelow
  have removed := removable.node?_removeNode
  have grounded₃ : d₃.Grounded := detachedEq ▸ grows.grounded.foldl_detach _
  have read : d.parseFragment markup = (d₃.removeNode holder, plants.map Plant.root) := by
    simp only [parseFragment, createElement, kindEq, createdEq, parseInto, readEq, children, holderNode,
      detachedEq]
  rw [read]
  refine ⟨plants, ⟨removable.grounded_removeNodes grounded₃ notRootBelow, fun id inside => ?_,
    grows.nodup, grows.leafy, ?_, fun id outside => ?_⟩, rfl, same⟩
  · have differ : id ≠ holder := fun same => apart (same ▸ inside)
    have dead := grows.fresh id inside
    rwa [held.node?_of_roots (by simpa [ids] using differ)] at dead
  · apply loose.congr
    intro id inside
    have differ : id ≠ holder := fun same => apart (same ▸ inside)
    exact (removed id).trans (by simp [ids, differ])
  · have notRootOf : id ∉ plants.map Plant.root := fun inside => outside (rootsInside id inside)
    refine (removed id).trans ?_
    by_cases atHolder : id = holder
    · subst atHolder
      simpa [ids] using (held.fresh id (by simp [ids])).symm
    · simp only [ids, List.append_nil, List.mem_singleton, atHolder, if_false, reduceCtorEq]
      rw [slots, if_neg notRootOf, if_neg atHolder, grows.elsewhere id outside,
        if_neg (by simpa using Ne.symm atHolder),
        held.node?_of_roots (by simpa [ids] using atHolder)]

end LiveList.Document
