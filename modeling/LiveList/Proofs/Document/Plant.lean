import LiveList.Proofs.Document.WellFormed
import Mathlib.Data.List.Perm.Subperm

/-!
# Plants

A plant is a tree of nodes together with their names. A document holds plants below a parent if each
of their slots holds the node that the plant says. Plants side by side are lists, and definitions
and proofs go by the first node of the first plant: what is below it, and what is beside it. Main
statements: what a document that holds plants gives for their trees, and that every node which is
not below itself is the root of a plant that a consistent document holds.
-/

namespace LiveList.Document

open Markup (Tree Attributes)

def Kind.isElement : Kind → Bool
  | .element .. => true
  | _ => false

inductive Plant where
  | node (id : NodeId) (kind : Kind) (children : List Plant)

namespace Plant

def root : Plant → NodeId
  | .node id _ _ => id

def kind : Plant → Kind
  | .node _ kind _ => kind

def ids : List Plant → List NodeId
  | [] => []
  | .node id _ children :: rest => id :: ids children ++ ids rest

def entries (parent : Option NodeId) : List Plant → List (NodeId × Node)
  | [] => []
  | .node id kind children :: rest =>
    (id, ⟨kind, parent, children.map root⟩) :: entries (some id) children ++ entries parent rest

def Leafy : List Plant → Prop
  | [] => True
  | .node _ kind children :: rest => (kind.isElement ∨ children = []) ∧ Leafy children ∧ Leafy rest

def elements : List Plant → List NodeId
  | [] => []
  | .node id kind children :: rest =>
    (if kind.isElement then [id] else []) ++ elements children ++ elements rest

def grow (kind : Kind) (below : List Tree) : Tree :=
  match kind with
  | .element tag attributes => .element tag attributes below
  | .text content => .text content
  | .comment body => .comment body

def trees : List Plant → List Tree
  | [] => []
  | .node _ kind children :: rest => grow kind (trees children) :: trees rest

theorem forest_induction {motive : List Plant → Prop} (nil : motive [])
    (cons : ∀ id kind children rest, motive children → motive rest →
      motive (.node id kind children :: rest)) (plants : List Plant) : motive plants :=
  ids.induct motive nil cons plants

variable {plants rest : List Plant} {id : NodeId} {parent : Option NodeId}

@[simp] theorem ids_append (plants rest : List Plant) : ids (plants ++ rest) = ids plants ++ ids rest := by
  induction plants using forest_induction with
  | nil => simp [ids]
  | cons id kind children others _ ih => simp [ids, ih]

@[simp] theorem entries_append (parent : Option NodeId) (plants rest : List Plant) :
    entries parent (plants ++ rest) = entries parent plants ++ entries parent rest := by
  induction plants using forest_induction with
  | nil => simp [entries]
  | cons id kind children others _ ih => simp [entries, ih]

theorem elements_append (plants rest : List Plant) :
    elements (plants ++ rest) = elements plants ++ elements rest := by
  induction plants using forest_induction with
  | nil => simp [elements]
  | cons id kind children others _ ih => simp [elements, ih]

theorem leafy_append : Leafy (plants ++ rest) ↔ Leafy plants ∧ Leafy rest := by
  induction plants using forest_induction with
  | nil => simp [Leafy]
  | cons id kind children others _ ih => simp [Leafy, ih, and_assoc]

@[simp] theorem trees_append (plants rest : List Plant) :
    trees (plants ++ rest) = trees plants ++ trees rest := by
  induction plants using forest_induction with
  | nil => simp [trees]
  | cons id kind children others _ ih => simp [trees, ih]

theorem ids_eq_flatMap (plants : List Plant) : ids plants = plants.flatMap fun plant => ids [plant] := by
  induction plants with
  | nil => simp [ids]
  | cons plant rest ih => rw [List.flatMap_cons, ← ih, ← ids_append, List.singleton_append]

theorem ids_perm (perm : plants.Perm rest) : (ids plants).Perm (ids rest) := by
  rw [ids_eq_flatMap, ids_eq_flatMap rest]
  exact perm.flatMap_right _

theorem entries_eq_flatMap (parent : Option NodeId) (plants : List Plant) :
    entries parent plants = plants.flatMap fun plant => entries parent [plant] := by
  induction plants with
  | nil => simp [entries]
  | cons plant rest ih => rw [List.flatMap_cons, ← ih, ← entries_append, List.singleton_append]

theorem map_fst_entries (parent : Option NodeId) (plants : List Plant) :
    (entries parent plants).map Prod.fst = ids plants := by
  induction plants using forest_induction generalizing parent with
  | nil => simp [entries, ids]
  | cons id kind children rest below beside => simp [entries, ids, below, beside]

theorem mem_ids_of_entry {node : Node} (inside : (id, node) ∈ entries parent plants) :
    id ∈ ids plants := by
  rw [← map_fst_entries parent plants]
  exact List.mem_map_of_mem inside

theorem exists_entry (parent : Option NodeId) (inside : id ∈ ids plants) :
    ∃ node, (id, node) ∈ entries parent plants := by
  rw [← map_fst_entries parent plants] at inside
  obtain ⟨⟨other, node⟩, held, rfl⟩ := List.mem_map.1 inside
  exact ⟨node, held⟩

theorem map_root_sublist (plants : List Plant) : (plants.map root).Sublist (ids plants) := by
  induction plants using forest_induction with
  | nil => simp
  | cons id kind children rest _ ih =>
    rw [List.map_cons, root, ids, List.cons_append]
    exact (ih.trans (List.sublist_append_right _ _)).cons_cons id

theorem root_mem_ids {plant : Plant} (inside : plant ∈ plants) : plant.root ∈ ids plants :=
  (map_root_sublist plants).mem (List.mem_map_of_mem inside)

theorem mem_ids_of_child {node : Node} {child : NodeId}
    (inside : (id, node) ∈ entries parent plants) (below : child ∈ node.children) :
    child ∈ ids plants := by
  induction plants using forest_induction generalizing parent with
  | nil => simp [entries] at inside
  | cons top kind children rest inner beside =>
    rw [entries, List.cons_append, List.mem_cons, List.mem_append] at inside
    rw [ids, List.cons_append, List.mem_cons, List.mem_append]
    rcases inside with atTop | further | others
    · simp only [Prod.mk.injEq] at atTop
      rw [atTop.2] at below
      exact .inr (.inl ((map_root_sublist children).mem below))
    · exact .inr (.inl (inner further))
    · exact .inr (.inr (beside others))

theorem parent_of_entry {node : Node} (inside : (id, node) ∈ entries parent plants) :
    (node.parent = parent ∧ id ∈ plants.map root) ∨ ∃ above ∈ ids plants, node.parent = some above := by
  induction plants using forest_induction generalizing parent with
  | nil => simp [entries] at inside
  | cons top kind children rest inner beside =>
    rw [entries, List.cons_append, List.mem_cons, List.mem_append] at inside
    simp only [ids, List.cons_append, List.mem_cons, List.mem_append, List.map_cons]
    rcases inside with atTop | further | others
    · simp only [Prod.mk.injEq] at atTop
      exact .inl ⟨by rw [atTop.2], .inl atTop.1⟩
    · rcases inner further with ⟨same, -⟩ | ⟨above, isNode, up⟩
      · exact .inr ⟨top, .inl rfl, same⟩
      · exact .inr ⟨above, .inr (.inl isNode), up⟩
    · rcases beside others with ⟨same, isRoot⟩ | ⟨above, isNode, up⟩
      · exact .inl ⟨same, .inr isRoot⟩
      · exact .inr ⟨above, .inr (.inr isNode), up⟩

end Plant

open Plant (ids entries trees grow)

variable {d d' : Document} {plants rest : List Plant} {id : NodeId} {parent : Option NodeId}

/-- The document holds plants side by side below a parent, or as roots. -/
def Holds (d : Document) (parent : Option NodeId) (plants : List Plant) : Prop :=
  ∀ id node, (id, node) ∈ entries parent plants → d.node? id = some node

namespace Holds

theorem nil : d.Holds parent [] := by
  simp [Holds, entries]

theorem cons_iff {kind : Kind} {children : List Plant} :
    d.Holds parent (.node id kind children :: rest) ↔
      d.node? id = some ⟨kind, parent, children.map Plant.root⟩ ∧ d.Holds (some id) children ∧
        d.Holds parent rest := by
  simp only [Holds, entries, List.cons_append, List.mem_cons, List.mem_append, Prod.mk.injEq]
  constructor
  · intro held
    exact ⟨held _ _ (.inl ⟨rfl, rfl⟩), fun id node inside => held id node (.inr (.inl inside)),
      fun id node inside => held id node (.inr (.inr inside))⟩
  · rintro ⟨top, below, beside⟩ other node (⟨rfl, rfl⟩ | inside | inside)
    · exact top
    · exact below other node inside
    · exact beside other node inside

theorem append_iff : d.Holds parent (plants ++ rest) ↔ d.Holds parent plants ∧ d.Holds parent rest := by
  simp only [Holds, Plant.entries_append, List.mem_append]
  constructor
  · intro held
    exact ⟨fun id node inside => held id node (.inl inside),
      fun id node inside => held id node (.inr inside)⟩
  · rintro ⟨left, right⟩ id node (inside | inside)
    · exact left id node inside
    · exact right id node inside

theorem congr (held : d.Holds parent plants)
    (same : ∀ id ∈ ids plants, d'.node? id = d.node? id) : d'.Holds parent plants := by
  intro id node inside
  rw [same id (Plant.mem_ids_of_entry inside)]
  exact held id node inside

theorem of_perm (held : d.Holds parent plants) (perm : rest.Perm plants) : d.Holds parent rest := by
  intro id node inside
  apply held id node
  rw [Plant.entries_eq_flatMap] at inside ⊢
  exact (perm.flatMap_right _).mem_iff.1 inside

theorem live (held : d.Holds parent plants) (inside : id ∈ ids plants) :
    ∃ node, d.node? id = some node := by
  obtain ⟨node, entry⟩ := Plant.exists_entry parent inside
  exact ⟨node, held id node entry⟩

theorem length_ids_le (held : d.Holds parent plants) (nodup : (ids plants).Nodup) :
    (ids plants).length ≤ d.slots.size := by
  have inRange : ids plants ⊆ List.range d.slots.size := fun id inside => by
    obtain ⟨node, live⟩ := held.live inside
    exact List.mem_range.2 (lt_size_of_node? live)
  simpa using (List.subperm_of_subset nodup inRange).length_le

theorem parent?_root (held : d.Holds parent plants) {plant : Plant} (inside : plant ∈ plants) :
    d.parent? plant.root = parent := by
  obtain ⟨before, behind, rfl⟩ := List.append_of_mem inside
  obtain ⟨id, kind, children⟩ := plant
  have atTop := (cons_iff.1 (append_iff.1 held).2).1
  simp [parent?, Plant.root, atTop]

theorem kind?_root (held : d.Holds parent plants) {plant : Plant} (inside : plant ∈ plants) :
    d.kind? plant.root = some plant.kind := by
  obtain ⟨before, behind, rfl⟩ := List.append_of_mem inside
  obtain ⟨id, kind, children⟩ := plant
  have atTop := (cons_iff.1 (append_iff.1 held).2).1
  simp [kind?, Plant.root, Plant.kind, atTop]

theorem filter_isElement (held : d.Holds parent plants) (notRoot : Document.root ∉ ids plants) :
    (ids plants).filter d.isElement = Plant.elements plants := by
  induction plants using Plant.forest_induction generalizing parent with
  | nil => simp [ids, Plant.elements]
  | cons id kind children rest below beside =>
    obtain ⟨top, heldBelow, heldBeside⟩ := cons_iff.1 held
    simp only [ids, List.cons_append, List.mem_cons, List.mem_append, not_or] at notRoot
    have first : d.isElement id = kind.isElement := by
      have differ : id ≠ Document.root := Ne.symm notRoot.1
      cases kind <;> simp [isElement, differ, tag?, kind?, top, Kind.isElement]
    rw [ids, List.cons_append, List.filter_cons, List.filter_append, below heldBelow notRoot.2.1,
      beside heldBeside notRoot.2.2, first, Plant.elements]
    split <;> simp

theorem mem_ids_of_parent? (held : d.Holds parent plants) (consistent : d.Consistent)
    {above : NodeId} (up : d.parent? id = some above) (inside : above ∈ ids plants) :
    id ∈ ids plants := by
  obtain ⟨node, entry⟩ := Plant.exists_entry parent inside
  have listed : id ∈ d.children above := (consistent.linked above id).2 up
  rw [children_of_node? (held above node entry)] at listed
  exact Plant.mem_ids_of_child entry listed

theorem below_root (held : d.Holds parent plants) (inside : id ∈ ids plants) :
    ∃ plant ∈ plants, d.Below plant.root id := by
  induction plants using Plant.forest_induction generalizing parent with
  | nil => simp [ids] at inside
  | cons top kind children rest inner beside =>
    obtain ⟨-, heldBelow, heldBeside⟩ := cons_iff.1 held
    rw [ids, List.cons_append, List.mem_cons, List.mem_append] at inside
    rcases inside with rfl | further | others
    · exact ⟨_, List.mem_cons_self, .self⟩
    · obtain ⟨plant, isChild, below⟩ := inner heldBelow further
      have up := heldBelow.parent?_root isChild
      exact ⟨_, List.mem_cons_self, (Below.step up .self).trans below⟩
    · obtain ⟨plant, isBeside, below⟩ := beside heldBeside others
      exact ⟨plant, List.mem_cons_of_mem _ isBeside, below⟩

end Holds

/-! ## Trees and markup -/

theorem subtreeWithin_of_holds {depth : Nat} (held : d.Holds parent plants)
    (deep : (ids plants).length ≤ depth) :
    (plants.map Plant.root).flatMap (d.subtreeWithin depth) = ids plants := by
  induction plants using Plant.forest_induction generalizing parent depth with
  | nil => simp [ids]
  | cons id kind children rest inner beside =>
    obtain ⟨top, heldBelow, heldBeside⟩ := Holds.cons_iff.1 held
    simp only [ids, List.cons_append, List.length_cons, List.length_append] at deep
    cases depth with
    | zero => omega
    | succ depth =>
      rw [List.map_cons, List.flatMap_cons, beside heldBeside (by omega), Plant.root, subtreeWithin, top]
      dsimp only
      rw [inner heldBelow (by omega), ids]

theorem treeWithin_of_holds {depth : Nat} (held : d.Holds parent plants)
    (deep : (ids plants).length ≤ depth) :
    (plants.map Plant.root).filterMap (d.treeWithin depth) = trees plants := by
  induction plants using Plant.forest_induction generalizing parent depth with
  | nil => simp [trees]
  | cons id kind children rest inner beside =>
    obtain ⟨top, heldBelow, heldBeside⟩ := Holds.cons_iff.1 held
    simp only [ids, List.cons_append, List.length_cons, List.length_append] at deep
    cases depth with
    | zero => omega
    | succ depth =>
      have first : d.treeWithin (depth + 1) id = some (grow kind (trees children)) := by
        rw [treeWithin, top, Option.map_some, inner heldBelow (by omega)]
        cases kind <;> rfl
      rw [List.map_cons, Plant.root, List.filterMap_cons_some first, beside heldBeside (by omega), trees]

theorem subtree_of_holds (held : d.Holds parent plants) (nodup : (ids plants).Nodup) :
    (plants.map Plant.root).flatMap d.subtree = ids plants :=
  subtreeWithin_of_holds held (held.length_ids_le nodup)

theorem forest_of_holds (held : d.Holds parent plants) (nodup : (ids plants).Nodup) :
    d.forest (plants.map Plant.root) = trees plants :=
  treeWithin_of_holds held (held.length_ids_le nodup)

theorem innerHtml_of_holds {top : NodeId} (held : d.Holds parent plants)
    (nodup : (ids plants).Nodup) (list : d.children top = plants.map Plant.root) :
    d.innerHtml top = String.ofList (Tree.forestMarkup (d.holdsRawText top) (trees plants)) := by
  rw [innerHtml, list, forest_of_holds held nodup]

theorem outerHtml_of_holds {plant : Plant} (held : d.Holds none [plant])
    (nodup : (ids [plant]).Nodup) (notRoot : plant.root ≠ Document.root) :
    d.outerHtml plant.root = String.ofList (Tree.forestMarkup false (trees [plant])) := by
  have alone := held.parent?_root List.mem_cons_self
  have tree : d.forest [plant.root] = trees [plant] := forest_of_holds held nodup
  simp [outerHtml, notRoot, alone, tree]

/-! ## Plants of consistent documents -/

theorem WellFormed.root_not_mem_ids (wf : d.WellFormed) {above : NodeId}
    (held : d.Holds (some above) plants) : Document.root ∉ ids plants := by
  intro inside
  obtain ⟨node, entry⟩ := Plant.exists_entry (some above) inside
  have alone := wf.rootAlone
  rw [parent?, held _ node entry] at alone
  rcases Plant.parent_of_entry entry with ⟨same, -⟩ | ⟨higher, -, same⟩ <;>
    simp [same] at alone

namespace Consistent

variable (consistent : d.Consistent)
include consistent

theorem nodup_ids (held : d.Holds parent plants) (distinct : (plants.map Plant.root).Nodup)
    (untangled : ∀ plant ∈ plants, ¬ d.Tangled plant.root)
    (siblings : ∀ plant ∈ plants, ∀ other ∈ plants, plant.root ≠ other.root →
      ¬ d.Below plant.root other.root) : (ids plants).Nodup := by
  induction plants using Plant.forest_induction generalizing parent with
  | nil => simp [ids]
  | cons id kind children rest inner beside =>
    obtain ⟨top, heldBelow, heldBeside⟩ := Holds.cons_iff.1 held
    have ups : ∀ plant ∈ children, d.parent? plant.root = some id :=
      fun plant inside => heldBelow.parent?_root inside
    have free : ∀ plant ∈ children, ¬ d.Tangled plant.root := fun plant inside tangled =>
      untangled _ List.mem_cons_self (tangled.up (ups plant inside))
    rw [List.map_cons, List.nodup_cons, Plant.root] at distinct
    have belowNodup : (ids children).Nodup := by
      refine inner heldBelow ?_ free ?_
      · have list := consistent.nodup id
        rwa [children_of_node? top] at list
      · intro plant first other second differ below
        rcases below.eq_or_up with same | ⟨above, up, below⟩
        · exact differ same
        · rw [ups other second, Option.some.injEq] at up
          exact not_below_parent (free plant first) (ups plant first) (up ▸ below)
    have besideNodup := beside heldBeside distinct.2
      (fun plant inside => untangled plant (List.mem_cons_of_mem _ inside))
      fun plant first other second =>
        siblings plant (List.mem_cons_of_mem _ first) other (List.mem_cons_of_mem _ second)
    have belowTop : ∀ other ∈ ids children, d.Below id other := fun other inside => by
      obtain ⟨plant, isChild, below⟩ := heldBelow.below_root inside
      exact (Below.step (ups plant isChild) .self).trans below
    -- Ways up from one node meet, so of two siblings above it one would be below the other.
    have apart : ∀ other, d.Below id other → other ∉ ids rest := fun other below inside => by
      obtain ⟨plant, isBeside, above⟩ := heldBeside.below_root inside
      have differ : plant.root ≠ id := fun same =>
        distinct.1 (same ▸ List.mem_map_of_mem isBeside)
      cases below.total above with
      | inl down =>
        exact siblings _ List.mem_cons_self plant (List.mem_cons_of_mem _ isBeside)
          (Ne.symm differ) down
      | inr down =>
        exact siblings plant (List.mem_cons_of_mem _ isBeside) _ List.mem_cons_self differ down
    have topNotBelow : id ∉ ids children := fun inside => by
      obtain ⟨plant, isChild, below⟩ := heldBelow.below_root inside
      exact not_below_parent (free plant isChild) (ups plant isChild) below
    rw [ids, List.cons_append, List.nodup_cons, List.mem_append, List.nodup_append]
    exact ⟨not_or.2 ⟨topNotBelow, apart id .self⟩, belowNodup, besideNodup,
      fun a below b inRest same => apart a (belowTop a below) (same ▸ inRest)⟩

theorem exists_plants_within {rank : NodeId → Nat}
    (ranked : ∀ child parent, ¬ d.Tangled child → d.parent? child = some parent →
      rank parent < rank child) {bound : Nat} (bounded : ∀ id, rank id ≤ bound) (gap : Nat)
    (parent : Option NodeId) (list : List NodeId)
    (placed : ∀ id ∈ list, ∃ node, d.node? id = some node ∧ node.parent = parent)
    (untangled : ∀ id ∈ list, ¬ d.Tangled id) (near : ∀ id ∈ list, bound < rank id + gap) :
    ∃ plants : List Plant, plants.map Plant.root = list ∧ d.Holds parent plants := by
  -- Down the tree ranks grow towards their bound, so the gap shrinks; beside, the list does.
  induction gap generalizing parent list with
  | zero =>
    cases list with
    | nil => exact ⟨[], rfl, .nil⟩
    | cons id rest =>
      have := bounded id
      have := near id List.mem_cons_self
      omega
  | succ gap ih =>
    induction list with
    | nil => exact ⟨[], rfl, .nil⟩
    | cons id rest beside =>
      obtain ⟨⟨kind, up, children⟩, held, same⟩ := placed id List.mem_cons_self
      simp only at same
      subst same
      have below : ∀ child ∈ children, d.parent? child = some id := fun child inside => by
        rw [← consistent.linked, children_of_node? held]
        exact inside
      have free : ∀ child ∈ children, ¬ d.Tangled child := fun child inside tangled =>
        untangled id List.mem_cons_self (tangled.up (below child inside))
      obtain ⟨inner, innerRoots, innerHeld⟩ := ih (some id) children
        (fun child inside => parent?_eq_some.1 (below child inside)) free
        fun child inside => by
          have := ranked child id (free child inside) (below child inside)
          have := near id List.mem_cons_self
          omega
      obtain ⟨others, otherRoots, othersHeld⟩ := beside
        (fun other inside => placed other (List.mem_cons_of_mem _ inside))
        (fun other inside => untangled other (List.mem_cons_of_mem _ inside))
        fun other inside => near other (List.mem_cons_of_mem _ inside)
      refine ⟨.node id kind inner :: others, by simp [Plant.root, otherRoots], ?_⟩
      exact Holds.cons_iff.2 ⟨by rw [innerRoots]; exact held, innerHeld, othersHeld⟩

theorem exists_plant {id : NodeId} (live : d.contains id) (untangled : ¬ d.Tangled id) :
    ∃ plant : Plant, plant.root = id ∧ d.Holds (d.parent? id) [plant] ∧ (ids [plant]).Nodup := by
  obtain ⟨node, held⟩ := contains_iff.1 live
  obtain ⟨rank, bounded, ranked⟩ := d.exists_rank
  obtain ⟨plants, roots, planted⟩ := consistent.exists_plants_within ranked bounded
    (d.slots.size + 1) (d.parent? id) [id] (by simp [parent?, held]) (by simpa using untangled)
    fun _ _ => by omega
  obtain ⟨plant, rfl, same⟩ := List.map_eq_singleton_iff.1 roots
  refine ⟨plant, same, planted, consistent.nodup_ids planted (by simp) ?_ ?_⟩
  · intro other isOther
    rw [List.mem_singleton.1 isOther, same]
    exact untangled
  · intro first isFirst other isOther differ
    rw [List.mem_singleton.1 isFirst, List.mem_singleton.1 isOther] at differ
    exact absurd rfl differ

end Consistent

end LiveList.Document
