import LiveList.Document.Edit
import Mathlib.Data.List.Nodup

namespace LiveList.Document

structure Tidy (d : Document) : Prop where
  nodup : d.free.Nodup
  mem_free : ∀ id, id ∈ d.free ↔ id < d.slots.size ∧ d.node? id = none

/-- Two documents hold the same nodes; their free slots may be in another order. -/
def SameNodes (d d' : Document) : Prop := ∀ id, d'.node? id = d.node? id

variable {d : Document} {id other parent child : NodeId}

theorem lt_size_of_node? {node : Node} (live : d.node? id = some node) : id < d.slots.size := by
  by_contra outside
  simp [node?, Array.getElem?_eq_none (Nat.not_lt.1 outside)] at live

theorem contains_iff : d.contains id = true ↔ ∃ node, d.node? id = some node :=
  Option.isSome_iff_exists

theorem parent?_eq_some {p : NodeId} :
    d.parent? id = some p ↔ ∃ node, d.node? id = some node ∧ node.parent = some p := by
  simp [parent?, Option.bind_eq_some_iff]

theorem children_eq (d : Document) (id : NodeId) :
    d.children id = ((d.node? id).map Node.children).getD [] := by
  unfold children
  cases d.node? id <;> rfl

theorem children_of_node? {node : Node} (live : d.node? id = some node) :
    d.children id = node.children := by
  simp [children, live]

theorem mem_children {c : NodeId} :
    c ∈ d.children id ↔ ∃ node, d.node? id = some node ∧ c ∈ node.children := by
  unfold children
  cases d.node? id <;> simp

theorem node?_create_of_dead (tidy : d.Tidy) (kind : Kind) :
    d.node? (d.create kind).2 = none := by
  unfold create
  split
  case h_1 slot free atFront =>
    have inFree : slot ∈ d.free := by simp [atFront]
    exact ((tidy.mem_free slot).1 inFree).2
  case h_2 => simp [node?]

theorem node?_create (tidy : d.Tidy) (kind : Kind) (id : NodeId) :
    (d.create kind).1.node? id =
      if id = (d.create kind).2 then some ⟨kind, none, []⟩ else d.node? id := by
  unfold create
  split
  case h_1 slot free atFront =>
    have inFree : slot ∈ d.free := by simp [atFront]
    have inside := ((tidy.mem_free slot).1 inFree).1
    by_cases same : id = slot
    · subst same
      simp [node?, inside]
    · simp [node?, same, Array.getElem?_setIfInBounds_ne (Ne.symm same)]
  case h_2 =>
    by_cases same : id = d.slots.size
    · simp [node?, same]
    · simp [node?, Array.getElem?_push, same]

theorem parent?_create (tidy : d.Tidy) (kind : Kind) (id : NodeId) :
    (d.create kind).1.parent? id = d.parent? id := by
  rw [parent?, parent?, node?_create tidy]
  split
  case isTrue same => simp [same, node?_create_of_dead tidy kind]
  case isFalse => rfl

theorem children_create (tidy : d.Tidy) (kind : Kind) (id : NodeId) :
    (d.create kind).1.children id = d.children id := by
  rw [children_eq, children_eq, node?_create tidy]
  split
  case isTrue same => simp [same, node?_create_of_dead tidy kind]
  case isFalse => rfl

theorem Tidy.create (tidy : d.Tidy) (kind : Kind) : (d.create kind).1.Tidy := by
  have slots := node?_create tidy kind
  revert slots
  unfold Document.create
  split
  case h_1 slot free atFront =>
    intro slots
    have nodup : (slot :: free).Nodup := atFront ▸ tidy.nodup
    refine ⟨(List.nodup_cons.1 nodup).2, ?_⟩
    intro id
    have mem := tidy.mem_free id
    rw [slots id]
    simp only [atFront, List.mem_cons] at mem
    by_cases same : id = slot
    · subst same
      simpa using (List.nodup_cons.1 nodup).1
    · simpa [same] using mem
  case h_2 none =>
    intro slots
    refine ⟨List.nodup_nil, ?_⟩
    intro id
    have mem := tidy.mem_free id
    rw [slots id]
    simp only [none, List.not_mem_nil, false_iff, not_and] at mem ⊢
    intro inside
    by_cases same : id = d.slots.size
    · simp [same]
    · have below : id < d.slots.size + 1 := by simpa using inside
      simpa [same] using mem (Nat.lt_of_le_of_ne (Nat.lt_succ_iff.1 below) same)

theorem node?_eq_none_modify (f : Node → Node) :
    (d.modify id f).node? other = none ↔ d.node? other = none := by
  rw [node?_modify]
  split <;> simp

theorem contains_modify (f : Node → Node) : (d.modify id f).contains other = d.contains other := by
  rw [contains, contains, node?_modify]
  split <;> simp

theorem parent?_modify (f : Node → Node) (keeps : ∀ node, (f node).parent = node.parent) :
    (d.modify id f).parent? other = d.parent? other := by
  rw [parent?, parent?, node?_modify]
  split <;> cases d.node? other <;> simp [keeps]

theorem children_modify (f : Node → Node) (keeps : ∀ node, (f node).children = node.children) :
    (d.modify id f).children other = d.children other := by
  rw [children_eq, children_eq, node?_modify]
  split <;> cases d.node? other <;> simp [keeps]

theorem parent?_modifyChildren (f : List NodeId → List NodeId) :
    (d.modifyChildren id f).parent? other = d.parent? other :=
  parent?_modify _ fun _ => rfl

theorem children_setParent (p : Option NodeId) :
    (d.setParent id p).children other = d.children other :=
  children_modify _ fun _ => rfl

theorem parent?_setParent (p : Option NodeId) :
    (d.setParent id p).parent? other =
      if id = other then (d.node? other).bind fun _ => p else d.parent? other := by
  rw [parent?, parent?, setParent, node?_modify]
  split <;> cases d.node? other <;> rfl

theorem children_modifyChildren (f : List NodeId → List NodeId) :
    (d.modifyChildren id f).children other =
      if id = other then ((d.node? other).map fun node => f node.children).getD []
      else d.children other := by
  rw [children_eq, children_eq, modifyChildren, node?_modify]
  split <;> cases d.node? other <;> rfl

theorem Tidy.modify (tidy : d.Tidy) (id : NodeId) (f : Node → Node) : (d.modify id f).Tidy := by
  refine ⟨tidy.nodup, ?_⟩
  intro other
  rw [node?_eq_none_modify]
  simpa [Document.modify] using tidy.mem_free other

theorem Tidy.release (tidy : d.Tidy) (live : d.contains id) : (d.release id).Tidy := by
  obtain ⟨node, held⟩ := contains_iff.1 live
  have inside := lt_size_of_node? held
  refine ⟨List.nodup_cons.2 ⟨?_, tidy.nodup⟩, ?_⟩
  · intro inFree
    simp [((tidy.mem_free id).1 inFree).2] at held
  · intro other
    rw [node?_release]
    by_cases same : id = other
    · subst same
      simpa [Document.release] using inside
    · simpa [Document.release, same, Ne.symm same] using tidy.mem_free other

theorem node?_modifyChildren (f : List NodeId → List NodeId) :
    (d.modifyChildren id f).node? other =
      if id = other then (d.node? other).map fun n => { n with children := f n.children }
      else d.node? other :=
  node?_modify d id other _

theorem node?_setParent (p : Option NodeId) :
    (d.setParent id p).node? other =
      if id = other then (d.node? other).map fun n => { n with parent := p }
      else d.node? other :=
  node?_modify d id other _

theorem detach_of_parent?_none (alone : d.parent? id = none) : d.detach id = d := by
  simp [detach, alone]

theorem parent?_detach (d : Document) (id other : NodeId) :
    (d.detach id).parent? other = if other = id then none else d.parent? other := by
  unfold Document.detach
  split
  case h_1 alone =>
    split
    case isTrue same => rw [same, alone]
    case isFalse => rfl
  case h_2 parent up =>
    rw [parent?_setParent, parent?_modifyChildren]
    by_cases same : other = id
    · subst same
      simp
    · simp [same, Ne.symm same]

theorem contains_detach : (d.detach id).contains other = d.contains other := by
  unfold detach
  split
  · rfl
  · simp [setParent, modifyChildren, contains_modify]

theorem Tidy.detach (tidy : d.Tidy) (id : NodeId) : (d.detach id).Tidy := by
  unfold Document.detach
  split
  · exact tidy
  · exact (tidy.modify _ _).modify _ _

theorem contains_attach (place : List NodeId → List NodeId) :
    (d.attach parent child place).contains other = d.contains other := by
  simp [attach, setParent, modifyChildren, contains_modify, contains_detach]

theorem Tidy.attach (tidy : d.Tidy) (parent child : NodeId) (place : List NodeId → List NodeId) :
    (d.attach parent child place).Tidy :=
  ((tidy.detach child).modify _ _).modify _ _

theorem attach_detach (place : List NodeId → List NodeId) :
    (d.detach child).attach parent child place = d.attach parent child place := by
  have again : (d.detach child).detach child = d.detach child :=
    detach_of_parent?_none (by simp [parent?_detach])
  rw [attach, again, attach]

theorem parent?_attach (alone : d.parent? child = none) (live : d.contains child)
    (place : List NodeId → List NodeId) (id : NodeId) :
    (d.attach parent child place).parent? id =
      if id = child then some parent else d.parent? id := by
  rw [Document.attach, detach_of_parent?_none alone, parent?_setParent, parent?_modifyChildren]
  by_cases atChild : id = child
  · subst atChild
    have moved : (d.modifyChildren parent place).contains id := by
      rw [modifyChildren, contains_modify]
      exact live
    obtain ⟨node, held⟩ := contains_iff.1 moved
    simp [held]
  · simp [atChild, Ne.symm atChild]

theorem parent?_attach_of_ne (differ : id ≠ child) (place : List NodeId → List NodeId) :
    (d.attach parent child place).parent? id = d.parent? id := by
  rw [Document.attach, parent?_setParent, if_neg (Ne.symm differ), parent?_modifyChildren,
    parent?_detach, if_neg differ]

theorem children_attach (alone : d.parent? child = none) (live : d.contains parent)
    (place : List NodeId → List NodeId) (id : NodeId) :
    (d.attach parent child place).children id =
      if id = parent then place (d.children parent) else d.children id := by
  rw [Document.attach, detach_of_parent?_none alone, children_setParent, children_modifyChildren]
  by_cases atParent : id = parent
  · subst atParent
    obtain ⟨node, held⟩ := contains_iff.1 live
    simp [held, children]
  · simp [atParent, Ne.symm atParent]

theorem node?_attach_of_parent?_none (alone : d.parent? child = none) (distinct : parent ≠ child)
    (place : List NodeId → List NodeId) (other : NodeId) :
    (d.attach parent child place).node? other =
      if other = child then (d.node? child).map fun n => { n with parent := some parent }
      else if other = parent then
        (d.node? parent).map fun n => { n with children := place n.children }
      else d.node? other := by
  rw [attach, detach_of_parent?_none alone, node?_setParent, node?_modifyChildren]
  by_cases atChild : other = child
  · subst atChild
    simp [distinct]
  · by_cases atParent : other = parent
    · subst atParent
      simp [atChild, Ne.symm atChild]
    · simp [atChild, atParent, Ne.symm atChild, Ne.symm atParent]

theorem Tidy.modifyAttributes (tidy : d.Tidy) (id : NodeId)
    (f : Markup.Attributes → Markup.Attributes) : (d.modifyAttributes id f).Tidy :=
  tidy.modify id _

theorem parent?_modifyAttributes (f : Markup.Attributes → Markup.Attributes) :
    (d.modifyAttributes id f).parent? other = d.parent? other :=
  parent?_modify _ fun node => by cases h : node.kind <;> rfl

theorem children_modifyAttributes (f : Markup.Attributes → Markup.Attributes) :
    (d.modifyAttributes id f).children other = d.children other :=
  children_modify _ fun node => by cases h : node.kind <;> rfl

end LiveList.Document
