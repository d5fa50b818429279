import LiveList.Proofs.Document.Slots
import Mathlib.Data.Finset.Card
import Mathlib.Data.Finset.Range

/-!
# Coherent documents

A document is consistent if it is tidy and parents and child lists agree, and coherent if moreover
no node stands below itself. Nothing is said of the root: it may be moved below another node, and be
freed with it. Main statements: creating, detaching, attaching and changing attributes keep a
document consistent, and coherent too where nothing is attached below itself.
-/

namespace LiveList.Document

/-- What every document satisfies, also one in which nodes were attached below themselves. -/
structure Consistent (d : Document) : Prop where
  tidy : d.Tidy
  linked : ∀ parent child, child ∈ d.children parent ↔ d.parent? child = some parent
  nodup : ∀ id, (d.children id).Nodup

/-- What every document satisfies in which no node was ever attached below itself. -/
structure Coherent (d : Document) : Prop extends d.Consistent where
  ranked : ∃ rank : NodeId → Nat, ∀ child parent, d.parent? child = some parent →
    rank parent < rank child

inductive Below (d : Document) (top : NodeId) : NodeId → Prop
  | self : Below d top top
  | step {child parent : NodeId} : d.parent? child = some parent → Below d top parent →
      Below d top child

variable {d d' : Document} {id parent child top : NodeId}

theorem Below.rank_le {rank : NodeId → Nat}
    (ranked : ∀ child parent, d.parent? child = some parent → rank parent < rank child)
    (below : d.Below parent child) : rank parent ≤ rank child := by
  induction below with
  | self => exact Nat.le_refl _
  | step up _ ih => exact Nat.le_of_lt (Nat.lt_of_le_of_lt ih (ranked _ _ up))

theorem Below.trans {middle bottom : NodeId} (upper : d.Below top middle)
    (lower : d.Below middle bottom) : d.Below top bottom := by
  induction lower with
  | self => exact upper
  | step up _ ih => exact .step up ih

theorem Below.eq_or_up (below : d.Below parent child) :
    parent = child ∨ ∃ above, d.parent? child = some above ∧ d.Below parent above := by
  cases below with
  | self => exact .inl rfl
  | step up above => exact .inr ⟨_, up, above⟩

theorem Below.total {first second : NodeId} (left : d.Below first id) (right : d.Below second id) :
    d.Below first second ∨ d.Below second first := by
  induction left with
  | self => exact .inr right
  | step up _ ih =>
    cases right with
    | self => exact .inl (.step up (by assumption))
    | step up' above =>
      rw [up] at up'
      cases up'
      exact ih above

theorem Below.eq_of_parent?_none (below : d.Below parent child) (alone : d.parent? child = none) :
    parent = child := by
  cases below with
  | self => rfl
  | step up _ => simp [up] at alone

theorem below_detach (acyclic : ¬ d.Below child parent) :
    ¬ (d.detach child).Below child parent := by
  intro below
  apply acyclic
  clear acyclic
  induction below with
  | self => exact .self
  | step up _ ih =>
    rw [parent?_detach] at up
    split at up
    · simp at up
    · exact .step up ih

/-! ## Nodes below themselves -/

/-- Going up from the node leads back to it. -/
def Tangled (d : Document) (id : NodeId) : Prop :=
  ∃ parent, d.parent? id = some parent ∧ d.Below id parent

theorem not_below_parent (untangled : ¬ d.Tangled child) (up : d.parent? child = some parent) :
    ¬ d.Below child parent := fun below => untangled ⟨parent, up, below⟩

theorem Tangled.up (tangled : d.Tangled child) (up : d.parent? child = some parent) :
    d.Tangled parent := by
  obtain ⟨above, same, below⟩ := tangled
  obtain rfl : parent = above := Option.some.inj (up.symm.trans same)
  rcases below.eq_or_up with rfl | ⟨above, higher, below⟩
  · exact ⟨_, up, .self⟩
  · exact ⟨above, higher, (Below.step up .self).trans below⟩

theorem Tangled.above (tangled : d.Tangled id) (below : d.Below top id) : d.Tangled top := by
  -- A way up that comes to a circle stays on it, so it began there if it ends there.
  induction below with
  | self => exact tangled
  | step up _ ih => exact ih (tangled.up up)

theorem Tangled.back (tangled : d.Tangled id) (below : d.Below top id) : d.Below id top := by
  induction below with
  | self => exact .self
  | step up _ ih =>
    obtain ⟨above, same, back⟩ := tangled
    cases up.symm.trans same
    exact back.trans (ih (Tangled.up ⟨_, same, back⟩ same))

/-- The nodes that a node is below rank it, and grow by the node with each step down. -/
theorem exists_rank (d : Document) : ∃ rank : NodeId → Nat, (∀ id, rank id ≤ d.slots.size) ∧
    ∀ child parent, ¬ d.Tangled child → d.parent? child = some parent →
      rank parent < rank child := by
  classical
  refine ⟨fun id => ((Finset.range d.slots.size).filter (d.Below · id)).card, ?_, ?_⟩
  · intro id
    exact (Finset.card_filter_le _ _).trans (Finset.card_range _).le
  · intro child parent untangled up
    apply Finset.card_lt_card
    rw [Finset.ssubset_iff_of_subset]
    · obtain ⟨node, held, -⟩ := parent?_eq_some.1 up
      refine ⟨child, ?_, ?_⟩
      · simpa using And.intro (lt_size_of_node? held) Below.self
      · simpa using fun _ => not_below_parent untangled up
    · intro above inside
      rw [Finset.mem_filter] at inside ⊢
      exact ⟨inside.1, .step up inside.2⟩

/-- Nodes are set down in a document without circles, and none of them on a circle of their own:
there is no circle. -/
theorem untangled_of_region (region : NodeId → Prop) (untangled : ∀ id, ¬ d.Tangled id)
    (around : ∀ child parent, ¬ region child → d'.parent? child = some parent →
      ¬ region parent ∧ d.parent? child = some parent)
    (within : ∀ id, region id → ∃ top, d'.Below top id ∧
      ∀ parent, d'.parent? top = some parent → ¬ region parent) :
    ¬ d'.Tangled id := by
  have outside : ∀ id, ¬ region id → ¬ d'.Tangled id := by
    rintro id out ⟨parent, up, below⟩
    obtain ⟨outParent, was⟩ := around id parent out up
    refine untangled id ⟨parent, was, ?_⟩
    clear up was
    induction below with
    | self => exact .self
    | step up _ ih =>
      obtain ⟨outAbove, was⟩ := around _ _ outParent up
      exact .step was (ih outAbove)
  intro tangled
  by_cases inside : region id
  · obtain ⟨top, below, free⟩ := within id inside
    have higher := tangled.above below
    have ⟨parent, up, _⟩ := higher
    exact outside parent (free parent up) (higher.up up)
  · exact outside id inside tangled

theorem insertBeforeIn_perm (reference child : NodeId) (list : List NodeId) :
    (insertBeforeIn reference child list).Perm (child :: list) := by
  induction list with
  | nil => exact .refl _
  | cons first rest ih =>
    rw [insertBeforeIn]
    split
    · exact .refl _
    · exact (ih.cons first).trans (.swap ..)

theorem append_singleton_perm (child : NodeId) (list : List NodeId) :
    (list ++ [child]).Perm (child :: list) :=
  List.perm_append_comm

theorem filter_ne_of_not_mem {list : List NodeId} (absent : child ∉ list) :
    list.filter (· ≠ child) = list := by
  rw [List.filter_eq_self]
  intro other inside
  rw [decide_eq_true_eq]
  rintro rfl
  exact absent inside

namespace Consistent

variable (consistent : d.Consistent)
include consistent

theorem contains_parent (up : d.parent? child = some parent) : d.contains parent := by
  obtain ⟨node, held, -⟩ := mem_children.1 ((consistent.linked parent child).2 up)
  exact contains_iff.2 ⟨node, held⟩

theorem filter_children_of_apart (apart : d.parent? child ≠ some id) :
    (d.children id).filter (· ≠ child) = d.children id :=
  filter_ne_of_not_mem fun inside => apart ((consistent.linked id child).1 inside)

theorem of_links (tidy : d'.Tidy) (parents : ∀ id, d'.parent? id = d.parent? id)
    (lists : ∀ id, d'.children id = d.children id) : d'.Consistent where
  tidy := tidy
  linked := fun parent child => by rw [lists, parents, consistent.linked]
  nodup := fun id => by rw [lists]; exact consistent.nodup id

theorem create (kind : Kind) : (d.create kind).1.Consistent :=
  consistent.of_links (consistent.tidy.create kind) (parent?_create consistent.tidy kind)
    (children_create consistent.tidy kind)

theorem modifyAttributes (id : NodeId) (f : Markup.Attributes → Markup.Attributes) :
    (d.modifyAttributes id f).Consistent :=
  consistent.of_links (consistent.tidy.modifyAttributes id f)
    (fun _ => parent?_modifyAttributes f) fun _ => children_modifyAttributes f

theorem children_detach (id other : NodeId) :
    (d.detach id).children other = (d.children other).filter (· ≠ id) := by
  unfold Document.detach
  split
  case h_1 alone => rw [consistent.filter_children_of_apart (by simp [alone])]
  case h_2 parent up =>
    rw [children_setParent, children_modifyChildren]
    split
    case isTrue same =>
      subst same
      rw [children_eq]
      cases d.node? parent <;> rfl
    case isFalse differs =>
      rw [consistent.filter_children_of_apart (by simpa [up] using differs)]

theorem detach (id : NodeId) : (d.detach id).Consistent where
  tidy := consistent.tidy.detach id
  linked := fun parent child => by
    rw [parent?_detach, consistent.children_detach, List.mem_filter, consistent.linked]
    by_cases same : child = id <;> simp [same]
  nodup := fun other => by
    rw [consistent.children_detach]
    exact (consistent.nodup other).filter _

theorem attach_alone (alone : d.parent? child = none) (childLive : d.contains child)
    (parentLive : d.contains parent) {place : List NodeId → List NodeId}
    (perm : (place (d.children parent)).Perm (child :: d.children parent)) :
    (d.attach parent child place).Consistent := by
  have parents : ∀ id, (d.attach parent child place).parent? id =
      if id = child then some parent else d.parent? id := parent?_attach alone childLive place
  have lists := children_attach alone parentLive place
  have notYet : child ∉ d.children parent := fun inside => by
    simp [(consistent.linked parent child).1 inside] at alone
  refine ⟨consistent.tidy.attach parent child place, ?_, ?_⟩
  · intro p c
    rw [lists, parents]
    by_cases atParent : p = parent
    · subst atParent
      rw [if_pos rfl, perm.mem_iff, List.mem_cons, consistent.linked]
      by_cases atChild : c = child <;> simp [atChild]
    · rw [if_neg atParent, consistent.linked]
      by_cases atChild : c = child
      · subst atChild
        simp [alone, Ne.symm atParent]
      · simp [atChild]
  · intro id
    rw [lists]
    split
    · exact perm.nodup_iff.2 (List.nodup_cons.2 ⟨notYet, consistent.nodup parent⟩)
    · exact consistent.nodup id

theorem attach (childLive : d.contains child) (parentLive : d.contains parent)
    {place : List NodeId → List NodeId}
    (perm : ∀ list, child ∉ list → (place list).Perm (child :: list)) :
    (d.attach parent child place).Consistent := by
  rw [← attach_detach]
  refine (consistent.detach child).attach_alone (by simp [parent?_detach])
    (by rwa [contains_detach]) (by rwa [contains_detach]) (perm _ ?_)
  simp [consistent.children_detach]

theorem appendChild (parent child : NodeId) : (d.appendChild parent child).Consistent := by
  unfold Document.appendChild
  split
  · exact consistent
  case isFalse attaches =>
    obtain ⟨⟨-, parentLive⟩, childLive⟩ :
        (parent ≠ child ∧ d.contains parent) ∧ d.contains child := by simpa using attaches
    exact consistent.attach childLive parentLive fun list _ => append_singleton_perm child list

end Consistent

namespace Coherent

variable (coherent : d.Coherent)
include coherent

theorem untangled (id : NodeId) : ¬ d.Tangled id := by
  obtain ⟨rank, ranked⟩ := coherent.ranked
  rintro ⟨parent, up, below⟩
  exact Nat.lt_irrefl _ (Nat.lt_of_le_of_lt (below.rank_le ranked) (ranked _ _ up))

theorem of_parents (consistent : d'.Consistent)
    (kept : ∀ child parent, d'.parent? child = some parent → d.parent? child = some parent) :
    d'.Coherent where
  toConsistent := consistent
  ranked :=
    have ⟨rank, ranked⟩ := coherent.ranked
    ⟨rank, fun child parent up => ranked child parent (kept child parent up)⟩

theorem create (kind : Kind) : (d.create kind).1.Coherent :=
  coherent.of_parents (coherent.toConsistent.create kind) fun child parent up => by
    rwa [parent?_create coherent.tidy] at up

theorem modifyAttributes (id : NodeId) (f : Markup.Attributes → Markup.Attributes) :
    (d.modifyAttributes id f).Coherent :=
  coherent.of_parents (coherent.toConsistent.modifyAttributes id f) fun child parent up => by
    rwa [parent?_modifyAttributes] at up

theorem detach (id : NodeId) : (d.detach id).Coherent := by
  refine coherent.of_parents (coherent.toConsistent.detach id) ?_
  intro child parent up
  rw [parent?_detach] at up
  split at up
  · simp at up
  · exact up

/-! ## Attaching -/

theorem attach_alone (alone : d.parent? child = none) (childLive : d.contains child)
    (parentLive : d.contains parent) (acyclic : ¬ d.Below child parent)
    {place : List NodeId → List NodeId}
    (perm : (place (d.children parent)).Perm (child :: d.children parent)) :
    (d.attach parent child place).Coherent := by
  have parents : ∀ id, (d.attach parent child place).parent? id =
      if id = child then some parent else d.parent? id := parent?_attach alone childLive place
  refine ⟨coherent.toConsistent.attach_alone alone childLive parentLive perm, ?_⟩
  classical
  obtain ⟨rank, ranked⟩ := coherent.ranked
  refine ⟨fun id => if d.Below child id then rank id + rank parent + 1 else rank id, ?_⟩
  intro c p up
  rw [parents] at up
  by_cases atChild : c = child
  · subst atChild
    rw [if_pos rfl, Option.some.injEq] at up
    subst up
    simp only [if_neg acyclic, if_pos (Below.self : d.Below c c)]
    omega
  · rw [if_neg atChild] at up
    have lower := ranked c p up
    have together : d.Below child c ↔ d.Below child p := by
      refine ⟨?_, fun below => .step up below⟩
      intro below
      cases below with
      | self => exact absurd rfl atChild
      | step up' above =>
        rw [up] at up'
        cases up'
        exact above
    simp only [together]
    split <;> omega

theorem attach (childLive : d.contains child) (parentLive : d.contains parent)
    (acyclic : ¬ d.Below child parent)
    {place : List NodeId → List NodeId}
    (perm : ∀ list, child ∉ list → (place list).Perm (child :: list)) :
    (d.attach parent child place).Coherent := by
  rw [← attach_detach]
  refine (coherent.detach child).attach_alone (by simp [parent?_detach])
    (by rwa [contains_detach]) (by rwa [contains_detach]) (below_detach acyclic) (perm _ ?_)
  simp [coherent.children_detach]

theorem appendChild (acyclic : parent ≠ child → d.contains parent → d.contains child →
    ¬ d.Below child parent) : (d.appendChild parent child).Coherent := by
  unfold Document.appendChild
  split
  · exact coherent
  case isFalse attaches =>
    obtain ⟨⟨differ, parentLive⟩, childLive⟩ :
        (parent ≠ child ∧ d.contains parent) ∧ d.contains child := by simpa using attaches
    exact coherent.attach childLive parentLive (acyclic differ parentLive childLive) fun list _ =>
      append_singleton_perm child list

theorem prependChild (acyclic : parent ≠ child → d.contains parent → d.contains child →
    ¬ d.Below child parent) : (d.prependChild parent child).Coherent := by
  unfold Document.prependChild
  split
  · exact coherent
  case isFalse attaches =>
    obtain ⟨⟨differ, parentLive⟩, childLive⟩ :
        (parent ≠ child ∧ d.contains parent) ∧ d.contains child := by simpa using attaches
    exact coherent.attach childLive parentLive (acyclic differ parentLive childLive) fun _ _ =>
      .refl _

theorem insertBefore {reference : NodeId} (acyclic : reference ≠ child → d.contains child →
    ∀ parent, d.parent? reference = some parent → ¬ d.Below child parent) :
    (d.insertBefore reference child).1.Coherent := by
  unfold Document.insertBefore
  split
  · exact coherent
  case isFalse attaches =>
    obtain ⟨differ, childLive⟩ : reference ≠ child ∧ d.contains child := by simpa using attaches
    split
    · exact coherent
    case h_2 parent up =>
      dsimp only
      split
      case isTrue parentLive =>
        rw [contains_detach] at parentLive
        exact coherent.attach childLive parentLive (acyclic differ childLive parent up) fun list _ =>
          insertBeforeIn_perm reference child list
      case isFalse => exact coherent.detach child

theorem not_below_of_childless (childless : d.children child = []) (differ : parent ≠ child) :
    ¬ d.Below child parent := by
  intro below
  have up : ∀ {id}, d.Below child id → id = child := by
    intro id below
    induction below with
    | self => rfl
    | step up _ same =>
      subst same
      have listed := (coherent.linked _ _).2 up
      simp [childless] at listed
  exact differ (up below)

end Coherent

theorem node?_empty (id : NodeId) :
    empty.node? id = if id = root then some ⟨.element rootTag [], none, []⟩ else none := by
  cases id with
  | zero => rfl
  | succ id => simp [empty, node?, root]

theorem empty_coherent : empty.Coherent := by
  refine ⟨⟨⟨List.nodup_nil, ?_⟩, ?_, ?_⟩, ⟨fun _ => 0, ?_⟩⟩
  · intro id
    rw [node?_empty]
    by_cases atRoot : id = root
    · simp [atRoot, empty]
    · have : ¬ id < 1 := fun inside => atRoot (Nat.lt_one_iff.1 inside)
      simp [empty, this]
  · intro parent child
    by_cases atParent : parent = root <;> by_cases atChild : child = root <;>
      simp [children, parent?, node?_empty, atParent, atChild]
  · intro id
    by_cases atRoot : id = root <;> simp [children, node?_empty, atRoot]
  · intro child parent up
    by_cases atChild : child = root <;> simp [parent?, node?_empty, atChild] at up

end LiveList.Document
