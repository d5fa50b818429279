import LiveList.Proofs.Document.Layout
import LiveList.Proofs.Document.Operations

namespace LiveList.Document

open Plant (ids)

def Beyond (d : Document) (top id : NodeId) : Prop := d.contains id ∧ id ∉ d.subtree top

/-- Since the first document only the content of a node was changed. All nodes beyond it are as they
were; each live node is one of them or below the node, and each slot is live or free, and free just
once. So nothing was left behind, and nothing was freed twice. -/
structure Contained (d₀ : Document) (top : NodeId) (d : Document) : Prop where
  beyond : ∀ id, d₀.Beyond top id → d.node? id = d₀.node? id
  kind?_top : d.kind? top = d₀.kind? top
  parent?_top : d.parent? top = d₀.parent? top
  live_iff : ∀ id, d.contains id ↔ d₀.Beyond top id ∨ id ∈ d.subtree top
  apart : ∀ id, d₀.Beyond top id → id ∉ d.subtree top
  once : (d.subtree top).Nodup
  free_nodup : d.free.Nodup
  mem_free : ∀ id, id ∈ d.free ↔ d.slots[id]? = some none
  size_eq : d.size = Set.ncard {id | d₀.Beyond top id} + (d.subtree top).length

variable {d₀ d : Document} {top id : NodeId} {old now loose : List Plant}

namespace Consistent

variable (consistent : d.Consistent)
include consistent

theorem below_of_mem_subtree (inside : id ∈ d.subtree top) : d.Below top id := by
  unfold subtree at inside
  generalize d.slots.size = depth at inside
  induction depth generalizing top with
  | zero => simp [subtreeWithin] at inside
  | succ depth ih =>
    rw [subtreeWithin] at inside
    split at inside
    · simp at inside
    case h_2 node held =>
      rcases List.mem_cons.1 inside with rfl | further
      · exact .self
      · obtain ⟨child, listed, inside⟩ := List.mem_flatMap.1 further
        rw [← children_of_node? held] at listed
        exact (Below.step ((consistent.linked top child).1 listed) .self).trans (ih inside)

theorem contains_of_below (below : d.Below top id) (live : d.contains id) : d.contains top := by
  induction below with
  | self => exact live
  | step up _ ih =>
    exact ih (consistent.contains_parent up)

end Consistent

theorem Tangled.of_below (below : d.Below top id) (lower : d.Below id top) (differ : top ≠ id) :
    d.Tangled id := by
  obtain ⟨above, up, higher⟩ := below.eq_or_up.resolve_left differ
  exact ⟨above, up, lower.trans higher⟩

theorem contains_of_attached (attached : id ∈ d.attachedElements) : d.contains id := by
  have element := (List.mem_filter.1 attached).2
  cases held : d.node? id with
  | none => simp [isElement, tag?, kind?, held] at element
  | some node => simp [contains, held]

theorem Consistent.grounded_of_attached (consistent : d.Consistent)
    (attached : id ∈ d.attachedElements) : d.Grounded :=
  ⟨consistent, consistent.contains_of_below
    (consistent.below_of_mem_subtree (List.mem_filter.1 attached).1) (contains_of_attached attached)⟩

namespace Layout

theorem of_not_above_root (consistent : d.Consistent) (free : ¬ d.Below top root)
    (attached : top ∈ d.attachedElements) : ∃ old, Layout d top old d old [] := by
  have live := contains_of_attached attached
  have below := consistent.below_of_mem_subtree (List.mem_filter.1 attached).1
  obtain ⟨⟨_, kind, old⟩, rfl, held, nodup⟩ :=
    consistent.exists_plant live fun tangled => free (tangled.back below)
  obtain ⟨atTop, holds, -⟩ := Holds.cons_iff.1 held
  simp only [ids, List.append_nil, List.nodup_cons] at nodup
  refine ⟨old, .start (consistent.grounded_of_attached attached) atTop rfl holds nodup.2 nodup.1 ?_⟩
  intro rootInside
  obtain ⟨plant, child, lower⟩ := holds.below_root rootInside
  exact free ((Below.step (holds.parent?_root child) .self).trans lower)

theorem of_attached (consistent : d.Consistent) (untangled : ¬ d.Tangled root)
    (attached : top ∈ d.attachedElements) : ∃ old, Layout d top old d old [] := by
  obtain ⟨inside, element⟩ := List.mem_filter.1 attached
  have differ : root ≠ top := by
    rintro rfl
    simp [isElement] at element
  exact of_not_above_root consistent
    (fun circle => untangled (.of_below circle (consistent.below_of_mem_subtree inside) differ.symm))
    attached

theorem subtree_eq (layout : Layout d₀ top old d now loose) : d.subtree top = top :: ids now := by
  obtain ⟨⟨kind, parent, list⟩, -, held⟩ := layout.parent
  have nodup := layout.nodup
  have outside := layout.outside
  rw [Plant.ids_append] at nodup outside
  have whole : d.Holds parent [.node top kind now] := Holds.cons_iff.2 ⟨held, layout.holds, .nil⟩
  have once : (ids [Plant.node top kind now]).Nodup := by
    simpa [ids] using ⟨fun inside => outside (List.mem_append_left _ inside),
      (List.nodup_append.1 nodup).1⟩
  simpa [ids, Plant.root] using subtree_of_holds whole once

section

variable (start : Layout d₀ top old d₀ old []) (layout : Layout d₀ top old d now [])

include start in
theorem beyond_iff : d₀.Beyond top id ↔ d₀.contains id ∧ id ≠ top ∧ id ∉ ids old := by
  rw [Beyond, start.subtree_eq, List.mem_cons, not_or]

include start layout

theorem not_mem_of_beyond (beyond : d₀.Beyond top id) : id ∉ d.subtree top := by
  obtain ⟨live, differ, notOld⟩ := start.beyond_iff.1 beyond
  rw [layout.subtree_eq, List.mem_cons, not_or]
  refine ⟨differ, fun inside => ?_⟩
  have fresh := (layout.within id (by simpa using inside)).resolve_left notOld
  simp [contains, fresh] at live

theorem node?_of_beyond (beyond : d₀.Beyond top id) : d.node? id = d₀.node? id := by
  obtain ⟨-, differ, notOld⟩ := start.beyond_iff.1 beyond
  have notNow := start.not_mem_of_beyond layout beyond
  rw [layout.subtree_eq, List.mem_cons, not_or] at notNow
  exact layout.elsewhere id differ notOld (by simpa using notNow.2)

theorem contains_iff_beyond : d.contains id ↔ d₀.Beyond top id ∨ id ∈ d.subtree top := by
  constructor
  · intro live
    by_cases inside : id ∈ d.subtree top
    · exact .inr inside
    · rw [layout.subtree_eq, List.mem_cons, not_or] at inside
      have notNow : id ∉ ids (now ++ []) := by simpa using inside.2
      have notOld : id ∉ ids old := fun inOld => by
        simp [contains, layout.freed id inOld notNow] at live
      refine .inl (start.beyond_iff.2 ⟨?_, inside.1, notOld⟩)
      rwa [contains, ← layout.elsewhere id inside.1 notOld notNow]
  · rintro (beyond | inside)
    · rw [contains, start.node?_of_beyond layout beyond]
      exact beyond.1
    · rw [layout.subtree_eq, List.mem_cons] at inside
      rcases inside with rfl | inside
      · exact layout.live
      · exact layout.contains_of_mem (by simpa using inside)

theorem contained : Contained d₀ top d := by
  have tidy := layout.grounded.consistent.tidy
  have once : (d.subtree top).Nodup := by
    rw [layout.subtree_eq, List.nodup_cons]
    simpa using And.intro layout.outside layout.nodup
  have live : {id | d.contains id} = {id | d₀.Beyond top id} ∪ (d.subtree top).toFinset := by
    ext id
    simp [start.contains_iff_beyond layout]
  have finite : {id | d₀.Beyond top id}.Finite :=
    d.live.toFinset.finite_toSet.subset fun id beyond => by
      simpa [mem_live] using (start.contains_iff_beyond layout).2 (.inl beyond)
  have disjoint : Disjoint {id | d₀.Beyond top id} ((d.subtree top).toFinset : Set NodeId) :=
    Set.disjoint_left.2 fun id beyond inside =>
      start.not_mem_of_beyond layout beyond (by simpa using inside)
  obtain ⟨node, before, held⟩ := layout.parent
  refine ⟨fun _ => start.node?_of_beyond layout, by simp [kind?, before, held, Node.withChildren],
    layout.parent?_above, fun _ => start.contains_iff_beyond layout,
    fun _ => start.not_mem_of_beyond layout, once, tidy.nodup, fun _ => tidy.mem_free_iff, ?_⟩
  rw [tidy.size_eq, live, Set.ncard_union_eq disjoint finite (Finset.finite_toSet _),
    Set.ncard_coe_finset, List.toFinset_card_of_nodup once]

end

end Layout

end LiveList.Document
