import LiveList.Proofs.Document.Containment
import LiveList.Proofs.View.Sketch

namespace LiveList

open Document (Plant Layout)
open Document.Plant (ids)

namespace Document

variable {d₀ d : Document} {top id : NodeId} {old now loose : List Plant}

def Apart (d : Document) (first second : NodeId) : Prop := ∀ id ∈ d.subtree first, id ∉ d.subtree second

theorem Apart.symm {first second : NodeId} (apart : d.Apart first second) : d.Apart second first :=
  fun id inSecond inFirst => apart id inFirst inSecond

theorem Consistent.apart (consistent : d.Consistent) {first second : NodeId}
    (notBelow : ¬ d.Below first second) (notAbove : ¬ d.Below second first) :
    d.Apart first second := by
  intro id inFirst inSecond
  rcases (consistent.below_of_mem_subtree inFirst).total (consistent.below_of_mem_subtree inSecond)
    with below | below
  · exact notBelow below
  · exact notAbove below

theorem holdsRawText_congr {d' : Document} (same : d'.node? id = d.node? id) :
    d'.holdsRawText id = d.holdsRawText id := by
  rw [holdsRawText, holdsRawText, tag?, tag?, kind?, kind?, same]

namespace Layout

/-- A layout minds only what is in its container, and nothing that was laid out before is loose or old
any more. -/
theorem congr (layout : Layout d₀ top old d now []) {d' : Document} (grounded : d'.Grounded)
    (same : ∀ id ∈ d.subtree top, d'.node? id = d.node? id) : Layout d' top now d' now [] := by
  rw [layout.subtree_eq] at same
  obtain ⟨node, -, held⟩ := layout.parent
  have nodup := layout.nodup
  have outside := layout.outside
  have notRoot := layout.notRoot
  rw [List.append_nil] at nodup outside notRoot
  exact .start grounded ((same top List.mem_cons_self).trans held) rfl
    (layout.holds.congr fun id inside => same id (List.mem_cons_of_mem _ inside)) nodup outside notRoot

theorem anew (layout : Layout d₀ top old d now []) : Layout d top now d now [] :=
  layout.congr layout.grounded fun _ _ => rfl

section

variable {other : NodeId} {others : List Plant} (start : Layout d₀ top old d₀ old [])
  (layout : Layout d₀ top old d now []) (side : Layout d₀ other others d₀ others [])
  (apart : d₀.Apart top other)
include start layout side apart

theorem node?_beside (inside : id ∈ d₀.subtree other) : d.node? id = d₀.node? id := by
  refine start.node?_of_beyond layout ⟨?_, fun inTop => apart id inTop inside⟩
  rw [side.subtree_eq, List.mem_cons] at inside
  rcases inside with rfl | inside
  · exact side.live
  · exact side.contains_of_mem (by simpa using inside)

theorem beside : Layout d other others d others [] :=
  side.congr layout.grounded fun _ inside => node?_beside start layout side apart inside

theorem holdsRawText_beside : d.holdsRawText other = d₀.holdsRawText other :=
  holdsRawText_congr (node?_beside start layout side apart (side.subtree_eq ▸ List.mem_cons_self))

theorem apart_beside : d.Apart top other := by
  intro id inTop inOther
  rw [(start.beside layout side apart).subtree_eq, ← side.subtree_eq] at inOther
  refine start.not_mem_of_beyond layout ⟨?_, fun inTop => apart id inTop inOther⟩ inTop
  rw [side.subtree_eq, List.mem_cons] at inOther
  rcases inOther with rfl | inside
  · exact side.live
  · exact side.contains_of_mem (by simpa using inside)

end

theorem holdsRawText_top (layout : Layout d₀ top old d now loose) :
    d.holdsRawText top = d₀.holdsRawText top := by
  obtain ⟨node, before, held⟩ := layout.parent
  rw [holdsRawText, holdsRawText, tag?, tag?, kind?, kind?, before, held]
  rfl

end Layout

end Document

/-- The container is made of the items, and the view remembers for each index those that belong to
it. -/
def ListView.Arranges (view : ListView) (d : Document) (items : Items Plant) : Prop :=
  Arranged d view.container items.content view d items []

namespace ListView.Arranges

variable {view : ListView} {d : Document} {items : Items Plant}

theorem of_layout {old : List Plant} (layout : Layout d view.container old d old [])
    (nodes : view.nodes = []) : view.Arranges d (List.map (none, ·) old) := by
  have whole : Items.content (List.map ((none : Option Nat), ·) old) = old := by
    simp [Items.content]
  refine ⟨rfl, by rwa [whole], fun index => ?_⟩
  rw [nodes]
  simp [Items.of, Items.content, OrderedMap.get?]

theorem of_arranged {d₀ : Document} {above : NodeId} {old : List Plant}
    (arranged : Arranged d₀ above old view d items []) : view.Arranges d items := by
  obtain ⟨rfl, layout, remembered⟩ := arranged
  exact ⟨rfl, layout.anew, remembered⟩

/-- A view minds only what is in its container. -/
theorem congr (arranges : view.Arranges d items) {d' : Document} (grounded : d'.Grounded)
    (same : ∀ id ∈ d.subtree view.container, d'.node? id = d.node? id) : view.Arranges d' items :=
  ⟨rfl, arranges.layout.congr grounded same, arranges.remembered⟩

theorem holdsRawText_congr (arranges : view.Arranges d items) {d' : Document}
    (same : ∀ id ∈ d.subtree view.container, d'.node? id = d.node? id) :
    d'.holdsRawText view.container = d.holdsRawText view.container :=
  Document.holdsRawText_congr (same view.container (arranges.layout.subtree_eq ▸ List.mem_cons_self))

end ListView.Arranges

end LiveList
