import LiveList.Proofs.Document.Coherent

namespace LiveList.Document

structure Grounded (d : Document) : Prop where
  consistent : d.Consistent
  rootLive : d.contains root

/-- What every document satisfies in which the root was never moved or removed either. -/
structure WellFormed (d : Document) : Prop where
  tidy : d.Tidy
  rootLive : d.contains root
  rootAlone : d.parent? root = none
  linked : ∀ parent child, child ∈ d.children parent ↔ d.parent? child = some parent
  nodup : ∀ id, (d.children id).Nodup
  ranked : ∃ rank : NodeId → Nat, ∀ child parent, d.parent? child = some parent →
    rank parent < rank child

variable {d d' : Document} {id : NodeId}

namespace Grounded

theorem root_ne_of_dead (grounded : d.Grounded) (dead : d.node? id = none) : id ≠ root := by
  rintro rfl
  have live := grounded.rootLive
  simp [contains, dead] at live

theorem create (grounded : d.Grounded) (kind : Kind) : (d.create kind).1.Grounded := by
  have dead := node?_create_of_dead grounded.consistent.tidy kind
  refine ⟨grounded.consistent.create kind, ?_⟩
  rw [contains, node?_create grounded.consistent.tidy,
    if_neg (grounded.root_ne_of_dead dead).symm]
  exact grounded.rootLive

theorem modifyAttributes (grounded : d.Grounded) (id : NodeId)
    (f : Markup.Attributes → Markup.Attributes) : (d.modifyAttributes id f).Grounded :=
  ⟨grounded.consistent.modifyAttributes id f, (contains_modify _).trans grounded.rootLive⟩

theorem detach (grounded : d.Grounded) (id : NodeId) : (d.detach id).Grounded :=
  ⟨grounded.consistent.detach id, contains_detach.trans grounded.rootLive⟩

end Grounded

namespace WellFormed

theorem coherent (wf : d.WellFormed) : d.Coherent :=
  ⟨⟨wf.tidy, wf.linked, wf.nodup⟩, wf.ranked⟩

theorem grounded (wf : d.WellFormed) : d.Grounded := ⟨wf.coherent.toConsistent, wf.rootLive⟩

theorem of_root (wf : d.WellFormed) (grounded : d'.Grounded) (untangled : ∀ id, ¬ d'.Tangled id)
    (same : d'.parent? root = d.parent? root) : d'.WellFormed :=
  let ⟨⟨tidy, linked, nodup⟩, rootLive⟩ := grounded
  let ⟨rank, _, ranked⟩ := d'.exists_rank
  ⟨tidy, rootLive, same.trans wf.rootAlone, linked, nodup, rank,
    fun child parent => ranked child parent (untangled child)⟩

theorem of_sameNodes (wf : d.WellFormed) (grounded : d'.Grounded) (same : d.SameNodes d') :
    d'.WellFormed := by
  have parents (id : NodeId) : d'.parent? id = d.parent? id := by rw [parent?, same, parent?]
  refine wf.of_root grounded (wf.coherent.of_parents grounded.consistent ?_).untangled
    (parents root)
  intro child parent up
  rwa [parents] at up

end WellFormed

theorem empty_wellFormed : empty.WellFormed :=
  let ⟨⟨tidy, linked, nodup⟩, ranked⟩ := empty_coherent
  ⟨tidy, rfl, rfl, linked, nodup, ranked⟩

end LiveList.Document
