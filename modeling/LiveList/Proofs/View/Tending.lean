import LiveList.Proofs.View.Removal

namespace LiveList

open Document (Plant Grows Layout)
open Json (Value)

/-- Since the first document, in which the container of the view held the plants `old`, only the
content of the container has changed. It holds the plants `now`, the plants `loose` are drawn and
not yet shown, and the nodes that the view remembers are children of the container, each once. -/
structure Tended (d₀ : Document) (above : NodeId) (old : List Plant) (view : ListView) (d : Document)
    (now loose : List Plant) : Prop where
  container : view.container = above
  layout : Layout d₀ above old d now loose
  remembered : (view.nodes.flatMap Prod.snd).Subperm (now.map Plant.root)

def Change.Tends {α : Type} (change : Change α) : Prop :=
  ∀ {d₀ above old view d now}, Tended d₀ above old view d now [] → ∀ a left,
    change.on ⟨view, d⟩ = (a, left) → ∃ now', Tended d₀ above old left.view left.document now' []

variable {α : Type} {d₀ d d' : Document} {above : NodeId} {view : ListView}
  {old now plants loose : List Plant} {index : Nat}

namespace Tended

theorem grow (tended : Tended d₀ above old view d now []) (grows : Grows d none plants d') :
    Tended d₀ above old view d' now plants :=
  ⟨tended.container, tended.layout.grow grows, tended.remembered⟩

theorem add (tended : Tended d₀ above old view d now (plants ++ loose)) (place : Place)
    (record : Record) :
    ∃ now', Tended d₀ above old (view.withRecord place record (plants.map Plant.root))
      (place.hung view.container (plants.map Plant.root) d) now' loose := by
  obtain ⟨rfl, layout, remembered⟩ := tended
  have among := (OrderedMap.flatMap_put_subperm view.nodes view.collection.next
    (plants.map Plant.root)).trans ((List.subperm_append_left _).2 remembered)
  refine ⟨_, rfl, layout.hung place, among.trans (List.Perm.subperm ?_)⟩
  cases place with
  | back => simpa using List.perm_append_comm
  | front => simp

theorem replace {anchor : NodeId} {roots : List NodeId}
    (tended : Tended d₀ above old view d now plants)
    (shown : OrderedMap.get? view.nodes index = some roots) (head : roots.head? = some anchor)
    (record : Record) :
    ∃ now', Tended d₀ above old (view.withReplaced index record (plants.map Plant.root))
      (((plants.map Plant.root).foldl (fun d root => (d.insertBefore anchor root).1) d).removeNodes
        roots) now' [] := by
  obtain ⟨container, layout, remembered⟩ := tended
  have known := OrderedMap.mem_of_get? shown
  obtain ⟨plant, there, rfl⟩ := List.mem_map.1
    (remembered.subset (List.mem_flatMap.2 ⟨_, known, List.mem_of_mem_head? head⟩))
  obtain ⟨before, behind, rfl⟩ := List.append_of_mem there
  have perm := OrderedMap.flatMap_put_perm view.nodes index (plants.map Plant.root)
  rw [shown, Option.getD_some] at perm
  have among := perm.subperm.trans ((List.subperm_append_left (plants.map Plant.root)).2 remembered)
  rw [← List.append_nil plants] at layout
  obtain ⟨now', layout', remembered'⟩ := layout.insertBefore.release
    (among.trans (List.Perm.subperm (by simpa using List.perm_append_comm_assoc ..)))
  exact ⟨now', container, layout', remembered'⟩

end Tended

theorem Change.addAll_tended (rest : List (Record × List Plant))
    (tended : Tended d₀ above old view d now (plantsOf rest)) :
    ∃ now', Tended d₀ above old ((addAll (rootsOf rest)).on ⟨view, d⟩).2.view
      ((addAll (rootsOf rest)).on ⟨view, d⟩).2.document now' [] := by
  induction rest generalizing view d now with
  | nil => exact ⟨now, tended⟩
  | cons block rest ih =>
    obtain ⟨record, plants⟩ := block
    rw [plantsOf_cons] at tended
    obtain ⟨now', tended'⟩ := tended.add .back record
    exact ih tended'

namespace Patch

/-- A careful patch that fails leaves the container to the view, so only its success matters. -/
theorem Careful.tends {patch : Patch α} (careful : patch.Careful)
    (succeeds : ∀ {d₀ above old view d now}, Tended d₀ above old view d now [] → ∀ a left,
      patch.on ⟨view, d⟩ = (.ok a, left) →
      ∃ now', Tended d₀ above old left.view left.document now' []) :
    Change.Tends patch.run := by
  intro d₀ above old view d now tended result left run
  cases result with
  | error cause =>
    obtain ⟨same, grounded, nodes⟩ := careful view d tended.layout.grounded cause left run
    exact ⟨now, same ▸ tended.container, tended.layout.sameNodes grounded nodes,
      same ▸ tended.remembered⟩
  | ok a => exact succeeds tended a left run

theorem insert_tends (record : Record) (place : Place) : Change.Tends (insert record place).run := by
  refine (insert_careful record place).tends ?_
  intro d₀ above old view d now tended added left run
  rcases renderRecord_cases view (record.withIndex view.collection.next) tended.layout.grounded with
    ⟨d', cause, failed, -⟩ | ⟨d', plants, rendered, grows⟩
  · simp [on_insert_error place failed] at run
  · rw [on_insert_ok place rendered, Prod.mk.injEq] at run
    obtain ⟨-, rfl⟩ := run
    have grown := tended.grow grows
    rw [← List.append_nil plants] at grown
    exact grown.add place record

theorem insertAll_tends (items : List Value) : Change.Tends (insertAll items).run := by
  refine (insertAll_careful items).tends ?_
  intro d₀ above old view d now tended added left run
  cases created : items.mapM view.model.create with
  | error cause => simp [on_insertAll_of_create created] at run
  | ok records =>
    rcases renderAll_cases view ((numbered view.collection records).map fun record => (record, record))
        tended.layout.grounded with ⟨d', cause, failed, -⟩ | ⟨d', blocks, drawn, grows⟩
    · simp [on_insertAll_error created failed] at run
    · rw [on_insertAll_ok created drawn, Prod.mk.injEq] at run
      obtain ⟨-, rfl⟩ := run
      exact Change.addAll_tended blocks (tended.grow grows)

theorem edit_tends (index : Nat) (fields : Value) : Change.Tends (edit index fields).run := by
  refine (edit_careful index fields).tends ?_
  intro d₀ above old view d now tended edited left run
  rw [on_edit] at run
  split at run
  · obtain ⟨-, rfl⟩ := Prod.mk.inj run
    exact ⟨now, tended⟩
  split at run
  · obtain ⟨-, rfl⟩ := Prod.mk.inj run
    exact ⟨now, tended⟩
  split at run
  · simp at run
  split at run
  · simp at run
  case h_2 anchor first _ record _ =>
    obtain ⟨roots, shown, head⟩ := Option.bind_eq_some_iff.1 first
    rcases renderRecord_cases view record tended.layout.grounded with
      ⟨d', cause, failed, -⟩ | ⟨d', plants, rendered, grows⟩
    · simp [failed] at run
    · simp only [rendered, shown, Option.getD_some, Prod.mk.injEq] at run
      obtain ⟨-, rfl⟩ := run
      exact (tended.grow grows).replace shown head record

end Patch

namespace Change

theorem remove_tends (index : Nat) : (remove index).Tends := by
  intro d₀ above old view d now tended removed left run
  cases held : view.collection.get? index with
  | none =>
    rw [on_remove held, Prod.mk.injEq] at run
    obtain ⟨-, rfl⟩ := run
    exact ⟨now, tended⟩
  | some record =>
    have among := (OrderedMap.flatMap_remove_subperm view.nodes index).trans tended.remembered
    cases shown : OrderedMap.get? view.nodes index with
    | none =>
      rw [on_remove_hidden held (OrderedMap.get?_eq_none_iff.1 shown), Prod.mk.injEq] at run
      obtain ⟨-, rfl⟩ := run
      rw [shown] at among
      exact ⟨now, tended.container, tended.layout, among⟩
    | some roots =>
      rw [on_remove_shown held shown, Prod.mk.injEq] at run
      obtain ⟨-, rfl⟩ := run
      rw [shown] at among
      obtain ⟨now', layout, remembered⟩ := tended.layout.release among
      exact ⟨now', tended.container, layout, remembered⟩

theorem removeAll_tends : removeAll.Tends := by
  intro d₀ above old view d now tended _ left run
  obtain ⟨rfl, layout, -⟩ := tended
  obtain ⟨-, rfl⟩ := Prod.mk.inj (on_removeAll.symm.trans run)
  exact ⟨[], rfl, layout.clear, List.nil_subperm⟩

theorem addFilter_tends (name : String) (filter : Template.Filter) :
    (addFilter name filter).Tends := by
  intro d₀ above old view d now tended replaced left run
  obtain ⟨-, rfl⟩ := Prod.mk.inj run
  exact ⟨now, tended.container, tended.layout, tended.remembered⟩

end Change

namespace Patch

theorem rerender_tends (order : List Nat) : Change.Tends (rerender order).run := by
  refine (rerender_careful order).tends ?_
  intro d₀ above old view d now tended _ left run
  rcases renderAll_cases view (view.collection.listed order) tended.layout.grounded with
    ⟨d', cause, failed, -⟩ | ⟨d', blocks, drawn, grows⟩
  · simp [on_rerender_error failed] at run
  · rw [on_rerender_ok drawn, flatMap_snd_rootsOf, Prod.mk.injEq] at run
    obtain ⟨-, rfl⟩ := run
    obtain ⟨rfl, layout, -⟩ := tended.grow grows
    rw [← List.append_nil (plantsOf blocks)] at layout
    refine ⟨_, rfl, layout.clear.hung .back, ?_⟩
    simpa [flatMap_snd_rootsOf] using OrderedMap.flatMap_putAll_subperm [] (rootsOf blocks)

theorem showOnly_tends (matched : List Value) : Change.Tends (showOnly matched).run := by
  refine (showOnly_careful matched).tends ?_
  intro d₀ above old view d now tended values left run
  rw [on_showOnly] at run
  split at run
  · simp at run
  case h_2 redrawn =>
    obtain ⟨-, rfl⟩ := Prod.mk.inj run
    exact rerender_tends _ tended _ _ redrawn

theorem arrange_tends (order : List Nat) : Change.Tends (arrange order).run := by
  refine (arrange_careful order).tends ?_
  intro d₀ above old view d now tended values left run
  rw [on_arrange] at run
  split at run
  · simp at run
  case h_2 redrawn =>
    obtain ⟨-, rfl⟩ := Prod.mk.inj run
    obtain ⟨now', container, layout, remembered⟩ := rerender_tends _ tended _ _ redrawn
    exact ⟨now', container, layout, remembered⟩

theorem sort_tends : Change.Tends sort.run := by
  intro d₀ above old view d now tended result left run
  exact arrange_tends _ tended result left ((on_sort ⟨view, d⟩).symm.trans run)

theorem updateView_tends : Change.Tends updateView.run := by
  intro d₀ above old view d now tended result left run
  exact rerender_tends _ tended result left ((on_updateView ⟨view, d⟩).symm.trans run)

end Patch

end LiveList
