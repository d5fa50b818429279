import LiveList.Proofs.View.Removal

namespace LiveList

open Document (Plant Grows Layout Holds SameNodes)
open Document.Plant (Leafy ids trees)
open Json (Value)
open Markup (Tree)

variable {view view₀ : ListView} {d d₀ d' : Document} {blocks old new : List (Nat × List Plant)}
  {order : List Nat}

theorem Collection.keys_listed {c : Collection} (known : ∀ index ∈ order, index ∈ c.indices) :
    (c.listed order).map Prod.fst = order := by
  induction order with
  | nil => rfl
  | cons index rest ih =>
    obtain ⟨record, held⟩ := Collection.mem_indices.1 (known index List.mem_cons_self)
    have rest := ih fun other inside => known other (List.mem_cons_of_mem _ inside)
    simp only [listed] at rest
    simp [listed, held, rest]

theorem Collection.get?_of_mem_listed {c : Collection} {index : Nat} {record : Record}
    (inside : (index, record) ∈ c.listed order) : c.get? index = some record := by
  obtain ⟨other, -, same⟩ := List.mem_filterMap.1 inside
  obtain ⟨found, held, same⟩ := Option.map_eq_some_iff.1 same
  rw [Prod.mk.injEq] at same
  rw [← same.1, held, same.2]

theorem Patch.mem_matchedOrder {c : Collection} {matched : List Value} {index : Nat} :
    index ∈ matchedOrder c matched ↔ index ∈ matched.filterMap indexOf ∧ index ∈ c.indices := by
  rw [matchedOrder, List.mem_filter, Collection.contains_iff]

theorem Record.Carries.indexOf {record : Record} {index : Nat} (carries : record.Carries index) :
    Patch.indexOf record.json = some index := by
  have shown := carries.shown
  rw [Bag.raw] at shown
  simp [Patch.indexOf, Bag.json, Value.field?, shown, Value.ofNat, Value.nat?]

theorem Collection.Sound.filterMap_indexOf {c : Collection} (sound : c.Sound) :
    c.json.filterMap Patch.indexOf = c.indices := by
  have each : ∀ entry ∈ c.records, Patch.indexOf entry.2.json = some entry.1 :=
    fun entry inside => (sound.carried entry.1 entry.2 inside).indexOf
  rw [Collection.json, OrderedMap.values, Collection.indices, OrderedMap.keys, List.map_map,
    List.filterMap_map]
  rw [← List.filterMap_eq_map]
  exact List.filterMap_congr each

theorem Patch.arrangedOrder_perm {c : Collection} (sound : c.Sound) (distinct : order.Nodup) :
    (arrangedOrder c order).Perm c.indices := by
  have once : (order.filter c.contains).Nodup := distinct.filter _
  refine (List.perm_ext_iff_of_nodup ?_ sound.nodup).2 fun index => ?_
  · refine List.nodup_append.2 ⟨once, sound.nodup.filter _, ?_⟩
    intro a left b right same
    have absent := (List.mem_filter.1 right).2
    rw [← same] at absent
    simp [List.mem_filter.1 left] at absent
  · rw [arrangedOrder, List.mem_append, List.mem_filter, List.mem_filter, Collection.contains_iff]
    by_cases listed : index ∈ order <;>
      simp [listed, Collection.contains_iff]

/-- Whatever a view has laid out in its container, it stands there after it was drawn again. -/
theorem Patch.rerender_stands {above : NodeId} {first plants : List Plant}
    (layout : Layout d₀ above first d plants []) (at_ : view.container = above)
    (sound : view.collection.Sound) (rooted : view.template.hasElementRoot) (distinct : order.Nodup)
    (known : ∀ index ∈ order, index ∈ view.collection.indices)
    {forests : List (Nat × List Tree)}
    (drawn : view.drawAll (view.collection.listed order) = .ok forests) :
    ∃ d' new, (rerender order).on ⟨view, d⟩ = (.ok (), ⟨{ view with nodes := rootsOf new }, d'⟩) ∧
      Layout d₀ above first d' (plantsOf new) [] ∧ Stands { view with nodes := rootsOf new } d' new ∧
      indicesOf new = order ∧ Faithful view new := by
  subst at_
  have start : Grows d none (plantsOf ([] : List (Nat × List Plant))) d := .refl layout.grounded _
  obtain ⟨d₁, new, rendered, grows, same⟩ := on_renderAll_ok _ start drawn
  obtain ⟨keys, each⟩ := ListView.drawAll_blocks (drawn.trans (congrArg _ same.symm))
  have keys : indicesOf new = order := keys.trans (Collection.keys_listed known)
  rw [List.nil_append] at grows rendered
  have grown := layout.grow grows
  rw [List.nil_append, ← List.append_nil (plantsOf new)] at grown
  have laid := grown.clear.hung .back
  have faithful : Faithful view new := fun index plants inside => by
    obtain ⟨record, there, drawn⟩ := each index plants inside
    exact ⟨record, Collection.get?_of_mem_listed there, drawn⟩
  have once : OrderedMap.putAll [] (rootsOf new) = rootsOf new := by
    have nodup : (OrderedMap.keys ([] ++ rootsOf new)).Nodup := by
      rwa [List.nil_append, keys_rootsOf, keys]
    rw [OrderedMap.putAll_of_nodup nodup, List.nil_append]
  have run := on_rerender_ok rendered
  rw [flatMap_snd_rootsOf, once] at run
  refine ⟨_, new, run, laid, .of_layout laid rfl sound rooted (.refl _) (keys ▸ distinct)
    (fun index inside => known index (keys ▸ inside)) ?_, keys, faithful⟩
  intro index plants inside
  obtain ⟨record, held, drawn⟩ := faithful index plants inside
  exact ListView.draw_marked rooted (sound.carries held).given drawn

theorem Patch.rerender_follows (stands : Stands view d blocks) (wf : d.WellFormed)
    (distinct : order.Nodup) (known : ∀ index ∈ order, index ∈ view.collection.indices)
    {forests : List (Nat × List Tree)}
    (drawn : view.drawAll (view.collection.listed order) = .ok forests) :
    ∃ d' new, (rerender order).on ⟨view, d⟩ = (.ok (), ⟨{ view with nodes := rootsOf new }, d'⟩) ∧
      Follows view d blocks { view with nodes := rootsOf new } d' new [] ∧
      indicesOf new = order ∧ Faithful view new := by
  obtain ⟨d', new, run, layout, stands', shown, faithful⟩ := rerender_stands (stands.follows wf).layout
    rfl stands.sound stands.rooted distinct known drawn
  exact ⟨d', new, run, ⟨stands', layout, rfl, Nat.le_refl _⟩, shown, faithful⟩

variable {left : Scene}

theorem Patch.rerender_ok (stands : Stands view d blocks) (wf : d.WellFormed)
    (distinct : order.Nodup) (known : ∀ index ∈ order, index ∈ view.collection.indices)
    (run : (rerender order).on ⟨view, d⟩ = (.ok (), left)) :
    ∃ new, left.view = { view with nodes := rootsOf new } ∧
      Follows view d blocks left.view left.document new [] ∧
      indicesOf new = order ∧ Faithful left.view new := by
  cases drawn : view.drawAll (view.collection.listed order) with
  | error cause =>
    have start : Grows d none (plantsOf ([] : List (Nat × List Plant))) d := .refl wf.grounded _
    obtain ⟨d', failed, -, -⟩ := on_renderAll_error _ wf.grounded start drawn
    have failed := on_rerender_error failed
    simp [failed] at run
  | ok forests =>
    obtain ⟨d', new, drawn, follows, shown, faithful⟩ :=
      rerender_follows stands wf distinct known drawn
    rw [drawn, Prod.mk.injEq] at run
    exact run.2 ▸ ⟨new, rfl, follows, shown, faithful⟩

theorem Patch.showOnly_ok (stands : Stands view d blocks) (wf : d.WellFormed)
    {matched values : List Value} (distinct : (matched.filterMap indexOf).Nodup)
    (run : (showOnly matched).on ⟨view, d⟩ = (.ok values, left)) :
    ∃ new, left.view = { view with nodes := rootsOf new } ∧
      Follows view d blocks left.view left.document new [] ∧
      indicesOf new = matchedOrder view.collection matched ∧ Faithful left.view new := by
  rw [on_showOnly] at run
  split at run
  · simp at run
  case h_2 shown redrawn =>
    rw [Prod.mk.injEq] at run
    exact rerender_ok stands wf (distinct.filter _) (fun _ inside => (mem_matchedOrder.1 inside).2)
      (run.2 ▸ redrawn)

theorem Stands.reorder (stands : Stands view d blocks) (order : List Nat) :
    Stands { view with collection := view.collection.reorder order } d blocks :=
  have same : (view.collection.reorder order).indices.Perm view.collection.indices :=
    (Collection.records_reorder_perm stands.sound order).map Prod.fst
  { stands with
    sound := stands.sound.reorder order
    known := fun index inside => same.mem_iff.2 (stands.known index inside) }

theorem Faithful.reorder (faithful : Faithful view blocks) (sound : view.collection.Sound)
    (order : List Nat) : Faithful { view with collection := view.collection.reorder order } blocks := by
  intro index plants inside
  obtain ⟨record, held, drawn⟩ := faithful index plants inside
  exact ⟨record, (Collection.get?_reorder sound order index).trans held, drawn⟩

theorem Follows.reorder {loose : List Plant}
    (follows : Follows view₀ d₀ old view d blocks loose) (order : List Nat) :
    Follows view₀ d₀ old { view with collection := view.collection.reorder order } d blocks loose :=
  ⟨follows.stands.reorder order, follows.layout, by rw [follows.same], follows.next⟩

theorem Patch.arrange_ok (stands : Stands view d blocks) (wf : d.WellFormed)
    (distinct : order.Nodup) {values : List Value}
    (run : (arrange order).on ⟨view, d⟩ = (.ok values, left)) :
    ∃ new, Follows view d blocks left.view left.document new [] ∧
      indicesOf new = left.view.collection.indices ∧
      left.view.collection.indices.Perm view.collection.indices ∧ Faithful left.view new := by
  have perm := arrangedOrder_perm stands.sound distinct
  have once := perm.nodup_iff.2 stands.sound.nodup
  rw [on_arrange] at run
  split at run
  · simp at run
  case h_2 redrawn =>
    obtain ⟨new, same, follows, shown, faithful⟩ :=
      rerender_ok stands wf once (fun _ inside => perm.mem_iff.1 inside) redrawn
    rw [Prod.mk.injEq] at run
    rw [← run.2]
    have listed : (view.collection.reorder (arrangedOrder view.collection order)).indices =
        arrangedOrder view.collection order := Collection.indices_reorder stands.sound perm
    refine ⟨new, follows.reorder _, ?_, ?_, faithful.reorder follows.stands.sound _⟩
    · simp only [same, listed, shown]
    · simp only [same, listed, perm]

theorem Patch.updateView_ok (stands : Stands view d blocks) (wf : d.WellFormed)
    (run : updateView.on ⟨view, d⟩ = (.ok (), left)) :
    ∃ new, left.view = { view with nodes := rootsOf new } ∧
      Follows view d blocks left.view left.document new [] ∧
      indicesOf new = view.collection.indices ∧ Faithful left.view new := by
  rw [on_updateView] at run
  exact rerender_ok stands wf stands.sound.nodup (fun _ inside => inside) run

end LiveList
