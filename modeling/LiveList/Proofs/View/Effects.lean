import LiveList.Proofs.View.Standing

namespace LiveList

open Document (Plant Grows Layout Holds SameNodes)
open Document.Plant (Leafy ids trees)
open Json (Value)
open Markup (Tree)

variable {view view₀ : ListView} {d d₀ d' : Document} {index : Nat} {record : Record}
  {plants loose : List Plant} {blocks old before behind : List (Nat × List Plant)}

def Place.laid {α : Type} (place : Place) (list : List α) (new : α) : List α :=
  match place with
  | .back => list ++ [new]
  | .front => new :: list

theorem Place.laid_perm {α : Type} (place : Place) (list : List α) (new : α) :
    (place.laid list new).Perm (new :: list) := by
  cases place with
  | back => exact List.perm_append_comm
  | front => exact .refl _

theorem Place.map_laid {α β : Type} (f : α → β) (place : Place) (list : List α) (new : α) :
    (place.laid list new).map f = place.laid (list.map f) (f new) := by
  cases place <;> simp [laid]

namespace Collection.Sound

variable {c : Collection}

theorem records_added (sound : c.Sound) (place : Place) (record : Record) :
    (place.added c record).records = place.laid c.records (c.next, record.withIndex c.next) := by
  cases place with
  | back => exact sound.records_insertBack record
  | front => exact sound.records_insertFront record

theorem indices_added (sound : c.Sound) (place : Place) (record : Record) :
    (place.added c record).indices = place.laid c.indices c.next := by
  rw [indices, OrderedMap.keys, sound.records_added, Place.map_laid]
  rfl

theorem added (sound : c.Sound) (place : Place) (record : Record) :
    (place.added c record).Sound := by
  cases place with
  | back => exact sound.insertBack record
  | front => exact sound.insertFront record

theorem next_added (place : Place) (record : Record) :
    (place.added c record).next = c.next + 1 := by
  cases place <;> rfl

theorem get?_added (sound : c.Sound) (place : Place) (record : Record) (index : Nat) :
    (place.added c record).get? index =
      if c.next = index then some (record.withIndex c.next) else c.get? index := by
  have perm : (place.added c record).records.Perm ((c.next, record.withIndex c.next) :: c.records) := by
    rw [sound.records_added]
    exact place.laid_perm ..
  exact (OrderedMap.get?_of_perm perm (sound.added place record).nodup index).symm

end Collection.Sound

theorem Document.Layout.perm_loose {above : NodeId} {first now loose' : List Plant}
    (layout : Layout d₀ above first d now loose) (perm : loose'.Perm loose) :
    Layout d₀ above first d now loose' := by
  have whole : (ids (now ++ loose')).Perm (ids (now ++ loose)) :=
    Plant.ids_perm (perm.append_left now)
  have mem : ∀ id, id ∈ ids (now ++ loose') ↔ id ∈ ids (now ++ loose) := fun id => whole.mem_iff
  exact ⟨layout.grounded, layout.parent, layout.holds, layout.loosely.of_perm perm,
    whole.nodup_iff.2 layout.nodup, by rw [mem]; exact layout.outside,
    by rw [mem]; exact layout.notRoot, fun id inside => layout.within id ((mem id).1 inside),
    fun id inOld gone => layout.freed id inOld fun inside => gone ((mem id).2 inside),
    fun id differ notOld gone => layout.elsewhere id differ notOld fun inside =>
      gone ((mem id).2 inside)⟩

theorem Document.Layout.hung {above : NodeId} {first now : List Plant} (place : Place)
    (layout : Layout d₀ above first d now (plants ++ loose)) :
    Layout d₀ above first (place.hung above (plants.map Plant.root) d)
      (match place with | .back => now ++ plants | .front => plants ++ now) loose := by
  have lives : ∀ child ∈ plants.map Plant.root, d.contains child := fun child inside =>
    layout.contains_of_mem (by simp [(Plant.map_root_sublist plants).mem inside])
  have outside : above ∉ plants.map Plant.root := fun inside =>
    layout.outside (by simp [(Plant.map_root_sublist plants).mem inside])
  cases place with
  | back =>
    rw [Place.hung, Document.foldl_appendChild_eq layout.live lives outside]
    exact layout.hang Document.append_singleton_perm (.refl _)
      (by rw [Document.foldl_append_singleton, List.map_append])
  | front =>
    rw [Place.hung, Document.foldl_prependChild_eq layout.live
      (fun child inside => lives child (List.mem_reverse.1 inside))
      fun inside => outside (List.mem_reverse.1 inside), ← List.map_reverse]
    exact (layout.perm_loose ((List.reverse_perm plants).append_right loose)).hang
      (fun _ _ => .refl _)
      (List.perm_append_comm.trans ((List.reverse_perm plants).symm.append_left now))
      (by rw [List.map_reverse, Document.foldl_cons_reverse, List.map_append])

def ListView.withRecord (view : ListView) (place : Place) (record : Record)
    (roots : List NodeId) : ListView :=
  { view with
    collection := place.added view.collection record
    nodes := OrderedMap.put view.nodes view.collection.next roots }

theorem Follows.add (place : Place)
    (follows : Follows view₀ d₀ old view d blocks (plants ++ loose))
    (drawn : view.draw (record.withIndex view.collection.next) = .ok (trees plants)) :
    Follows view₀ d₀ old (view.withRecord place record (plants.map Plant.root))
      (place.hung view.container (plants.map Plant.root) d)
      (place.laid blocks (view.collection.next, plants)) loose := by
  have stands := follows.stands
  have sound := stands.sound
  have fresh := stands.next_not_mem
  have plantsEq : plantsOf (place.laid blocks (view.collection.next, plants)) =
      match place with
      | .back => plantsOf blocks ++ plants
      | .front => plants ++ plantsOf blocks := by
    cases place <;> simp [Place.laid]
  have layout := follows.layout.hung place
  rw [← plantsEq, ← follows.container] at layout
  have perm := place.laid_perm blocks (view.collection.next, plants)
  have indicesPerm : (indicesOf (place.laid blocks (view.collection.next, plants))).Perm
      (view.collection.next :: indicesOf blocks) := perm.map Prod.fst
  refine ⟨.of_layout layout rfl (sound.added place record) stands.rooted ?_ ?_ ?_ ?_,
    follows.container ▸ layout, ?_, ?_⟩
  · -- The index is new, so its nodes are remembered behind those of the others.
    have absent : view.collection.next ∉ OrderedMap.keys view.nodes := fun inside =>
      fresh (stands.keys_nodes.mem_iff.1 inside)
    rw [ListView.withRecord, OrderedMap.put_of_not_mem absent]
    refine (stands.remembered.append_right _).trans (List.perm_append_comm.trans ?_)
    exact (perm.map fun block => (block.1, block.2.map Plant.root)).symm
  · exact indicesPerm.nodup_iff.2 (List.nodup_cons.2 ⟨fresh, stands.keys⟩)
  · intro other inside
    have inside := indicesPerm.mem_iff.1 inside
    rw [ListView.withRecord, sound.indices_added, (place.laid_perm ..).mem_iff, List.mem_cons]
    exact (List.mem_cons.1 inside).imp_right (stands.known other)
  · intro other others inside
    cases List.mem_cons.1 (perm.mem_iff.1 inside) with
    | inl same =>
      rw [Prod.mk.injEq] at same
      exact same.1 ▸ same.2 ▸ ListView.draw_marked stands.rooted
        (record.withIndex_carries _).given drawn
    | inr inside =>
      exact stands.marked other others inside
  · rw [follows.same]
    rfl
  · rw [ListView.withRecord, Collection.Sound.next_added]
    exact Nat.le_succ_of_le follows.next

theorem Faithful.add (place : Place) (faithful : Faithful view blocks) (stands : Stands view d blocks)
    (drawn : view.draw (record.withIndex view.collection.next) = .ok (trees plants))
    (roots : List NodeId) :
    Faithful (view.withRecord place record roots)
      (place.laid blocks (view.collection.next, plants)) := by
  intro other others inside
  simp only [ListView.withRecord, stands.sound.get?_added]
  cases List.mem_cons.1 ((place.laid_perm ..).mem_iff.1 inside) with
  | inl same =>
    rw [Prod.mk.injEq] at same
    exact ⟨_, if_pos same.1.symm, same.2 ▸ drawn⟩
  | inr inside =>
    obtain ⟨found, held, same⟩ := faithful other others inside
    have differ : view.collection.next ≠ other := fun equal =>
      stands.next_not_mem (equal ▸ List.mem_map_of_mem inside)
    exact ⟨found, by rw [if_neg differ, held], same⟩

theorem Patch.insert_follows (stands : Stands view d blocks) (wf : d.WellFormed) (place : Place)
    {forest : List Tree}
    (drawn : view.draw (record.withIndex view.collection.next) = .ok forest) :
    ∃ d' plants payload,
      (insert record place).on ⟨view, d⟩ = (.ok (view.collection.next, payload),
        ⟨view.withRecord place record (plants.map Plant.root), d'⟩) ∧
      Follows view d blocks (view.withRecord place record (plants.map Plant.root)) d'
        (place.laid blocks (view.collection.next, plants)) [] ∧
      view.draw (record.withIndex view.collection.next) = .ok (trees plants) := by
  obtain ⟨d₁, plants, rendered, grows, same⟩ := ListView.renderRecord_ok wf.grounded drawn
  have follows := (stands.follows wf).grow grows
  rw [List.nil_append, ← List.append_nil plants] at follows
  exact ⟨_, plants, _, on_insert_ok place rendered, follows.add place (same ▸ drawn), same ▸ drawn⟩

def Consecutive : Nat → List Record → Prop
  | _, [] => True
  | next, record :: rest => record.withIndex next = record ∧ Consecutive (next + 1) rest

theorem consecutive_mapIdx (records : List Record) (next : Nat) :
    Consecutive next (records.mapIdx fun offset record => record.withIndex (next + offset)) := by
  induction records generalizing next with
  | nil => trivial
  | cons record rest ih =>
    rw [List.mapIdx_cons]
    refine ⟨record.withIndex_withIndex _ _, ?_⟩
    simpa [Nat.add_assoc, Nat.add_comm 1] using ih (next + 1)

theorem Change.on_addAll_cons (record : Record) (roots : List NodeId)
    (rest : List (Record × List NodeId)) (scene : Scene) :
    (addAll ((record, roots) :: rest)).on scene =
      let left := (addAll rest).on ⟨scene.view.withRecord .back record roots,
        Place.hung .back scene.view.container roots scene.document⟩
      (scene.view.collection.next :: left.1, left.2) := rfl

theorem Change.addAll_follows (rest : List (Record × List Plant))
    (follows : Follows view₀ d₀ old view d blocks (plantsOf rest))
    (consecutive : Consecutive view.collection.next (rest.map Prod.fst))
    (drawn : ∀ record plants, (record, plants) ∈ rest → view.draw record = .ok (trees plants)) :
    ∃ indices left new, (Change.addAll (rootsOf rest)).on ⟨view, d⟩ = (indices, left) ∧
      Follows view₀ d₀ old left.view left.document new [] ∧
      (Faithful view blocks → Faithful left.view new) ∧
      (∀ index ∈ indices, view.collection.next ≤ index) ∧
      indicesOf new = indicesOf blocks ++ indices ∧
      left.view.collection.indices = view.collection.indices ++ indices := by
  induction rest generalizing view d blocks with
  | nil => exact ⟨[], _, blocks, rfl, follows, id, by simp, by simp, by simp⟩
  | cons block rest ih =>
    obtain ⟨record, plants⟩ := block
    obtain ⟨same, consecutive⟩ := consecutive
    rw [plantsOf_cons] at follows
    have drawnFirst : view.draw (record.withIndex view.collection.next) = .ok (trees plants) :=
      (congrArg view.draw same).trans (drawn record plants List.mem_cons_self)
    obtain ⟨indices, left, new, run, follows', faithful, above, shown, listed⟩ :=
      ih (follows.add .back drawnFirst) consecutive
        fun record plants inside => drawn record plants (List.mem_cons_of_mem _ inside)
    refine ⟨view.collection.next :: indices, left, new, ?_, follows',
      fun before => faithful (before.add .back follows.stands drawnFirst _), ?_, ?_, ?_⟩
    · rw [rootsOf, List.map_cons, on_addAll_cons, ← rootsOf, run]
    · intro index inside
      rcases List.mem_cons.1 inside with rfl | later
      · exact Nat.le_refl _
      · exact Nat.le_of_succ_le (above index later)
    · simpa [Place.laid] using shown
    · rw [listed, ListView.withRecord, follows.stands.sound.indices_added]
      simp [Place.laid]

theorem ListView.drawAll_blocks {κ : Type} {items : List (κ × Record)} {rest : List (κ × List Plant)}
    (drawn : view.drawAll items = .ok (treesOf rest)) :
    rest.map Prod.fst = items.map Prod.fst ∧ ∀ key plants, (key, plants) ∈ rest →
      ∃ record, (key, record) ∈ items ∧ view.draw record = .ok (trees plants) := by
  refine ⟨?_, fun key plants inside =>
    exists_of_mem_drawAll drawn (List.mem_map_of_mem (f := fun block => (block.1, trees block.2)) inside)⟩
  rw [← keys_drawAll drawn, treesOf, List.map_map]
  rfl

theorem Patch.insertAll_follows (stands : Stands view d blocks) (wf : d.WellFormed)
    {items : List Value} {records : List Record} (created : items.mapM view.model.create = .ok records)
    {forests : List (Record × List Tree)}
    (drawn : view.drawAll ((numbered view.collection records).map fun record => (record, record)) =
      .ok forests) :
    ∃ indices payload left new, (insertAll items).on ⟨view, d⟩ = (.ok (indices, payload), left) ∧
      Follows view d blocks left.view left.document new [] ∧
      (Faithful view blocks → Faithful left.view new) ∧
      (∀ index ∈ indices, view.collection.next ≤ index) ∧
      indicesOf new = indicesOf blocks ++ indices ∧
      left.view.collection.indices = view.collection.indices ++ indices := by
  have start : Grows d none (plantsOf ([] : List (Record × List Plant))) d := .refl wf.grounded _
  obtain ⟨d₁, rest, rendered, grows, same⟩ := on_renderAll_ok _ start drawn
  obtain ⟨keys, each⟩ := ListView.drawAll_blocks (drawn.trans (congrArg _ same.symm))
  have follows := (stands.follows wf).grow grows
  have diagonal : (Prod.fst ∘ fun record : Record => (record, record)) = id := rfl
  rw [List.map_map, diagonal, List.map_id] at keys
  have consecutive : Consecutive view.collection.next (rest.map Prod.fst) :=
    keys ▸ consecutive_mapIdx records view.collection.next
  obtain ⟨indices, left, new, run, result⟩ := Change.addAll_follows rest follows consecutive
    fun record plants inside => by
      obtain ⟨other, there, drawn⟩ := each record plants inside
      obtain ⟨record', -, same⟩ := List.mem_map.1 there
      rw [Prod.mk.injEq] at same
      rwa [← same.1, same.2]
  have whole := on_insertAll_ok created rendered
  rw [List.nil_append, run] at whole
  exact ⟨indices, _, left, new, whole, result⟩

end LiveList
