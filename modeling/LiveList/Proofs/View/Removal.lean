import LiveList.Proofs.View.Effects

namespace LiveList

open Document (Plant Grows Layout Holds SameNodes)
open Document.Plant (Leafy ids trees)
open Json (Value)

variable {view view₀ : ListView} {d d₀ d' : Document} {index : Nat} {record : Record}
  {plants gone loose : List Plant} {blocks old before behind : List (Nat × List Plant)}

theorem Document.Layout.insertBefore {above : NodeId} {first now later : List Plant} {plant : Plant}
    (layout : Layout d₀ above first d (now ++ plant :: later) (plants ++ loose)) :
    Layout d₀ above first
      ((plants.map Plant.root).foldl (fun d root => (d.insertBefore plant.root root).1) d)
      (now ++ plants ++ plant :: later) loose := by
  have rootsIn : ∀ root ∈ plants.map Plant.root, root ∈ ids plants :=
    fun root inside => (Plant.map_root_sublist plants).mem inside
  have anchorIn : plant.root ∈ ids (plant :: later) := Plant.root_mem_ids List.mem_cons_self
  have held : ∀ id ∈ ids plants, id ∈ ids (now ++ plant :: later ++ (plants ++ loose)) :=
    fun id inside => by
      rw [Plant.ids_append, Plant.ids_append plants]
      exact List.mem_append_right _ (List.mem_append_left _ inside)
  have lives : ∀ child ∈ plants.map Plant.root, d.contains child := fun child inside =>
    layout.contains_of_mem (held child (rootsIn child inside))
  have outside : above ∉ plants.map Plant.root := fun inside =>
    layout.outside (held above (rootsIn above inside))
  have nodup := layout.nodup
  simp only [Plant.ids_append, List.nodup_append, List.mem_append] at nodup
  have apart : plant.root ∉ plants.map Plant.root := fun inside =>
    nodup.2.2 _ (.inr anchorIn) _ (.inl (rootsIn _ inside)) rfl
  have notBefore : plant.root ∉ now.map Plant.root := fun inside =>
    nodup.1.2.2 _ ((Plant.map_root_sublist now).mem inside) _ anchorIn rfl
  have up : d.parent? plant.root = some above := layout.holds.parent?_root (by simp)
  rw [Document.foldl_insertBefore_eq layout.live lives outside apart up]
  refine layout.hang (Document.insertBeforeIn_perm plant.root) ?_ ?_
  · rw [List.append_assoc, List.append_assoc]
    exact List.perm_append_comm.append_left now
  · have placed := Document.foldl_insertBeforeIn notBefore (later.map Plant.root)
      (plants.map Plant.root) apart
    simpa using placed

theorem Document.Layout.replace {above : NodeId} {first now later : List Plant} {anchor : NodeId}
    (layout : Layout d₀ above first d (now ++ (gone ++ later)) (plants ++ loose))
    (head : (gone.map Plant.root).head? = some anchor) :
    Layout d₀ above first
      (((plants.map Plant.root).foldl (fun d root => (d.insertBefore anchor root).1) d).removeNodes
        (gone.map Plant.root))
      (now ++ (plants ++ later)) loose := by
  obtain ⟨plant, rest, rfl, rfl⟩ :
      ∃ plant rest, gone = plant :: rest ∧ plant.root = anchor := by
    cases gone with
    | nil => simp at head
    | cons plant rest => exact ⟨plant, rest, rfl, by simpa using head⟩
  rw [List.cons_append] at layout
  have inserted := layout.insertBefore
  rw [← List.cons_append] at inserted
  rw [← List.append_assoc]
  exact inserted.remove

def ListView.withReplaced (view : ListView) (index : Nat) (record : Record) (roots : List NodeId) :
    ListView :=
  { view with
    collection := view.collection.replace index record
    nodes := OrderedMap.put view.nodes index roots }

theorem keys_split (keys : (indicesOf (before ++ (index, gone) :: behind)).Nodup)
    {other : Nat} {others : List Plant} (inside : (other, others) ∈ before ++ behind) :
    index ≠ other := by
  simp only [indicesOf_append, indicesOf_cons, List.nodup_append, List.nodup_cons] at keys
  rintro rfl
  cases List.mem_append.1 inside with
  | inl left =>
    exact keys.2.2 _ (List.mem_map_of_mem left) _ List.mem_cons_self rfl
  | inr right =>
    exact keys.2.1.1 (List.mem_map_of_mem right)

theorem mem_replaced {block : Nat × List Plant} :
    block ∈ before ++ (index, plants) :: behind ↔ block = (index, plants) ∨ block ∈ before ++ behind := by
  simp only [List.mem_append, List.mem_cons]
  tauto

theorem Follows.replace
    (follows : Follows view₀ d₀ old view d (before ++ (index, gone) :: behind) (plants ++ loose))
    {anchor : NodeId} (head : (gone.map Plant.root).head? = some anchor)
    (carries : record.Carries index) (drawn : view.draw record = .ok (trees plants)) :
    Follows view₀ d₀ old (view.withReplaced index record (plants.map Plant.root))
      (((plants.map Plant.root).foldl (fun d root => (d.insertBefore anchor root).1) d).removeNodes
        (gone.map Plant.root))
      (before ++ (index, plants) :: behind) loose := by
  have stands := follows.stands
  have layout := follows.layout
  simp only [plantsOf_append, plantsOf_cons] at layout
  have layout := layout.replace head
  have sameKeys : indicesOf (before ++ (index, plants) :: behind) =
      indicesOf (before ++ (index, gone) :: behind) := by simp
  refine ⟨.of_layout (by simpa using layout) follows.container (stands.sound.replace record carries)
    stands.rooted ?_ (sameKeys ▸ stands.keys) ?_ ?_, by simpa using layout, ?_, ?_⟩
  · refine (OrderedMap.put_perm stands.remembered stands.nodup_keys _ _).trans ?_
    have keys := stands.keys
    rw [← keys_rootsOf] at keys
    simp only [rootsOf_append, rootsOf_cons] at keys ⊢
    rw [OrderedMap.put_of_mem_append keys]
  · intro other inside
    rw [ListView.withReplaced, Collection.indices_replace]
    exact stands.known other (sameKeys ▸ inside)
  · intro other others inside
    cases mem_replaced.1 inside with
    | inl same =>
      rw [Prod.mk.injEq] at same
      exact same.1 ▸ same.2 ▸ ListView.draw_marked stands.rooted carries.given drawn
    | inr inside =>
      exact stands.marked other others (mem_replaced.2 (.inr inside))
  · rw [follows.same]
    rfl
  · rw [ListView.withReplaced, Collection.next_replace]
    exact follows.next

theorem Faithful.replace (faithful : Faithful view (before ++ (index, gone) :: behind))
    (stands : Stands view d (before ++ (index, gone) :: behind))
    (drawn : view.draw record = .ok (trees plants)) (roots : List NodeId) :
    Faithful (view.withReplaced index record roots) (before ++ (index, plants) :: behind) := by
  have there : index ∈ view.collection.indices := stands.known index (by simp)
  intro other others inside
  simp only [ListView.withReplaced, Collection.get?_replace there]
  cases mem_replaced.1 inside with
  | inl same =>
    rw [Prod.mk.injEq] at same
    exact ⟨record, if_pos same.1.symm, same.2 ▸ drawn⟩
  | inr inside =>
    obtain ⟨found, held, same⟩ := faithful other others (mem_replaced.2 (.inr inside))
    exact ⟨found, by rw [if_neg (keys_split stands.keys inside), held], same⟩

theorem Patch.edit_follows (stands : Stands view d (before ++ (index, gone) :: behind))
    (wf : d.WellFormed) {fields : Value} {found : Record} (truthy : fields.isTruthy = true)
    (held : view.collection.get? index = some found) (updated : found.update fields = .ok record)
    {forest : List Markup.Tree} (drawn : view.draw record = .ok forest) :
    ∃ d' plants, (edit index fields).on ⟨view, d⟩ = (.ok (some record.json),
        ⟨view.withReplaced index record (plants.map Plant.root), d'⟩) ∧
      Follows view d (before ++ (index, gone) :: behind)
        (view.withReplaced index record (plants.map Plant.root)) d'
        (before ++ (index, plants) :: behind) [] ∧
      view.draw record = .ok (trees plants) := by
  obtain ⟨d₁, plants, rendered, grows, same⟩ := ListView.renderRecord_ok wf.grounded drawn
  have drawn := same ▸ drawn
  have shown := stands.get?_nodes (mem_replaced.2 (.inl rfl))
  obtain ⟨anchor, head⟩ : ∃ anchor, (gone.map Plant.root).head? = some anchor := by
    cases gone with
    | nil => simpa [trees] using (stands.marked index [] (by simp)).element
    | cons plant rest => exact ⟨plant.root, rfl⟩
  have follows := (stands.follows wf).grow grows
  rw [List.nil_append, ← List.append_nil plants] at follows
  refine ⟨_, plants, ?_, follows.replace head (stands.sound.carries held |>.update updated) drawn,
    drawn⟩
  rw [on_edit]
  simp only [truthy, Bool.true_eq_false, if_false, held, shown, Option.bind_some, head, updated,
    rendered, Option.getD_some]
  rfl

theorem Patch.edit_ok (stands : Stands view d blocks) (wf : d.WellFormed) {fields : Value}
    {edited : Option Value} {left : Scene}
    (run : (edit index fields).on ⟨view, d⟩ = (.ok edited, left)) :
    edited = none ∧ left = ⟨view, d⟩ ∨
    ∃ value new, edited = some value ∧ Follows view d blocks left.view left.document new [] ∧
      (Faithful view blocks → Faithful left.view new) ∧ indicesOf new = indicesOf blocks ∧
      left.view.collection.indices = view.collection.indices := by
  have spelled := run
  rw [on_edit] at spelled
  by_cases falsy : fields.isTruthy = false
  · simp only [falsy, if_true, Prod.mk.injEq, Except.ok.injEq] at spelled
    exact .inl ⟨spelled.1.symm, spelled.2.symm⟩
  have truthy : fields.isTruthy = true := by simpa using falsy
  cases held : view.collection.get? index with
  | none =>
    simp only [truthy, Bool.true_eq_false, if_false, held, Prod.mk.injEq, Except.ok.injEq] at spelled
    exact .inl ⟨spelled.1.symm, spelled.2.symm⟩
  | some found =>
    cases roots : OrderedMap.get? view.nodes index with
    | none => simp [falsy, held, roots] at spelled
    | some roots' =>
      cases first : roots'.head? with
      | none => simp [falsy, held, roots, first] at spelled
      | some anchor =>
        cases updated : found.update fields with
        | error cause => simp [falsy, held, roots, first, updated] at spelled
        | ok record =>
          cases drawn : view.draw record with
          | error cause =>
            obtain ⟨d', failed, -, -⟩ := ListView.renderRecord_error wf.grounded drawn
            simp [falsy, held, roots, first, updated, failed] at spelled
          | ok forest =>
            have there : index ∈ indicesOf blocks :=
              stands.keys_nodes.mem_iff.1 (OrderedMap.mem_keys_of_get? roots)
            obtain ⟨gone, there⟩ : ∃ gone, (index, gone) ∈ blocks := by simpa [indicesOf] using there
            obtain ⟨before, behind, rfl⟩ := List.append_of_mem there
            obtain ⟨d', plants, done, follows, drawn⟩ :=
              edit_follows stands wf truthy held updated drawn
            rw [done, Prod.mk.injEq, Except.ok.injEq] at run
            obtain ⟨rfl, rfl⟩ := run
            exact .inr ⟨_, _, rfl, follows, fun faithful => faithful.replace stands drawn _,
              by simp, Collection.indices_replace ..⟩

def ListView.without (view : ListView) (index : Nat) : ListView :=
  { view with
    collection := (view.collection.remove index).1
    nodes := OrderedMap.remove view.nodes index }

theorem Change.on_remove (absent : view.collection.get? index = none) :
    (remove index).on ⟨view, d⟩ = (none, ⟨view, d⟩) := by
  simp [remove, Collection.remove, absent]

theorem Change.on_remove_shown {roots : List NodeId} (held : view.collection.get? index = some record)
    (shown : OrderedMap.get? view.nodes index = some roots) :
    (remove index).on ⟨view, d⟩ =
      (some record.json, ⟨view.without index, d.removeNodes roots⟩) := by
  simp [remove, Collection.remove, held, shown, ListView.without]

theorem Change.on_remove_hidden (held : view.collection.get? index = some record)
    (hidden : index ∉ OrderedMap.keys view.nodes) :
    (remove index).on ⟨view, d⟩ = (some record.json, ⟨view.without index, d⟩) := by
  have missing := OrderedMap.get?_eq_none_iff.2 hidden
  simp [remove, Collection.remove, held, missing, ListView.without,
    OrderedMap.remove_of_not_mem hidden]

theorem Change.on_remove_held (held : view.collection.get? index = some record) :
    (remove index).on ⟨view, d⟩ = (some record.json,
      ⟨view.without index, d.removeNodes ((OrderedMap.get? view.nodes index).getD [])⟩) := by
  cases shown : OrderedMap.get? view.nodes index with
  | none => exact on_remove_hidden held (OrderedMap.get?_eq_none_iff.1 shown)
  | some roots => exact on_remove_shown held shown

theorem mem_indices_without {other : Nat} (known : other ∈ view.collection.indices)
    (differ : index ≠ other) : other ∈ (view.without index).collection.indices := by
  rw [ListView.without, Collection.indices_remove]
  exact List.mem_filter.2 ⟨known, by simpa using Ne.symm differ⟩

theorem Follows.discard (follows : Follows view₀ d₀ old view d (before ++ (index, gone) :: behind) loose) :
    Follows view₀ d₀ old (view.without index) (d.removeNodes (gone.map Plant.root))
      (before ++ behind) loose := by
  have stands := follows.stands
  have layout := follows.layout
  simp only [plantsOf_append, plantsOf_cons] at layout
  have layout := layout.remove
  have keys := stands.keys
  have fewer : (indicesOf (before ++ behind)).Sublist (indicesOf (before ++ (index, gone) :: behind)) := by
    simp
  refine ⟨.of_layout (by simpa using layout) follows.container (stands.sound.remove index)
    stands.rooted ?_ (keys.sublist fewer) ?_ ?_, by simpa using layout, ?_, follows.next⟩
  · refine (OrderedMap.remove_perm stands.remembered index).trans ?_
    rw [← keys_rootsOf] at keys
    simp only [rootsOf_append, rootsOf_cons] at keys ⊢
    rw [OrderedMap.remove_append_of_nodup keys]
  · intro other inside
    obtain ⟨block, there, rfl⟩ := List.mem_map.1 inside
    exact mem_indices_without (stands.known _ (fewer.mem inside)) (keys_split keys there)
  · intro other others inside
    exact stands.marked other others (mem_replaced.2 (.inr inside))
  · rw [follows.same]
    rfl

theorem Faithful.without (faithful : Faithful view blocks) (apart : ∀ block ∈ old, index ≠ block.1)
    (fewer : ∀ block ∈ old, block ∈ blocks) : Faithful (view.without index) old := by
  intro other others inside
  obtain ⟨found, held, same⟩ := faithful other others (fewer _ inside)
  exact ⟨found, by rw [ListView.without, Collection.get?_remove, if_neg (apart _ inside), held], same⟩

theorem indicesOf_filter_of_apart (apart : ∀ block ∈ blocks, index ≠ block.1) :
    (indicesOf blocks).filter (· ≠ index) = indicesOf blocks := by
  apply List.filter_eq_self.2
  intro other inside
  obtain ⟨block, there, rfl⟩ := List.mem_map.1 inside
  simpa using Ne.symm (apart block there)

theorem Follows.forget (follows : Follows view₀ d₀ old view d blocks loose)
    (hidden : index ∉ indicesOf blocks) : Follows view₀ d₀ old (view.without index) d blocks loose := by
  have stands := follows.stands
  refine ⟨.of_layout follows.layout follows.container (stands.sound.remove index)
    stands.rooted ?_ stands.keys ?_ stands.marked, follows.layout, ?_,
    follows.next⟩
  · rw [ListView.without, OrderedMap.remove_of_not_mem (stands.not_mem_keys_nodes hidden)]
    exact stands.remembered
  · intro other inside
    exact mem_indices_without (stands.known other inside) fun same => hidden (same ▸ inside)
  · rw [follows.same]
    rfl

theorem Change.remove_follows (stands : Stands view d blocks) (wf : d.WellFormed)
    (held : view.collection.get? index = some record) :
    ∃ d' new, (remove index).on ⟨view, d⟩ = (some record.json, ⟨view.without index, d'⟩) ∧
      Follows view d blocks (view.without index) d' new [] ∧
      (Faithful view blocks → Faithful (view.without index) new) ∧
      indicesOf new = (indicesOf blocks).filter (· ≠ index) := by
  have follows := stands.follows wf
  by_cases shown : index ∈ indicesOf blocks
  · obtain ⟨gone, there⟩ : ∃ gone, (index, gone) ∈ blocks := by simpa [indicesOf] using shown
    obtain ⟨before, behind, rfl⟩ := List.append_of_mem there
    have apart : ∀ block ∈ before ++ behind, index ≠ block.1 := fun block inside =>
      keys_split stands.keys inside
    refine ⟨_, before ++ behind, on_remove_shown held (stands.get?_nodes there), follows.discard,
      fun faithful => faithful.without apart fun block inside => mem_replaced.2 (.inr inside), ?_⟩
    have stay : indicesOf (before ++ behind) = (indicesOf (before ++ behind)).filter (· ≠ index) :=
      (indicesOf_filter_of_apart apart).symm
    rw [stay]
    simp
  · have apart : ∀ block ∈ blocks, index ≠ block.1 := fun block inside same =>
      shown (same ▸ List.mem_map_of_mem inside)
    exact ⟨d, blocks, on_remove_hidden held (stands.not_mem_keys_nodes shown), follows.forget shown,
      fun faithful => faithful.without apart fun _ inside => inside,
      (indicesOf_filter_of_apart apart).symm⟩

theorem Change.on_removeAll :
    removeAll.on ⟨view, d⟩ =
      ((), ⟨{ view with collection := view.collection.clear, nodes := [] },
        d.clearChildren view.container⟩) := rfl

theorem Change.removeAll_follows (stands : Stands view d blocks) (wf : d.WellFormed) :
    Follows view d blocks { view with collection := view.collection.clear, nodes := [] }
      (d.clearChildren view.container) [] [] := by
  have layout := (stands.follows wf).layout.clear
  refine ⟨.of_layout layout rfl Collection.Sound.clear stands.rooted ?_ ?_ ?_ ?_, layout, rfl,
    Nat.le_refl _⟩ <;> simp [rootsOf, indicesOf]

end LiveList
