import LiveList.Proofs.Page.Neighbours

namespace LiveList

open Document (Plant)
open Json (Value)
open Markup (Tree)

def ListView.Shows (view : ListView) (index : Nat) : Prop :=
  (OrderedMap.get? view.nodes index).getD [] ≠ []

theorem ListView.Arranges.shows_iff {view : ListView} {d : Document} {items : Items Plant}
    (arranges : view.Arranges d items) (index : Nat) :
    view.Shows index ↔ (view.sketch items).items.of index ≠ [] := by
  rw [Shows, arranges.remembered, sketch, Items.of_map, Ne, List.map_eq_nil_iff, Ne,
    List.map_eq_nil_iff]

theorem ListView.draw_ne_nil {view : ListView} {record : Record} {forest : List Tree}
    (rooted : view.template.hasElementRoot) (drawn : view.draw record = .ok forest) : forest ≠ [] := by
  rintro rfl
  rw [draw] at drawn
  split at drawn
  · cases drawn
  case h_2 bare bareEq =>
    have element := Template.any_isElementTree_trees rooted bareEq
    split at drawn
    · cases drawn
      cases element
    · rw [Except.ok.injEq, List.map_eq_nil_iff] at drawn
      subst drawn
      cases element

theorem ListView.drawAll_ne_nil {view : ListView} {κ : Type} {items : List (κ × Record)}
    {forests : List (κ × List Tree)} (rooted : view.template.hasElementRoot)
    (drawn : view.drawAll items = .ok forests) : ∀ block ∈ forests, block.2 ≠ [] := by
  rintro ⟨key, forest⟩ inside
  obtain ⟨record, -, drawn⟩ := exists_of_mem_drawAll drawn inside
  exact draw_ne_nil rooted drawn

theorem Items.of_addAll_ne_nil {α : Type} {items : Items α} {blocks : List (Nat × List α)} {index : Nat}
    (filled : ∀ block ∈ blocks, block.2 ≠ [])
    (its : index ∈ blocks.map Prod.fst ∨ items.of index ≠ []) : (items.addAll blocks).of index ≠ [] := by
  induction blocks generalizing items with
  | nil => simpa [addAll] using its
  | cons block rest ih =>
    rw [addAll, List.foldl_cons, ← addAll]
    refine ih (fun other inside => filled other (List.mem_cons_of_mem _ inside)) ?_
    rw [of_add]
    rw [List.map_cons, List.mem_cons] at its
    by_cases first : block.1 = index
    · rw [if_pos first]
      exact .inr (filled block List.mem_cons_self)
    · rw [if_neg first]
      rcases its with (same | later) | before
      · exact absurd same.symm first
      · exact .inl later
      · exact .inr before

theorem Sketch.addAll_view (view : ListView) (items items' : Items Tree)
    (blocks : List (Record × List Tree)) :
    (addAll blocks ⟨view, items⟩).1 = (addAll blocks ⟨view, items'⟩).1 ∧
      (addAll blocks ⟨view, items⟩).2.view = (addAll blocks ⟨view, items'⟩).2.view := by
  induction blocks generalizing view items items' with
  | nil => exact ⟨rfl, rfl⟩
  | cons block rest ih =>
    obtain ⟨indices, views⟩ := ih { view with
      collection := Place.back.added view.collection block.1 }
      (items.add .back view.collection.next block.2) (items'.add .back view.collection.next block.2)
    exact ⟨congrArg (view.collection.next :: ·) indices, views⟩

theorem Stroke.sketch_view (stroke : Stroke) (view : ListView) (items items' : Items Tree)
    (edits : ∀ index fields, stroke = .edit index fields → index ∈ view.collection.indices →
      (items.of index = [] ↔ items'.of index = [])) :
    (stroke.sketch ⟨view, items⟩).1 = (stroke.sketch ⟨view, items'⟩).1 ∧
      (stroke.sketch ⟨view, items⟩).2.view = (stroke.sketch ⟨view, items'⟩).2.view := by
  cases stroke with
  | insert record place =>
    simp only [Stroke.sketch, Sketch.attempt, Sketch.insert]
    cases view.draw (record.withIndex view.collection.next) <;> exact ⟨rfl, rfl⟩
  | insertAll values =>
    simp only [Stroke.sketch, Sketch.attempt, Sketch.insertAll]
    cases values.mapM view.model.create with
    | error cause => exact ⟨rfl, rfl⟩
    | ok records =>
      dsimp only
      cases view.drawAll ((Patch.numbered view.collection records).map fun record => (record, record)) with
      | error cause => exact ⟨rfl, rfl⟩
      | ok forests =>
        obtain ⟨indices, views⟩ := Sketch.addAll_view view items items' forests
        simp only [indices, views, and_self]
  | remove index =>
    simp only [Stroke.sketch, Sketch.remove]
    cases view.collection.get? index <;> exact ⟨rfl, rfl⟩
  | removeAll => exact ⟨rfl, rfl⟩
  | edit index fields =>
    simp only [Stroke.sketch, Sketch.attempt, Sketch.edit]
    by_cases falsy : fields.isTruthy = false
    · rw [if_pos falsy, if_pos falsy]
      exact ⟨rfl, rfl⟩
    rw [if_neg falsy, if_neg falsy]
    cases held : view.collection.get? index with
    | none => exact ⟨rfl, rfl⟩
    | some record =>
      have same := edits index fields rfl (Collection.mem_indices.2 ⟨record, held⟩)
      by_cases hidden : items.of index = []
      · simp only [if_pos hidden, if_pos (same.1 hidden), and_self]
      · simp only [if_neg hidden, if_neg (mt same.2 hidden)]
        cases record.update fields with
        | error cause => exact ⟨rfl, rfl⟩
        | ok updated =>
          dsimp only
          cases view.draw updated <;> exact ⟨rfl, rfl⟩
  | showOnly since matched =>
    simp only [Stroke.sketch, Sketch.attempt, Sketch.showOnly, Sketch.rerender]
    cases view.drawAll (view.collection.listed (Patch.matchedOrder view.collection matched)) <;>
      exact ⟨rfl, rfl⟩
  | arrange order =>
    simp only [Stroke.sketch, Sketch.attempt, Sketch.arrange, Sketch.rerender]
    cases view.drawAll (view.collection.listed (Patch.arrangedOrder view.collection order)) <;>
      exact ⟨rfl, rfl⟩
  | sort =>
    simp only [Stroke.sketch, Sketch.attempt, Sketch.sort, Sketch.arrange, Sketch.rerender]
    cases view.drawAll (view.collection.listed (Patch.arrangedOrder view.collection _)) <;>
      exact ⟨rfl, rfl⟩
  | updateView =>
    simp only [Stroke.sketch, Sketch.attempt, Sketch.updateView, Sketch.rerender]
    cases view.drawAll (view.collection.listed view.collection.indices) <;> exact ⟨rfl, rfl⟩
  | addFilter name filter => exact ⟨rfl, rfl⟩

namespace Sketch

structure Whole (s : Sketch) : Prop where
  rooted : s.view.template.hasElementRoot
  sound : s.view.collection.Sound
  shown : ∀ index ∈ s.view.collection.indices, s.items.of index ≠ []

variable {s left : Sketch}

namespace Whole

theorem withRecord (whole : s.Whole) (place : Place) (record : Record) {forest : List Tree}
    (filled : forest ≠ []) : (s.withRecord place record forest).Whole where
  rooted := whole.rooted
  sound := whole.sound.added place record
  shown index inside := by
    simp only [Sketch.withRecord] at inside ⊢
    rw [Items.of_add]
    split
    · exact filled
    · rename_i differ
      rw [whole.sound.indices_added, (place.laid_perm ..).mem_iff, List.mem_cons] at inside
      exact whole.shown index (inside.resolve_left (Ne.symm differ))

theorem addAll (whole : s.Whole) {blocks : List (Record × List Tree)}
    (filled : ∀ block ∈ blocks, block.2 ≠ []) : (s.addAll blocks).2.Whole := by
  induction blocks generalizing s with
  | nil => exact whole
  | cons block rest ih =>
    exact ih (whole.withRecord .back block.1 (filled block List.mem_cons_self))
      fun other inside => filled other (List.mem_cons_of_mem _ inside)

theorem rerender (whole : s.Whole) {order : List Nat}
    (all : ∀ index ∈ s.view.collection.indices, index ∈ order)
    (run : s.rerender order = .ok ((), left)) : left.Whole := by
  rw [Sketch.rerender] at run
  split at run
  · cases run
  case h_2 forests drawn =>
    cases run
    refine ⟨whole.rooted, whole.sound, fun index inside => ?_⟩
    refine Items.of_addAll_ne_nil (ListView.drawAll_ne_nil whole.rooted drawn) (.inl ?_)
    obtain ⟨record, held⟩ := Collection.mem_indices.1 inside
    rw [ListView.keys_drawAll drawn, Collection.listed, List.mem_map]
    exact ⟨(index, record), List.mem_filterMap.2 ⟨index, all index inside, by rw [held]; rfl⟩, rfl⟩

theorem arrange (whole : s.Whole) {order : List Nat} {values : List Value}
    (run : s.arrange order = .ok (values, left)) : left.Whole := by
  have all : ∀ index ∈ s.view.collection.indices,
      index ∈ Patch.arrangedOrder s.view.collection order := fun index inside => by
    by_cases listed : index ∈ order.filter s.view.collection.contains
    · exact List.mem_append_left _ listed
    · exact List.mem_append_right _ (List.mem_filter.2 ⟨inside, by simpa [imp_iff_not_or] using listed⟩)
  rw [Sketch.arrange] at run
  dsimp only at run
  split at run
  · cases run
  case h_2 drawn redrawn =>
    cases run
    have whole' := whole.rerender all redrawn
    refine ⟨whole'.rooted, whole'.sound.reorder _, fun index inside => whole'.shown index ?_⟩
    exact ((Collection.records_reorder_perm whole'.sound _).map Prod.fst).mem_iff.1 inside

theorem insert (whole : s.Whole) {record : Record} {place : Place} {added : Nat × Value}
    (run : s.insert record place = .ok (added, left)) : left.Whole := by
  rw [Sketch.insert] at run
  dsimp only at run
  split at run
  · cases run
  case h_2 forest drawn =>
    cases run
    exact whole.withRecord place record (ListView.draw_ne_nil whole.rooted drawn)

theorem insertAll (whole : s.Whole) {values : List Value} {added : List Nat × Value}
    (run : s.insertAll values = .ok (added, left)) : left.Whole := by
  rw [Sketch.insertAll] at run
  split at run
  · cases run
  · dsimp only at run
    split at run
    · cases run
    case h_2 forests drawn =>
      cases run
      exact whole.addAll (ListView.drawAll_ne_nil whole.rooted drawn)

theorem remove (whole : s.Whole) (index : Nat) : (s.remove index).2.Whole := by
  rw [Sketch.remove]
  split
  · exact whole
  · refine ⟨whole.rooted, whole.sound.remove index, fun other inside => ?_⟩
    dsimp only at inside ⊢
    rw [Collection.indices_remove, List.mem_filter, decide_eq_true_eq] at inside
    rw [Items.of_without, if_neg (Ne.symm inside.2)]
    exact whole.shown other inside.1

theorem edit (whole : s.Whole) {index : Nat} {fields : Value} {edited : Option Value}
    (run : s.edit index fields = .ok (edited, left)) : left.Whole := by
  rw [Sketch.edit] at run
  split at run
  · cases run
    exact whole
  split at run
  · cases run
    exact whole
  case h_2 record held =>
    split at run
    · cases run
    split at run
    · cases run
    case h_2 updated written =>
      split at run
      · cases run
      case h_2 forest drawn =>
        cases run
        refine ⟨whole.rooted, whole.sound.replace updated ((whole.sound.carries held).update written),
          fun other inside => ?_⟩
        dsimp only at inside ⊢
        rw [Collection.indices_replace] at inside
        rw [Items.of_replace]
        split
        · exact ListView.draw_ne_nil whole.rooted drawn
        · exact whole.shown other inside

theorem attempt (whole : s.Whole) {α : Type} {tries : Sketch → Except Error (α × Sketch)}
    (each : ∀ a left, tries s = .ok (a, left) → left.Whole) : (attempt tries s).2.Whole := by
  rw [Sketch.attempt]
  split
  · exact whole
  case h_2 a left run => exact each a left run

/-- Only a filter hides records. -/
theorem stroke (whole : s.Whole) (stroke : Stroke)
    (keeps : ∀ since matched, stroke ≠ .showOnly since matched) : (stroke.sketch s).2.Whole := by
  cases stroke with
  | insert record place => exact whole.attempt fun _ _ run => whole.insert run
  | insertAll values => exact whole.attempt fun _ _ run => whole.insertAll run
  | remove index => exact whole.remove index
  | removeAll =>
    exact ⟨whole.rooted, Collection.Sound.clear, fun _ inside => absurd inside List.not_mem_nil⟩
  | edit index fields => exact whole.attempt fun _ _ run => whole.edit run
  | showOnly since matched => exact absurd rfl (keeps since matched)
  | arrange order => exact whole.attempt fun _ _ run => whole.arrange run
  | sort => exact whole.attempt fun _ _ run => whole.arrange run
  | updateView => exact whole.attempt fun _ _ run => whole.rerender (fun _ => id) run
  | addFilter name filter => exact ⟨whole.rooted, whole.sound, whole.shown⟩

end Whole

end Sketch

end LiveList
