import LiveList.Proofs.View.Drawing

namespace LiveList.Patch

open Document (Grows Plant)
open Json (Value)

variable {α : Type} {view : ListView} {d : Document}

def Careful (patch : Patch α) : Prop :=
  ∀ view d, d.Grounded → ∀ cause left, patch.on ⟨view, d⟩ = (.error cause, left) →
    left.view = view ∧ left.document.Grounded ∧ d.SameNodes left.document

theorem renderRecord_cases (view : ListView) (record : Record) (grounded : d.Grounded) :
    (∃ d' cause, view.renderRecord record d = (d', .error cause) ∧ d'.Grounded ∧
      d.SameNodes d') ∨
    ∃ d' plants, view.renderRecord record d = (d', .ok (plants.map Plant.root)) ∧
      Grows d none plants d' := by
  cases drawn : view.draw record with
  | error cause =>
    obtain ⟨d', run, grounded', same⟩ := ListView.renderRecord_error grounded drawn
    exact .inl ⟨d', _, run, grounded', same⟩
  | ok forest =>
    obtain ⟨d', plants, run, grows, -⟩ := ListView.renderRecord_ok grounded drawn
    exact .inr ⟨d', plants, run, grows⟩

theorem renderAll_cases {κ : Type} (view : ListView) (items : List (κ × Record))
    (grounded : d.Grounded) :
    (∃ d' cause, (renderAll items []).on ⟨view, d⟩ = (.error cause, ⟨view, d'⟩) ∧
      d'.Grounded ∧ d.SameNodes d') ∨
    ∃ d' blocks, (renderAll items []).on ⟨view, d⟩ = (.ok (rootsOf blocks), ⟨view, d'⟩) ∧
      Grows d none (plantsOf blocks) d' := by
  have none : Grows d none (plantsOf ([] : List (κ × List Plant))) d := .refl grounded _
  cases drawn : view.drawAll items with
  | error cause =>
    obtain ⟨d', run, grounded', same⟩ := on_renderAll_error items grounded none drawn
    exact .inl ⟨d', _, run, grounded', same⟩
  | ok forests =>
    obtain ⟨d', blocks, run, grows, -⟩ := on_renderAll_ok items none drawn
    exact .inr ⟨d', blocks, run, grows⟩

theorem insert_careful (record : Record) (place : Place) : (insert record place).Careful := by
  intro view d grounded cause left run
  rcases renderRecord_cases view (record.withIndex view.collection.next) grounded with
    ⟨d', other, failed, grounded', same⟩ | ⟨d', plants, rendered, -⟩
  · rw [on_insert_error place failed, Prod.mk.injEq] at run
    exact run.2 ▸ ⟨rfl, grounded', same⟩
  · simp [on_insert_ok place rendered] at run

theorem insertAll_careful (items : List Value) : (insertAll items).Careful := by
  intro view d grounded cause left run
  cases created : items.mapM view.model.create with
  | error other =>
    rw [on_insertAll_of_create created, Prod.mk.injEq] at run
    exact run.2 ▸ ⟨rfl, grounded, fun _ => rfl⟩
  | ok records =>
    rcases renderAll_cases view
        ((numbered view.collection records).map fun record => (record, record)) grounded with
      ⟨d', other, failed, grounded', same⟩ | ⟨d', blocks, drawn, -⟩
    · rw [on_insertAll_error created failed, Prod.mk.injEq] at run
      exact run.2 ▸ ⟨rfl, grounded', same⟩
    · simp [on_insertAll_ok created drawn] at run

theorem edit_careful (index : Nat) (fields : Value) : (edit index fields).Careful := by
  intro view d grounded cause left run
  rw [on_edit] at run
  split at run
  · simp at run
  split at run
  · simp at run
  split at run
  · rw [Prod.mk.injEq] at run
    exact run.2 ▸ ⟨rfl, grounded, fun _ => rfl⟩
  split at run
  · rw [Prod.mk.injEq] at run
    exact run.2 ▸ ⟨rfl, grounded, fun _ => rfl⟩
  case h_2 record _ =>
    rcases renderRecord_cases view record grounded with
      ⟨d', other, failed, grounded', same⟩ | ⟨d', plants, rendered, -⟩
    · simp only [failed, Prod.mk.injEq] at run
      exact run.2 ▸ ⟨rfl, grounded', same⟩
    · simp [rendered] at run

theorem rerender_careful (order : List Nat) : (rerender order).Careful := by
  intro view d grounded cause left run
  rcases renderAll_cases view (view.collection.listed order) grounded with
    ⟨d', other, failed, grounded', same⟩ | ⟨d', blocks, drawn, -⟩
  · rw [on_rerender_error failed, Prod.mk.injEq] at run
    exact run.2 ▸ ⟨rfl, grounded', same⟩
  · simp [on_rerender_ok drawn] at run

theorem showOnly_careful (matched : List Value) : (showOnly matched).Careful := by
  intro view d grounded cause left run
  rw [on_showOnly] at run
  split at run
  case h_1 other left' failed =>
    rw [Prod.mk.injEq] at run
    exact run.2 ▸ rerender_careful _ view d grounded other left' failed
  case h_2 => simp at run

theorem arrange_careful (order : List Nat) : (arrange order).Careful := by
  intro view d grounded cause left run
  rw [on_arrange] at run
  split at run
  case h_1 other left' failed =>
    rw [Prod.mk.injEq] at run
    exact run.2 ▸ rerender_careful _ view d grounded other left' failed
  case h_2 => simp at run

theorem sort_careful : sort.Careful := by
  intro view d grounded cause left run
  rw [on_sort] at run
  exact arrange_careful _ view d grounded cause left run

theorem updateView_careful : updateView.Careful := by
  intro view d grounded cause left run
  rw [on_updateView] at run
  exact rerender_careful _ view d grounded cause left run

end LiveList.Patch
