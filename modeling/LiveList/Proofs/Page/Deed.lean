import LiveList.Proofs.Page.Stroke
import LiveList.Proofs.View.Redraw

namespace LiveList

open Event (Notification)
open Json (Value)

namespace Collection

def addedAll (c : Collection) (records : List Record) : Collection :=
  records.foldl Place.back.added c

structure Gains (c : Collection) (records : List Record) (c' : Collection) : Prop where
  sound : c'.Sound
  next : c'.next = c.next + records.length
  get? : ∀ index, c'.get? index =
    ((if c.next ≤ index then records[index - c.next]? else none).map (·.withIndex index)).or
      (c.get? index)

variable {c c' : Collection}

theorem get?_added_next (c : Collection) (place : Place) (record : Record) :
    (place.added c record).get? c.next = some (record.withIndex c.next) := by
  cases place with
  | back => exact (OrderedMap.get?_put ..).trans (if_pos rfl)
  | front => exact if_pos rfl

namespace Sound

theorem gains_added (sound : c.Sound) (place : Place) (record : Record) :
    c.Gains [record] (place.added c record) where
  sound := sound.added place record
  next := next_added place record
  get? index := by
    rw [sound.get?_added]
    by_cases same : c.next = index
    · subst same
      simp
    · rw [if_neg same]
      by_cases above : c.next ≤ index
      · have beyond : [record][index - c.next]? = none :=
          List.getElem?_eq_none (by rw [List.length_singleton]; omega)
        simp [beyond]
      · simp [above]

theorem gains_addedAll (sound : c.Sound) (records : List Record) :
    c.Gains records (c.addedAll records) := by
  induction records generalizing c with
  | nil => exact ⟨sound, rfl, fun index => by simp [addedAll]⟩
  | cons record rest ih =>
    have first := sound.gains_added .back record
    obtain ⟨sound', next, get?⟩ := ih first.sound
    refine ⟨sound', ?_, fun index => ?_⟩
    · rw [addedAll, List.foldl_cons, ← addedAll, next, first.next]
      simp [Nat.add_assoc, Nat.add_comm 1]
    · rw [addedAll, List.foldl_cons, ← addedAll, get?, first.get?, first.next, List.length_singleton]
      rcases Nat.lt_trichotomy index c.next with below | rfl | above
      · have notAbove : ¬ c.next + 1 ≤ index := by omega
        simp [Nat.not_le.2 below, notAbove]
      · have notAbove : ¬ c.next + 1 ≤ c.next := by omega
        simp [notAbove]
      · have later : c.next + 1 ≤ index := by omega
        obtain ⟨offset, rfl⟩ := Nat.exists_eq_add_of_le later
        have back : c.next + 1 + offset - c.next = offset + 1 := by omega
        have shifted : c.next ≤ c.next + 1 + offset := by omega
        simp [shifted, back]

theorem records_addedAll (sound : c.Sound) (records : List Record) :
    (c.addedAll records).records = c.records ++ records.mapIdx fun offset record =>
      (c.next + offset, record.withIndex (c.next + offset)) := by
  induction records generalizing c with
  | nil => simp [addedAll]
  | cons record rest ih =>
    rw [addedAll, List.foldl_cons, ← addedAll, ih (sound.added .back record), sound.records_added,
      next_added, List.mapIdx_cons, Place.laid, List.append_assoc]
    simp only [List.singleton_append, Nat.add_zero, Nat.add_assoc, Nat.add_comm 1]

end Sound

end Collection

/-- What a stroke that takes effect makes of a collection, with its line in the journal and what it
says. -/
inductive Deed (model : Model) (c : Collection) :
    Stroke → Entry → Option Notification → Collection → Prop
  | insert (record : Record) (place : Place) :
      Deed model c (.insert record place) (.inserted [c.next])
        (some ⟨.push, (record.withIndex c.next).json⟩) (place.added c record)
  | insertAll {items : List Value} {records : List Record}
      (created : items.mapM model.create = .ok records) :
      Deed model c (.insertAll items) (.inserted (List.range' c.next records.length))
        (some ⟨.pushAll, .array (c.addedAll (Patch.numbered c records)).json⟩)
        (c.addedAll (Patch.numbered c records))
  | remove {index : Nat} {record : Record} (held : c.get? index = some record) :
      Deed model c (.remove index) (.removed index) (some ⟨.remove, record.json⟩)
        (c.remove index).1
  | removeAll : Deed model c .removeAll .cleared (some ⟨.removeAll, .null⟩) c.clear
  | edit {index : Nat} {fields : Value} {record updated : Record}
      (held : c.get? index = some record) (run : record.update fields = .ok updated) :
      Deed model c (.edit index fields) (.edited index) (some ⟨.edit, updated.json⟩)
        (c.replace index updated)
  | showOnly (since : Nat) (matched values : List Value) :
      Deed model c (.showOnly since matched) (.filtered since) (some ⟨.filter, .array values⟩) c
  | arrange (order brought : List Nat) :
      Deed model c (.arrange order) .sorted (some ⟨.sort, .array (c.reorder brought).json⟩)
        (c.reorder brought)
  | sort (brought : List Nat) :
      Deed model c .sort .sorted (some ⟨.sort, .array (c.reorder brought).json⟩) (c.reorder brought)
  | updateView : Deed model c .updateView .updated none c
  | addFilter (name : String) (filter : Template.Filter) :
      Deed model c (.addFilter name filter) (.registered name) none c

namespace Deed

variable {model : Model} {c c' : Collection} {stroke : Stroke} {entry : Entry}
  {said : Option Notification}

theorem sound (deed : Deed model c stroke entry said c') (sound : c.Sound) : c'.Sound := by
  cases deed with
  | insert record place => exact sound.added place record
  | insertAll _ => exact (sound.gains_addedAll _).sound
  | remove _ => exact sound.remove _
  | removeAll => exact Collection.Sound.clear
  | edit held run => exact sound.replace _ ((sound.carries held).update run)
  | showOnly | updateView | addFilter => exact sound
  | arrange order brought | sort brought => exact sound.reorder brought

theorem silent (deed : Deed model c stroke entry none c') : c' = c := by
  cases deed <;> rfl

end Deed

def Stroke.Does (stroke : Stroke) (view : ListView) (result : stroke.Result) (left : ListView) :
    Prop :=
  left.model = view.model ∧
    (stroke.line result = none ∧ stroke.said result = none ∧ left.collection = view.collection ∨
      ∃ entry, stroke.line result = some entry ∧
        Deed view.model view.collection stroke entry (stroke.said result) left.collection)

namespace Patch

variable {view : ListView} {d : Document} {κ : Type}

theorem on_renderAll (items : List (κ × Record)) (done : List (κ × List NodeId)) (view : ListView)
    (d : Document) : ∃ result d', (renderAll items done).on ⟨view, d⟩ = (result, ⟨view, d'⟩) ∧
      ∀ blocks, result = .ok blocks → blocks.map Prod.fst = done.map Prod.fst ++ items.map Prod.fst := by
  induction items generalizing d done with
  | nil => exact ⟨.ok done, d, rfl, by rintro _ ⟨⟩; simp⟩
  | cons item rest ih =>
    obtain ⟨key, record⟩ := item
    rw [renderAll, on_bind, on_tryCatch, on_render]
    generalize view.renderRecord record d = rendered
    obtain ⟨d', cause | roots⟩ := rendered
    · exact ⟨.error cause, _, rfl, by rintro _ ⟨⟩⟩
    · obtain ⟨result, d'', run, keys⟩ := ih (done ++ [(key, roots)]) d'
      refine ⟨result, d'', run, fun blocks isOk => ?_⟩
      rw [keys blocks isOk]
      simp

theorem on_rerender (order : List Nat) (view : ListView) (d : Document) :
    ∃ result left, (rerender order).on ⟨view, d⟩ = (result, left) ∧
      left.view.model = view.model ∧ left.view.collection = view.collection := by
  obtain ⟨result, d', run, -⟩ := on_renderAll (view.collection.listed order) [] view d
  cases result with
  | error cause => exact ⟨_, _, on_rerender_error run, rfl, rfl⟩
  | ok rendered => exact ⟨_, _, on_rerender_ok run, rfl, rfl⟩

end Patch

namespace Change

theorem on_addAll (rest : List (Record × List NodeId)) (scene : Scene) :
    ((addAll rest).on scene).1 = List.range' scene.view.collection.next rest.length ∧
      ((addAll rest).on scene).2.view.model = scene.view.model ∧
      ((addAll rest).on scene).2.view.collection =
        scene.view.collection.addedAll (rest.map Prod.fst) := by
  induction rest generalizing scene with
  | nil => exact ⟨rfl, rfl, rfl⟩
  | cons block rest ih =>
    obtain ⟨record, roots⟩ := block
    obtain ⟨indices, model, collection⟩ := ih ⟨scene.view.withRecord .back record roots,
      Place.hung .back scene.view.container roots scene.document⟩
    rw [on_addAll_cons]
    refine ⟨?_, model, collection⟩
    rw [List.length_cons, List.range'_succ]
    exact congrArg _ indices

end Change

namespace Stroke

variable {view : ListView} {d : Document}

theorem does_nothing {stroke : Stroke} {result : stroke.Result} {left : ListView}
    (line : stroke.line result = none) (said : stroke.said result = none)
    (same : left = view) : stroke.Does view result left :=
  same ▸ ⟨rfl, .inl ⟨line, said, rfl⟩⟩

theorem insert_does (record : Record) (place : Place) {result : (insert record place).Result}
    {left : Scene} (run : (insert record place).change.on ⟨view, d⟩ = (result, left)) :
    (insert record place).Does view result left.view := by
  have run : (Patch.insert record place).on ⟨view, d⟩ = (result, left) := run
  generalize rendered :
    view.renderRecord (record.withIndex view.collection.next) d = outcome at *
  obtain ⟨d', cause | roots⟩ := outcome
  · cases (Patch.on_insert_error place rendered).symm.trans run
    exact does_nothing rfl rfl rfl
  · cases (Patch.on_insert_ok place rendered).symm.trans run
    refine ⟨rfl, .inr ⟨_, rfl, ?_⟩⟩
    simp only [said, Collection.get?_added_next, Option.map_some, Option.getD_some]
    exact .insert record place

theorem insertAll_does (items : List Value) {result : (insertAll items).Result}
    {left : Scene} (run : (insertAll items).change.on ⟨view, d⟩ = (result, left)) :
    (insertAll items).Does view result left.view := by
  have run : (Patch.insertAll items).on ⟨view, d⟩ = (result, left) := run
  cases created : items.mapM view.model.create with
  | error cause =>
    cases (Patch.on_insertAll_of_create created).symm.trans run
    exact does_nothing rfl rfl rfl
  | ok records =>
    obtain ⟨drawn, d', drawing, keys⟩ := Patch.on_renderAll
      ((Patch.numbered view.collection records).map fun record => (record, record)) [] view d
    cases drawn with
    | error cause =>
      cases (Patch.on_insertAll_error created drawing).symm.trans run
      exact does_nothing rfl rfl rfl
    | ok rendered =>
      have listed : rendered.map Prod.fst = Patch.numbered view.collection records := by
        have diagonal : (Prod.fst ∘ fun record : Record => (record, record)) = id := rfl
        simpa [diagonal] using keys rendered rfl
      have length : rendered.length = records.length := by
        rw [← List.length_map Prod.fst, listed, Patch.numbered, List.length_mapIdx]
      obtain ⟨indices, model, collection⟩ := Change.on_addAll rendered ⟨view, d'⟩
      cases (Patch.on_insertAll_ok created drawing).symm.trans run
      refine ⟨model, .inr ⟨_, rfl, ?_⟩⟩
      simp only [said]
      rw [indices, collection, listed, length]
      exact .insertAll created

theorem remove_does (index : Nat) {result : (remove index).Result} {left : Scene}
    (run : (remove index).change.on ⟨view, d⟩ = (result, left)) :
    (remove index).Does view result left.view := by
  have run : (Change.remove index).on ⟨view, d⟩ = (result, left) := run
  cases held : view.collection.get? index with
  | none =>
    cases (Change.on_remove held).symm.trans run
    exact does_nothing rfl rfl rfl
  | some record =>
    cases (Change.on_remove_held held).symm.trans run
    exact ⟨rfl, .inr ⟨_, rfl, .remove held⟩⟩

theorem edit_does (index : Nat) (fields : Value) {result : (edit index fields).Result}
    {left : Scene} (run : (edit index fields).change.on ⟨view, d⟩ = (result, left)) :
    (edit index fields).Does view result left.view := by
  have run : (Patch.edit index fields).on ⟨view, d⟩ = (result, left) := run
  rw [Patch.on_edit] at run
  split at run
  · cases run
    exact does_nothing rfl rfl rfl
  split at run
  · cases run
    exact does_nothing rfl rfl rfl
  case h_2 record held =>
    split at run
    · cases run
      exact does_nothing rfl rfl rfl
    split at run
    · cases run
      exact does_nothing rfl rfl rfl
    case h_2 updated given =>
      split at run
      · cases run
        exact does_nothing rfl rfl rfl
      · cases run
        exact ⟨rfl, .inr ⟨_, rfl, .edit held given⟩⟩

theorem arrange_run {order : List Nat} {result : Except Error (List Value)} {left : Scene}
    (run : (Patch.arrange order).on ⟨view, d⟩ = (result, left)) : left.view.model = view.model ∧
      ((∃ cause, result = .error cause ∧ left.view.collection = view.collection) ∨
        ∃ brought, result = .ok (view.collection.reorder brought).json ∧
          left.view.collection = view.collection.reorder brought) := by
  rw [Patch.on_arrange] at run
  obtain ⟨redrawn, mid, drawing, model, collection⟩ :=
    Patch.on_rerender (Patch.arrangedOrder view.collection order) view d
  rw [drawing] at run
  cases redrawn with
  | error cause =>
    cases run
    exact ⟨model, .inl ⟨cause, rfl, collection⟩⟩
  | ok _ =>
    cases run
    exact ⟨model, .inr ⟨_, by rw [collection],
      congrArg (Collection.reorder · (Patch.arrangedOrder view.collection order)) collection⟩⟩

/-- Every stroke leaves model and collection as they are or does its deed. -/
theorem does (stroke : Stroke) {result : stroke.Result} {left : Scene}
    (run : stroke.change.on ⟨view, d⟩ = (result, left)) : stroke.Does view result left.view := by
  cases stroke with
  | insert record place => exact insert_does record place run
  | insertAll items => exact insertAll_does items run
  | remove index => exact remove_does index run
  | removeAll =>
    cases Change.on_removeAll.symm.trans run
    exact ⟨rfl, .inr ⟨_, rfl, .removeAll⟩⟩
  | edit index fields => exact edit_does index fields run
  | showOnly since matched =>
    have run : (Patch.showOnly matched).on ⟨view, d⟩ = (result, left) := run
    obtain ⟨redrawn, mid, drawing, model, collection⟩ :=
      Patch.on_rerender (Patch.matchedOrder view.collection matched) view d
    rw [Patch.on_showOnly, drawing] at run
    cases redrawn with
    | error cause =>
      cases run
      exact ⟨model, .inl ⟨rfl, rfl, collection⟩⟩
    | ok _ =>
      cases run
      exact ⟨model, .inr ⟨_, rfl, collection ▸ .showOnly since matched _⟩⟩
  | arrange order =>
    obtain ⟨model, ⟨cause, rfl, collection⟩ | ⟨brought, rfl, collection⟩⟩ := arrange_run run
    · exact ⟨model, .inl ⟨rfl, rfl, collection⟩⟩
    · refine ⟨model, .inr ⟨_, rfl, ?_⟩⟩
      rw [collection]
      exact .arrange order brought
  | sort =>
    obtain ⟨model, ⟨cause, rfl, collection⟩ | ⟨brought, rfl, collection⟩⟩ :=
      arrange_run ((Patch.on_sort _).symm.trans run)
    · exact ⟨model, .inl ⟨rfl, rfl, collection⟩⟩
    · refine ⟨model, .inr ⟨_, rfl, ?_⟩⟩
      rw [collection]
      exact .sort brought
  | updateView =>
    have run : Patch.updateView.on ⟨view, d⟩ = (result, left) := run
    obtain ⟨redrawn, mid, drawing, model, collection⟩ :=
      Patch.on_rerender view.collection.indices view d
    rw [Patch.on_updateView, drawing] at run
    cases redrawn with
    | error cause =>
      cases run
      exact ⟨model, .inl ⟨rfl, rfl, collection⟩⟩
    | ok _ =>
      cases run
      exact ⟨model, .inr ⟨_, rfl, collection ▸ .updateView⟩⟩
  | addFilter name filter =>
    cases run
    exact ⟨rfl, .inr ⟨_, rfl, .addFilter name filter⟩⟩

end Stroke

end LiveList
