import LiveList.Proofs.Page.History
import LiveList.Proofs.Record.Restoring

namespace LiveList

open Document (Grows)
open Event (Hub)
open Json (Value Fields)

structure ListView.Alike (view view' : ListView) : Prop where
  model : view'.model = view.model
  template : view'.template = view.template
  filters : view'.filters = view.filters
  rawHtml : view'.rawHtml = view.rawHtml

theorem ListView.Alike.draw {view view' : ListView} (alike : view.Alike view') (record : Record) :
    view'.draw record = view.draw record := by
  rw [ListView.draw, ListView.draw, setting, setting, alike.template, alike.filters, alike.rawHtml]

theorem Record.Made.saves {model : Model} {record : Record} (made : record.Made model)
    (distinct : (OrderedMap.keys (model.defaults.getD [])).Nodup) : model.Saves record.attributes where
  defaults := by
    refine Page.bag_of_made (P := fun _ => model.defaults = some (model.defaults.getD [])) made ?_
      (fun _ _ => id) fun _ _ => id
    intro defaults has
    rw [has]
    rfl
  nodup := by
    refine Page.bag_of_made (P := fun bag => (OrderedMap.keys bag.attributes).Nodup) made ?_ ?_ ?_
    · intro defaults has
      rwa [has] at distinct
    · intro bag fields nodup
      rw [Bag.attributes_setAll]
      exact OrderedMap.nodup_keys_putAll nodup _
    · exact fun bag index nodup => OrderedMap.nodup_keys_put _ _ _ nodup
  whole name free absent := Page.default_of_made made free absent

theorem Page.History.saves {ℓ π κ : Type} {model : Model} {deeds : List (Call ℓ π κ × Entry)}
    {c : Collection} (history : Page.History model deeds c)
    (distinct : (OrderedMap.keys (model.defaults.getD [])).Nodup) :
    ∀ saved ∈ c.saves, model.Saves saved := by
  intro saved inside
  obtain ⟨record, listed, rfl⟩ := List.mem_map.1 inside
  obtain ⟨entry, held, rfl⟩ := List.mem_map.1 listed
  exact (history.made entry.1 entry.2 (history.sound.get?_iff.2 held)).saves distinct

namespace Collection

theorem saves_restored (model : Model) (saves : List Fields) :
    (empty.addedAll (Patch.numbered empty (saves.map model.restored))).saves =
      model.reindexed saves := by
  rw [Collection.saves, empty_sound.records_addedAll, Patch.numbered, Model.reindexed]
  refine List.ext_getElem (by simp [empty, OrderedMap.values]) fun place below below' => ?_
  simp [empty, OrderedMap.values, Record.withIndex_withIndex]

end Collection

namespace Patch

variable {view : ListView} {d : Document}

theorem on_insertAll (grounded : d.Grounded) {items : List Value} {records : List Record}
    (created : items.mapM view.model.create = .ok records) :
    match view.drawAll ((numbered view.collection records).map fun record => (record, record)) with
    | .error cause => ∃ left, (insertAll items).on ⟨view, d⟩ = (.error (.template cause), left)
    | .ok _ => ∃ payload left, (insertAll items).on ⟨view, d⟩ =
          (.ok (List.range' view.collection.next records.length, payload), left) ∧
        left.view.collection = view.collection.addedAll (numbered view.collection records) := by
  have start : Grows d none (plantsOf ([] : List (Record × List Document.Plant))) d :=
    .refl grounded _
  cases drawn : view.drawAll
    ((numbered view.collection records).map fun record => (record, record)) with
  | error cause =>
    obtain ⟨d', failed, -, -⟩ := on_renderAll_error _ grounded start drawn
    exact ⟨_, on_insertAll_error created failed⟩
  | ok forests =>
    obtain ⟨d', blocks, rendered, -, -⟩ := on_renderAll_ok _ start drawn
    obtain ⟨⟨indices, payload⟩, left, run⟩ : ∃ added left,
        (insertAll items).on ⟨view, d⟩ = (.ok added, left) := ⟨_, _, on_insertAll_ok created rendered⟩
    obtain ⟨-, ⟨line, -⟩ | ⟨entry, line, deed⟩⟩ := Stroke.insertAll_does items run
    · cases line
    · cases line
      have same : indices = List.range' view.collection.next records.length ∧
          left.view.collection = view.collection.addedAll (numbered view.collection records) := by
        generalize left.view.collection = after at deed ⊢
        cases deed with
        | insertAll created' =>
          cases created.symm.trans created'
          exact ⟨rfl, rfl⟩
      exact ⟨payload, left, same.1 ▸ run, same.2⟩

end Patch

namespace Page

variable {ℓ π κ σ α : Type} {page : Page ℓ σ} {list : Nat} {mounted : Mounted ℓ}

structure Unused (page : Page ℓ σ) (list : Nat) (mounted : Mounted ℓ) : Prop where
  held : page.held? list = some mounted
  grounded : page.document.Grounded
  empty : mounted.view.collection = Collection.empty
  silent : mounted.hub.listenersFor .pushAll = []

theorem unused_mount {builder : ListBuilder} {view : ListView} (consistent : page.document.Consistent)
    (built : builder.build page.document = .ok view) :
    Unused (page.mount (some view)) page.lists.length ⟨view, Hub.empty, [], true, 0⟩ := by
  obtain ⟨empty, -, -, attached⟩ := ListBuilder.build_ok built
  refine ⟨?_, consistent.grounded_of_attached attached, empty, rfl⟩
  rw [held?, list?_mount, if_pos rfl]
  rfl

namespace Unused

variable (unused : Unused page list mounted)
include unused

theorem pushAll {items : List Value} {records : List Record}
    (created : items.mapM mounted.view.model.create = .ok records) (behaviour : Behaviour ℓ π κ σ)
    (depth : Nat) :
    ∃ answer left, (perform behaviour (depth + 1) (.call list (.pushAll items))).run page =
        some (some answer, left) ∧
      match mounted.view.drawAll
        ((Patch.numbered Collection.empty records).map fun record => (record, record)) with
      | .error cause => answer = .error (.template cause)
      | .ok _ => answer = .ok (List.range records.length) ∧ ∃ now, left.list? list = some now ∧
        now.view.collection =
          Collection.empty.addedAll (Patch.numbered Collection.empty records) := by
  have began : (page.modifyList list fun m => { m with running := m.running + 1 }).list? list =
      some { mounted with running := mounted.running + 1 } :=
    list?_modifyList_self (list?_of_held? unused.held) _
  have answered {result left} (run : (Patch.insertAll items).on ⟨mounted.view, page.document⟩ =
      (result, left)) := answer_pushAll_run (behaviour.callbacks (perform behaviour depth))
    (patch_run began run _) (list?_modifyList_self began _) unused.silent
  have drawn := Patch.on_insertAll unused.grounded created
  rw [unused.empty] at drawn
  cases drawing : mounted.view.drawAll
    ((Patch.numbered Collection.empty records).map fun record => (record, record)) with
  | error cause =>
    rw [drawing] at drawn
    obtain ⟨left, run⟩ := drawn
    exact ⟨_, _, serve_call_some unused.held (answered run), rfl⟩
  | ok forests =>
    rw [drawing] at drawn
    obtain ⟨payload, left, run, collection⟩ := drawn
    let line := some (Entry.inserted (List.range' Collection.empty.next records.length))
    exact ⟨_, _, serve_call_some unused.held (answered run), congrArg _ List.range_eq_range'.symm,
      { mounted.after left.view line with running := mounted.running + 1 - 1 },
      list?_modifyList_self (list?_modifyList_self began _) _, collection⟩

end Unused

/-- What was saved of a list can be restored. Whatever was done to the list, pushing its JSON to an unused
list of the same model fails only where that list cannot draw it. Else that list has the same records in
the same order, but for their indices, and if its own JSON is pushed to another unused list that draws
alike, this one has just the same. The defaults are an object, so no field is in them twice. -/
theorem models_restored {behaviour : Behaviour ℓ π κ σ} {depth : Nat} {action : Action ℓ π κ σ α}
    {left : Page ℓ σ} {a : α} (there : page.list? list = some mounted)
    (bare : mounted.view.collection.records = []) (plain : mounted.view.model.hook = none)
    (distinct : (OrderedMap.keys (mounted.view.model.defaults.getD [])).Nodup)
    (run : (runAction (perform behaviour depth) action).run page = some (a, left)) :
    ∃ log, (actTraced (trace behaviour depth) action).run ⟨page, []⟩ = some (a, ⟨left, log⟩) ∧
      ((∀ record entry, (.pushRecord record, entry) ∈ deeds list log →
          record.Made mounted.view.model) →
        ∃ old, left.list? list = some old ∧
          ∀ (page' : Page ℓ σ) (list' : Nat) (new : Mounted ℓ), page'.Unused list' new →
            new.view.model = mounted.view.model →
          ∀ (behaviour' : Behaviour ℓ π κ σ) (depth' : Nat), ∃ answer left',
            (perform behaviour' (depth' + 1) (.call list' (.pushAll old.view.collection.json))).run page' =
              some (some answer, left') ∧
            match answer with
            | .error cause => ∃ reason, cause = .template reason
            | .ok _ => ∃ restored, left'.list? list' = some restored ∧
              Reindexed old.view.collection.json restored.view.collection.json ∧
              ∀ (page'' : Page ℓ σ) (list'' : Nat) (third : Mounted ℓ), page''.Unused list'' third →
                new.view.Alike third.view →
              ∀ (behaviour'' : Behaviour ℓ π κ σ) (depth'' : Nat), ∃ indices left'' again,
                (perform behaviour'' (depth'' + 1)
                  (.call list'' (.pushAll restored.view.collection.json))).run page'' =
                    some (some (.ok indices), left'') ∧
                left''.list? list'' = some again ∧
                again.view.collection.json = restored.view.collection.json) := by
  obtain ⟨log, traced, held⟩ := exists_history there bare plain run
  refine ⟨log, traced, fun made => ?_⟩
  obtain ⟨old, there', history⟩ := held made
  have each := history.saves distinct
  refine ⟨old, there', fun page' list' new unused isModel behaviour' depth' => ?_⟩
  rw [← isModel] at plain distinct each
  obtain ⟨answer, left', ran, shows⟩ :=
    unused.pushAll (Model.mapM_create_saves plain each) behaviour' depth'
  rw [← Collection.json_eq_saves] at ran
  refine ⟨answer, left', ran, ?_⟩
  cases drawn : new.view.drawAll ((Patch.numbered Collection.empty
    (old.view.collection.saves.map new.view.model.restored)).map fun record => (record, record)) with
  | error cause =>
    rw [drawn] at shows
    exact shows ▸ ⟨cause, rfl⟩
  | ok forests =>
    rw [drawn] at shows
    obtain ⟨rfl, restored, found, collection⟩ := shows
    -- The restored records have the saved attributes, each with its place as its index.
    have saves : restored.view.collection.saves = new.view.model.reindexed old.view.collection.saves :=
      collection ▸ Collection.saves_restored ..
    refine ⟨restored, found, ?_, fun page'' list'' third unused alike behaviour'' depth'' => ?_⟩
    · rw [Collection.json_eq_saves, Collection.json_eq_saves, saves]
      exact Model.reindexed_of_saves distinct each
    -- Saving them again takes over all of them, so the third list creates just these records.
    have created := Model.mapM_create_saves plain (Model.saves_reindexed distinct each)
    rw [Model.map_restored_reindexed distinct each, ← saves, ← alike.model] at created
    obtain ⟨answer, left'', ran, shows⟩ := unused.pushAll created behaviour'' depth''
    rw [← Collection.json_eq_saves] at ran
    rw [alike.model, ListView.drawAll_congr alike.draw, drawn] at shows
    obtain ⟨rfl, again, found, same⟩ := shows
    exact ⟨_, left'', again, ran, found, by rw [same, collection]⟩

def arrangeTexts : Action Unit Unit Unit Unit Unit :=
  .ask (pushText "a") fun _ =>
    .ask (.call 0 (.unshift (.object [("done", .bool true), ("index", .null), ("text", .string "b")])))
      fun _ => .done ()

theorem texts_distinct : (textsPage.list? 0).any fun mounted =>
    mounted.view.collection.records.isEmpty && mounted.view.model.hook.isNone &&
      decide (OrderedMap.keys (mounted.view.model.defaults.getD [])).Nodup := by
  decide +kernel

theorem texts_restorable :
    ((actTraced (trace idle 1) arrangeTexts).run ⟨textsPage, []⟩).any fun (_, traced) =>
      ((deeds 0 traced.log).all fun deed => match deed.1 with
        | .pushRecord _ => false
        | _ => true) &&
      (traced.page.list? 0).any fun old =>
        old.view.collection.indices == [1, 0] &&
        ((perform idle 1 (.call 0 (.pushAll old.view.collection.json))).run textsPage).any
          fun (answer, _) => match answer with
            | some (.ok indices) => indices == [0, 1]
            | _ => false := by
  decide +kernel

theorem unused_textsPage : ∃ mounted, textsPage.Unused 0 mounted := by
  obtain ⟨view, built⟩ := exists_texts_view
  have page : textsPage = (⟨textsDocument, [], ()⟩ : Page Unit Unit).mount (some view) := by
    rw [textsPage, built]
    rfl
  rw [page]
  exact ⟨_, unused_mount (Document.ofHtml_wellFormed _).coherent.toConsistent built⟩

theorem models_restored_texts : ∃ (mounted old restored again : Mounted Unit)
    (left first second : Page Unit Unit) (indices : List Nat), textsPage.Unused 0 mounted ∧
    (runAction (perform idle 1) arrangeTexts).run textsPage = some ((), left) ∧
    left.list? 0 = some old ∧ old.view.collection.indices = [1, 0] ∧
    (perform idle 1 (.call 0 (.pushAll old.view.collection.json))).run textsPage =
      some (some (.ok [0, 1]), first) ∧ first.list? 0 = some restored ∧
    Reindexed old.view.collection.json restored.view.collection.json ∧
    (perform idle 1 (.call 0 (.pushAll restored.view.collection.json))).run textsPage =
      some (some (.ok indices), second) ∧ second.list? 0 = some again ∧
    again.view.collection.json = restored.view.collection.json := by
  obtain ⟨mounted, there, holds⟩ := (Option.any_eq_true _ _).1 texts_distinct
  rw [Bool.and_eq_true, Bool.and_eq_true, List.isEmpty_iff, Option.isNone_iff_eq_none,
    decide_eq_true_eq] at holds
  obtain ⟨⟨⟨⟩, left, log⟩, traced, course⟩ := (Option.any_eq_true _ _).1 texts_restorable
  rw [Bool.and_eq_true, List.all_eq_true] at course
  obtain ⟨_, run, -, rfl⟩ :=
    (actTraced_inStep (trace_inStep idle 1) arrangeTexts).exists_other rfl traced
  obtain ⟨log', traced', holdsAfter⟩ := models_restored there holds.1.1 holds.1.2 holds.2 run
  cases traced.symm.trans traced'
  obtain ⟨old, there', restores⟩ := holdsAfter fun record entry inside =>
    absurd (course.1 _ inside) Bool.false_ne_true
  obtain ⟨new, unused⟩ := unused_textsPage
  obtain rfl : new = mounted := Option.some.inj ((list?_of_held? unused.held).symm.trans there)
  obtain ⟨answer, first, ran, outcome⟩ := restores textsPage 0 new unused rfl idle 0
  have saved := course.2
  rw [there', Option.any_some, Bool.and_eq_true, beq_iff_eq, ran, Option.any_some] at saved
  cases answer with
  | error cause => cases saved.2
  | ok given =>
    obtain rfl : given = [0, 1] := beq_iff_eq.1 saved.2
    obtain ⟨restored, found, same, restores⟩ := outcome
    obtain ⟨indices, second, again, ran', found', same'⟩ :=
      restores textsPage 0 new unused ⟨rfl, rfl, rfl, rfl⟩ idle 0
    exact ⟨new, old, restored, again, left, first, second, indices, unused, run, there', saved.1, ran,
      found, same, ran', found', same'⟩

end Page

end LiveList
