import LiveList.View.Change

namespace LiveList

open Json (Value)

variable {α β : Type}

namespace Change

def on (change : Change α) (scene : Scene) : α × Scene := change.run scene

@[simp] theorem on_pure (a : α) (scene : Scene) : (pure a : Change α).on scene = (a, scene) := rfl

@[simp] theorem on_bind (change : Change α) (next : α → Change β) (scene : Scene) :
    (change >>= next).on scene = (next (change.on scene).1).on (change.on scene).2 := rfl

@[simp] theorem on_map (f : α → β) (change : Change α) (scene : Scene) :
    (f <$> change).on scene = (f (change.on scene).1, (change.on scene).2) := rfl

@[simp] theorem on_view (scene : Scene) : view.on scene = (scene.view, scene) := rfl

@[simp] theorem on_modifyView (f : ListView → ListView) (scene : Scene) :
    (modifyView f).on scene = ((), { scene with view := f scene.view }) := rfl

@[simp] theorem on_modifyDocument (f : Document → Document) (scene : Scene) :
    (modifyDocument f).on scene = ((), { scene with document := f scene.document }) := rfl

@[simp] theorem on_modifyCollection (f : Collection → Collection) (scene : Scene) :
    (modifyCollection f).on scene =
      ((), { scene with
        view := { scene.view with collection := f scene.view.collection } }) := rfl

@[simp] theorem on_remember (index : Nat) (roots : List NodeId) (scene : Scene) :
    (remember index roots).on scene =
      ((), { scene with
        view := { scene.view with nodes := OrderedMap.put scene.view.nodes index roots } }) := rfl

@[simp] theorem on_free (nodes : List NodeId) (scene : Scene) :
    (free nodes).on scene =
      ((), { scene with document := scene.document.removeNodes nodes }) := rfl

@[simp] theorem on_appendRoots (roots : List NodeId) (scene : Scene) :
    (appendRoots roots).on scene =
      ((), { scene with
        document := roots.foldl (fun d root => d.appendChild scene.view.container root)
          scene.document }) := rfl

@[simp] theorem on_prependRoots (roots : List NodeId) (scene : Scene) :
    (prependRoots roots).on scene =
      ((), { scene with
        document := roots.reverse.foldl (fun d root => d.prependChild scene.view.container root)
          scene.document }) := rfl

@[simp] theorem on_clearContainer (scene : Scene) :
    clearContainer.on scene =
      ((), { scene with document := scene.document.clearChildren scene.view.container }) := rfl

theorem on_showAll (rendered : List (Nat × List NodeId)) (scene : Scene) :
    (showAll rendered).on scene =
      ((), { view := { scene.view with nodes := OrderedMap.putAll scene.view.nodes rendered }
             document := (rendered.flatMap Prod.snd).foldl
               (fun d root => d.appendChild scene.view.container root) scene.document }) := by
  induction rendered generalizing scene with
  | nil => rfl
  | cons first rest ih =>
    obtain ⟨index, roots⟩ := first
    simp [showAll, ih, OrderedMap.putAll]

end Change

namespace Patch

open Change

def on (patch : Patch α) (scene : Scene) : Except Error α × Scene := Change.on patch.run scene

@[simp] theorem on_pure (a : α) (scene : Scene) : (pure a : Patch α).on scene = (.ok a, scene) := rfl

@[simp] theorem on_throw (cause : Error) (scene : Scene) :
    (throw cause : Patch α).on scene = (.error cause, scene) := rfl

@[simp] theorem on_bind (patch : Patch α) (next : α → Patch β) (scene : Scene) :
    (patch >>= next).on scene =
      match patch.on scene with
      | (.ok a, scene) => (next a).on scene
      | (.error cause, scene) => (.error cause, scene) := by
  change Change.on (patch.run >>= ExceptT.bindCont next) scene = _
  rw [Change.on_bind]
  change Change.on (ExceptT.bindCont next (patch.on scene).1) (patch.on scene).2 = _
  rcases patch.on scene with ⟨_ | a, left⟩ <;> rfl

@[simp] theorem on_lift (change : Change α) (scene : Scene) :
    (liftM change : Patch α).on scene = (.ok (change.on scene).1, (change.on scene).2) := rfl

@[simp] theorem on_map_lift (f : α → β) (change : Change α) (scene : Scene) :
    (f <$> (liftM change : Patch α)).on scene =
      (.ok (f (change.on scene).1), (change.on scene).2) := rfl

@[simp] theorem on_ofResult (result : Except Error α) (scene : Scene) :
    (ofResult result).on scene = (result, scene) := rfl

@[simp] theorem on_get (scene : Scene) : (get : Patch Scene).on scene = (.ok scene, scene) := rfl

@[simp] theorem on_set (next scene : Scene) : (set next : Patch PUnit).on scene = (.ok ⟨⟩, next) := rfl

@[simp] theorem on_tryCatch (patch : Patch α) (handle : Error → Patch α) (scene : Scene) :
    (tryCatch patch handle).on scene =
      match patch.on scene with
      | (.ok a, scene) => (.ok a, scene)
      | (.error cause, scene) => (handle cause).on scene := by
  change Change.on (ExceptT.tryCatch patch handle) scene = _
  unfold ExceptT.tryCatch ExceptT.mk
  rw [Change.on_bind]
  change Change.on _ (patch.on scene).2 = _
  generalize left : patch.on scene = outcome
  have same : Change.on patch scene = outcome := left
  rw [same]
  rcases outcome with ⟨_ | a, left⟩ <;> rfl

theorem on_render (record : Record) (view : ListView) (d : Document) :
    (render record).on ⟨view, d⟩ =
      ((view.renderRecord record d).2, ⟨view, (view.renderRecord record d).1⟩) := rfl

end Patch

def Place.added (place : Place) (c : Collection) (record : Record) : Collection :=
  match place with
  | .back => (c.insertBack record).1
  | .front => (c.insertFront record).1

def Place.hung (place : Place) (container : NodeId) (roots : List NodeId) (d : Document) : Document :=
  match place with
  | .back => roots.foldl (fun d root => d.appendChild container root) d
  | .front => roots.reverse.foldl (fun d root => d.prependChild container root) d

def Collection.listed (c : Collection) (order : List Nat) : List (Nat × Record) :=
  order.filterMap fun index => (c.get? index).map (index, ·)

namespace Patch

open Change

variable {view : ListView} {d d' : Document} {record : Record} {index : Nat} {fields : Value}

theorem on_insert_error {cause : Error} (place : Place)
    (failed : view.renderRecord (record.withIndex view.collection.next) d = (d', .error cause)) :
    (insert record place).on ⟨view, d⟩ = (.error cause, ⟨view, d'⟩) := by
  simp [insert, on_render, failed]

theorem on_insert_ok {roots : List NodeId} (place : Place)
    (rendered : view.renderRecord (record.withIndex view.collection.next) d = (d', .ok roots)) :
    (insert record place).on ⟨view, d⟩ =
      (.ok (view.collection.next, (((place.added view.collection record).get?
          view.collection.next).map fun r => r.json).getD .null),
        ⟨{ view with
            collection := place.added view.collection record
            nodes := OrderedMap.put view.nodes view.collection.next roots },
          place.hung view.container roots d'⟩) := by
  cases place <;>
    simp [insert, on_render, rendered, Place.added, Place.hung, Collection.insertBack,
      Collection.insertFront, Collection.reserveIndex]

theorem on_createAll (items : List Value) :
    (createAll items).on ⟨view, d⟩ = (items.mapM view.model.create, ⟨view, d⟩) := by
  simp [createAll]

theorem on_edit (index : Nat) (fields : Value) :
    (edit index fields).on ⟨view, d⟩ =
      if fields.isTruthy = false then (.ok none, ⟨view, d⟩)
      else match view.collection.get? index with
        | none => (.ok none, ⟨view, d⟩)
        | some record =>
          match (OrderedMap.get? view.nodes index).bind List.head? with
          | none => (.error (.missingDataId index), ⟨view, d⟩)
          | some anchor =>
            match record.update fields with
            | .error cause => (.error cause, ⟨view, d⟩)
            | .ok record =>
              match view.renderRecord record d with
              | (d', .error cause) => (.error cause, ⟨view, d'⟩)
              | (d', .ok roots) =>
                (.ok (some record.json),
                  ⟨{ view with
                      collection := view.collection.replace index record
                      nodes := OrderedMap.put view.nodes index roots },
                    (roots.foldl (fun d root => (d.insertBefore anchor root).1) d').removeNodes
                      ((OrderedMap.get? view.nodes index).getD [])⟩) := by
  unfold edit
  by_cases falsy : fields.isTruthy = false
  · simp [falsy]
  rw [Bool.not_eq_false] at falsy
  cases found : view.collection.get? index with
  | none => simp [falsy, found]
  | some record =>
    cases first : (OrderedMap.get? view.nodes index).bind List.head? with
    | none => simp [falsy, found, first]
    | some anchor =>
      cases updated : record.update fields with
      | error cause => simp [falsy, found, first, updated]
      | ok record =>
        generalize rendered : view.renderRecord record d = outcome
        obtain ⟨d', _ | roots⟩ := outcome <;>
          simp [falsy, found, first, updated, on_render, rendered]

theorem on_rerender_error {order : List Nat} {cause : Error}
    (failed : (renderAll (view.collection.listed order) []).on ⟨view, d⟩ =
      (.error cause, ⟨view, d'⟩)) :
    (rerender order).on ⟨view, d⟩ = (.error cause, ⟨view, d'⟩) := by
  unfold Collection.listed at failed
  simp [rerender, failed]

theorem on_rerender_ok {order : List Nat} {rendered : List (Nat × List NodeId)}
    (drawn : (renderAll (view.collection.listed order) []).on ⟨view, d⟩ =
      (.ok rendered, ⟨view, d'⟩)) :
    (rerender order).on ⟨view, d⟩ =
      (.ok (), ⟨{ view with nodes := OrderedMap.putAll [] rendered },
        (rendered.flatMap Prod.snd).foldl (fun d root => d.appendChild view.container root)
          (d'.clearChildren view.container)⟩) := by
  unfold Collection.listed at drawn
  simp [rerender, drawn, on_showAll]

def matchedOrder (c : Collection) (matched : List Value) : List Nat :=
  (matched.filterMap indexOf).filter c.contains

def arrangedOrder (c : Collection) (order : List Nat) : List Nat :=
  order.filter c.contains ++ c.indices.filter (!(order.filter c.contains).contains ·)

theorem on_showOnly (matched : List Value) (scene : Scene) :
    (showOnly matched).on scene =
      match (rerender (matchedOrder scene.view.collection matched)).on scene with
      | (.error cause, left) => (.error cause, left)
      | (.ok _, left) =>
        (.ok ((matchedOrder scene.view.collection matched).filterMap fun index =>
          (scene.view.collection.get? index).map fun r => r.json), left) := by
  unfold showOnly matchedOrder
  simp only [on_bind, on_lift, on_view]
  split <;> simp_all

theorem on_arrange (order : List Nat) (scene : Scene) :
    (arrange order).on scene =
      match (rerender (arrangedOrder scene.view.collection order)).on scene with
      | (.error cause, left) => (.error cause, left)
      | (.ok _, left) =>
        let reordered := left.view.collection.reorder (arrangedOrder scene.view.collection order)
        (.ok reordered.json, { left with view := { left.view with collection := reordered } }) := by
  unfold arrange arrangedOrder
  simp only [on_bind, on_lift, on_view]
  split <;> simp_all

theorem on_sort (scene : Scene) :
    sort.on scene = (arrange (scene.view.collection.sortedIndices fun a b =>
      compare a.index b.index)).on scene := by
  simp [sort]

theorem on_updateView (scene : Scene) :
    updateView.on scene = (rerender scene.view.collection.indices).on scene := by
  simp [updateView]

theorem on_insertAll_of_create {items : List Value} {cause : Error}
    (failed : items.mapM view.model.create = .error cause) :
    (insertAll items).on ⟨view, d⟩ = (.error cause, ⟨view, d⟩) := by
  simp [insertAll, on_createAll, failed]

def numbered (c : Collection) (records : List Record) : List Record :=
  records.mapIdx fun offset record => record.withIndex (c.next + offset)

theorem on_insertAll_error {items : List Value} {records : List Record} {cause : Error}
    (created : items.mapM view.model.create = .ok records)
    (failed : (renderAll ((numbered view.collection records).map fun record => (record, record))
      []).on ⟨view, d⟩ = (.error cause, ⟨view, d'⟩)) :
    (insertAll items).on ⟨view, d⟩ = (.error cause, ⟨view, d'⟩) := by
  unfold numbered at failed
  simp [insertAll, on_createAll, created, failed]

theorem on_insertAll_ok {items : List Value} {records : List Record}
    {rendered : List (Record × List NodeId)}
    (created : items.mapM view.model.create = .ok records)
    (drawn : (renderAll ((numbered view.collection records).map fun record => (record, record))
      []).on ⟨view, d⟩ = (.ok rendered, ⟨view, d'⟩)) :
    (insertAll items).on ⟨view, d⟩ =
      (.ok (((addAll rendered).on ⟨view, d'⟩).1,
        .array ((addAll rendered).on ⟨view, d'⟩).2.view.collection.json),
        ((addAll rendered).on ⟨view, d'⟩).2) := by
  unfold numbered at drawn
  simp [insertAll, on_createAll, created, drawn]

end Patch

end LiveList
