import LiveList.Proofs.Page.Deed
import LiveList.Proofs.Record.Reordering
import LiveList.Proofs.Template.Roots

namespace LiveList

open Event (Notification)
open Json (Value)
open Template (Setting Sprout)

/-! ## Renderings have nodes -/

namespace Template

def Sprout.isElement : Sprout → Bool
  | .element .. => true
  | _ => false

variable {setting : Setting} {scope : Scope}

theorem any_isElement_nodeSprouts {node : Node} (isElement : node.isElement) :
    (nodeSprouts setting scope node).1.any Sprout.isElement := by
  cases node with
  | element tag attributes children =>
    rw [nodeSprouts, elementSprout]
    split <;> rfl
  | _ => simp [Node.isElement] at isElement

theorem any_isElement_forestSprouts {nodes : List Node} (isElement : nodes.any Node.isElement)
    (done : (forestSprouts setting scope nodes).2 = none) :
    (forestSprouts setting scope nodes).1.any Sprout.isElement := by
  induction nodes with
  | nil => simp at isElement
  | cons node rest ih =>
    rw [List.any_cons, Bool.or_eq_true] at isElement
    rw [forestSprouts] at done ⊢
    split
    case h_1 made failure made_eq => simp [made_eq] at done
    case h_2 made made_eq =>
      simp only [made_eq] at done
      rw [List.any_append, Bool.or_eq_true]
      cases isElement with
      | inl atFirst =>
        have atTop : (nodeSprouts setting scope node).1.any Sprout.isElement :=
          any_isElement_nodeSprouts atFirst
        rw [made_eq] at atTop
        exact .inl atTop
      | inr later => exact .inr (ih later done)

end Template

theorem Document.roots_plantAll_ne_nil {sprouts : List Sprout} (isElement : sprouts.any Sprout.isElement)
    (d : Document) : (d.plantAll none sprouts).2 ≠ [] := by
  induction sprouts generalizing d with
  | nil => simp at isElement
  | cons sprout rest ih =>
    rw [List.any_cons, Bool.or_eq_true] at isElement
    rw [plantAll]
    simp only [ne_eq, List.append_eq_nil_iff, not_and]
    rintro nothing
    cases isElement with
    | inl first =>
      cases sprout with
      | element tag attributes children => simp [plant, hang] at nothing
      | _ => simp [Sprout.isElement] at first
    | inr later => exact ih later _

theorem Template.roots_renderInto_ne_nil {template : Template} {setting : Setting} {record : Value}
    {d d' : Document} {roots : List NodeId} (rooted : template.hasElementRoot)
    (run : template.renderInto setting record d = (d', .ok roots)) : roots ≠ [] := by
  rw [renderInto] at run
  generalize made : template.sprouts setting record = yield at run
  obtain ⟨sprouts, failure⟩ := yield
  cases failure with
  | some failure => cases run
  | none =>
    have element : sprouts.any Sprout.isElement := by
      have done : (template.sprouts setting record).2 = none := by rw [made]
      have atTop := any_isElement_forestSprouts rooted done
      rwa [← Template.sprouts, made] at atTop
    have filled := Document.roots_plantAll_ne_nil element d
    dsimp only at run
    split at run
    · cases run
    · cases run
      exact filled

namespace ListView

def Filled (view : ListView) : Prop :=
  ∀ index roots, OrderedMap.get? view.nodes index = some roots → roots ≠ []

def Remembers (view : ListView) (index : Nat) : Prop := (OrderedMap.get? view.nodes index).isSome

theorem renderRecord_ne_nil {view : ListView} {record : Record} {d d' : Document}
    {roots : List NodeId} (rooted : view.template.hasElementRoot)
    (run : view.renderRecord record d = (d', .ok roots)) : roots ≠ [] := by
  rw [renderRecord] at run
  split at run
  · cases run
  case h_2 rendered =>
    have filled := Template.roots_renderInto_ne_nil rooted rendered
    split at run <;> cases run <;> exact filled

end ListView

/-! ## Strokes -/

def listed : Option Notification → List Nat
  | some ⟨_, .array values⟩ => values.filterMap Patch.indexOf
  | _ => []

def Entry.Displays (c : Collection) (said : Option Notification) (shown : Nat → Prop) (index : Nat) :
    Entry → Prop
  | .inserted indices => index ∈ indices ∨ shown index
  | .removed other => other ≠ index ∧ shown index
  | .cleared => False
  | .edited _ | .registered _ => shown index
  | .filtered _ => index ∈ c.indices ∧ index ∈ listed said
  | .sorted | .updated => index ∈ c.indices

structure Stroke.Shows (stroke : Stroke) (view : ListView) (result : stroke.Result) (left : ListView) :
    Prop where
  template : left.template = view.template
  filled : view.template.hasElementRoot → view.Filled → left.Filled
  shown : ∀ index, left.Remembers index ↔
    match stroke.line result with
    | none => view.Remembers index
    | some entry => entry.Displays view.collection (stroke.said result) view.Remembers index

variable {view : ListView} {d : Document} {c : Collection}

namespace ListView

theorem Filled.put (filled : view.Filled) {roots : List NodeId} (nonempty : roots ≠ []) (index : Nat)
    (collection : Collection) :
    ({ view with collection, nodes := OrderedMap.put view.nodes index roots } : ListView).Filled := by
  intro other found there
  rw [OrderedMap.get?_put] at there
  split at there
  · cases there
    exact nonempty
  · exact filled other found there

theorem remembers_put (view : ListView) (index other : Nat) (roots : List NodeId)
    (collection : Collection) :
    ({ view with collection, nodes := OrderedMap.put view.nodes index roots } : ListView).Remembers
      other ↔ other = index ∨ view.Remembers other := by
  rw [Remembers, OrderedMap.get?_put]
  split
  case isTrue same => simp [same]
  case isFalse differ => simp [Ne.symm differ, Remembers]

end ListView

theorem OrderedMap.get?_putAll_nil {β : Type} {entries : OrderedMap Nat β} {index : Nat} :
    (get? (putAll [] entries) index).isSome ↔ index ∈ keys entries := by
  induction entries with
  | nil => simp [putAll, get?, keys]
  | cons entry rest ih =>
    have rest : get? (putAll [] (entry :: rest)) index = _ :=
      get?_putAll (put [] entry.1 entry.2) rest index
    rw [rest, Option.isSome_or, Bool.or_eq_true, ih, get?_put]
    by_cases same : entry.1 = index
    · simp [same, keys]
    · simp [same, Ne.symm same, get?, keys]

theorem OrderedMap.mem_of_get?_putAll {β : Type} {entries : OrderedMap Nat β} {index : Nat} {value : β}
    (found : get? (putAll [] entries) index = some value) : (index, value) ∈ entries := by
  induction entries with
  | nil => simp [putAll, get?] at found
  | cons entry rest ih =>
    have rest : get? (putAll [] (entry :: rest)) index = _ :=
      get?_putAll (put [] entry.1 entry.2) rest index
    rw [rest, Option.or_eq_some_iff] at found
    rcases found with later | ⟨-, first⟩
    · exact List.mem_cons_of_mem _ (ih later)
    · rw [get?_put] at first
      split at first
      case isTrue same =>
        cases first
        exact same ▸ List.mem_cons_self
      case isFalse => cases first

namespace Patch

theorem renderAll_filled {κ : Type} {items : List (κ × Record)} {done blocks : List (κ × List NodeId)}
    {left : Scene} (rooted : view.template.hasElementRoot) (filled : ∀ block ∈ done, block.2 ≠ [])
    (run : (renderAll items done).on ⟨view, d⟩ = (.ok blocks, left)) :
    ∀ block ∈ blocks, block.2 ≠ [] := by
  induction items generalizing d done with
  | nil =>
    cases run
    exact filled
  | cons item rest ih =>
    obtain ⟨key, record⟩ := item
    rw [renderAll, on_bind, on_tryCatch, on_render] at run
    generalize rendered : view.renderRecord record d = outcome at run
    obtain ⟨d', cause | roots⟩ := outcome
    · cases run
    · refine ih (fun block inside => ?_) run
      rcases List.mem_append.1 inside with earlier | last
      · exact filled block earlier
      · rw [List.mem_singleton.1 last]
        exact ListView.renderRecord_ne_nil rooted rendered

theorem rerender_shows (order : List Nat) (view : ListView) (d : Document) :
    ∃ result nodes d', (rerender order).on ⟨view, d⟩ = (result, ⟨{ view with nodes }, d'⟩) ∧
      match result with
      | .error _ => nodes = view.nodes
      | .ok () => (∀ index, (OrderedMap.get? nodes index).isSome ↔
          index ∈ order ∧ index ∈ view.collection.indices) ∧
        (view.template.hasElementRoot → ({ view with nodes } : ListView).Filled) := by
  obtain ⟨result, d', run, keys⟩ := on_renderAll (view.collection.listed order) [] view d
  cases result with
  | error cause => exact ⟨_, view.nodes, d', on_rerender_error run, rfl⟩
  | ok rendered =>
    refine ⟨_, _, _, on_rerender_ok run, fun index => ?_, fun rooted index roots found => ?_⟩
    · have sameKeys : OrderedMap.keys rendered = (view.collection.listed order).map Prod.fst := by
        simpa [OrderedMap.keys] using keys rendered rfl
      rw [OrderedMap.get?_putAll_nil, sameKeys, Collection.listed, List.map_filterMap]
      simp [Collection.mem_indices]
    · exact renderAll_filled rooted (by simp) run _ (OrderedMap.mem_of_get?_putAll found)

end Patch

theorem Change.addAll_shows (rest : List (Record × List NodeId)) (scene : Scene) :
    ((addAll rest).on scene).2.view.template = scene.view.template ∧
      ((∀ block ∈ rest, block.2 ≠ []) → scene.view.Filled →
        ((addAll rest).on scene).2.view.Filled) ∧
      ∀ index, ((addAll rest).on scene).2.view.Remembers index ↔
        index ∈ List.range' scene.view.collection.next rest.length ∨ scene.view.Remembers index := by
  induction rest generalizing scene with
  | nil => exact ⟨rfl, fun _ => id, fun index => by simp [addAll]⟩
  | cons block rest ih =>
    obtain ⟨record, roots⟩ := block
    rw [on_addAll_cons]
    obtain ⟨template, filled, shown⟩ := ih ⟨scene.view.withRecord .back record roots,
      Place.hung .back scene.view.container roots scene.document⟩
    refine ⟨template, fun nonempty before => ?_, fun index => ?_⟩
    · have first := nonempty _ List.mem_cons_self
      exact filled (fun block inside => nonempty block (List.mem_cons_of_mem _ inside))
        (before.put first _ _)
    · have added := scene.view.remembers_put scene.view.collection.next index roots
        (Place.back.added scene.view.collection record)
      have next : (scene.view.withRecord .back record roots).collection.next =
          scene.view.collection.next + 1 := rfl
      rw [shown, next, List.length_cons, List.range'_succ, List.mem_cons, or_assoc]
      exact ⟨fun inside => inside.elim (.inr ∘ .inl) fun old => (added.1 old).imp_right .inr,
        fun inside => inside.elim (fun same => .inr (added.2 (.inl same))) fun old =>
          old.imp_right (added.2 ∘ .inr)⟩

namespace Stroke

theorem shows_nothing {stroke : Stroke} {result : stroke.Result} {left : ListView}
    (line : stroke.line result = none) (same : left = view) : stroke.Shows view result left := by
  subst same
  exact ⟨rfl, fun _ => id, fun index => by rw [line]⟩

theorem insert_shows (record : Record) (place : Place) {result : (insert record place).Result}
    {left : Scene} (run : (insert record place).change.on ⟨view, d⟩ = (result, left)) :
    (insert record place).Shows view result left.view := by
  have run : (Patch.insert record place).on ⟨view, d⟩ = (result, left) := run
  generalize rendered :
    view.renderRecord (record.withIndex view.collection.next) d = outcome at *
  obtain ⟨d', cause | roots⟩ := outcome
  · cases (Patch.on_insert_error place rendered).symm.trans run
    exact shows_nothing rfl rfl
  · cases (Patch.on_insert_ok place rendered).symm.trans run
    refine ⟨rfl, fun rooted filled => ?_, fun index => ?_⟩
    · exact filled.put (ListView.renderRecord_ne_nil rooted rendered) _ _
    · exact (view.remembers_put ..).trans (or_congr_left List.mem_singleton.symm)

theorem insertAll_shows (items : List Value) {result : (insertAll items).Result}
    {left : Scene} (run : (insertAll items).change.on ⟨view, d⟩ = (result, left)) :
    (insertAll items).Shows view result left.view := by
  have run : (Patch.insertAll items).on ⟨view, d⟩ = (result, left) := run
  cases created : items.mapM view.model.create with
  | error cause =>
    cases (Patch.on_insertAll_of_create created).symm.trans run
    exact shows_nothing rfl rfl
  | ok records =>
    obtain ⟨drawn, d', drawing, -⟩ := Patch.on_renderAll
      ((Patch.numbered view.collection records).map fun record => (record, record)) [] view d
    cases drawn with
    | error cause =>
      cases (Patch.on_insertAll_error created drawing).symm.trans run
      exact shows_nothing rfl rfl
    | ok rendered =>
      obtain ⟨indices, -, -⟩ := Change.on_addAll rendered ⟨view, d'⟩
      obtain ⟨template, filled, shown⟩ := Change.addAll_shows rendered ⟨view, d'⟩
      cases (Patch.on_insertAll_ok created drawing).symm.trans run
      refine ⟨template, fun rooted before => ?_, fun index => ?_⟩
      · exact filled (Patch.renderAll_filled rooted (by simp) drawing) before
      · rw [shown, ← indices]
        rfl

theorem remove_shows (index : Nat) {result : (remove index).Result} {left : Scene}
    (run : (remove index).change.on ⟨view, d⟩ = (result, left)) :
    (remove index).Shows view result left.view := by
  have run : (Change.remove index).on ⟨view, d⟩ = (result, left) := run
  cases held : view.collection.get? index with
  | none =>
    cases (Change.on_remove held).symm.trans run
    exact shows_nothing rfl rfl
  | some record =>
    cases (Change.on_remove_held held).symm.trans run
    refine ⟨rfl, fun _ filled other found there => ?_, fun other => ?_⟩
    · rw [ListView.without, OrderedMap.get?_remove] at there
      split at there
      · cases there
      · exact filled other found there
    · rw [ListView.Remembers, ListView.without, OrderedMap.get?_remove]
      by_cases same : index = other <;> simp [same, line, Entry.Displays, ListView.Remembers]

theorem edit_shows (index : Nat) (fields : Value) {result : (edit index fields).Result}
    {left : Scene} (run : (edit index fields).change.on ⟨view, d⟩ = (result, left)) :
    (edit index fields).Shows view result left.view := by
  have run : (Patch.edit index fields).on ⟨view, d⟩ = (result, left) := run
  rw [Patch.on_edit] at run
  split at run
  · cases run
    exact shows_nothing rfl rfl
  split at run
  · cases run
    exact shows_nothing rfl rfl
  split at run
  · cases run
    exact shows_nothing rfl rfl
  case h_2 anchor first =>
    split at run
    · cases run
      exact shows_nothing rfl rfl
    split at run
    · cases run
      exact shows_nothing rfl rfl
    case h_2 rendered =>
      cases run
      have known : view.Remembers index := by
        obtain ⟨roots, there, -⟩ := Option.bind_eq_some_iff.1 first
        rw [ListView.Remembers, there]
        rfl
      refine ⟨rfl, fun rooted filled => ?_, fun other => ?_⟩
      · exact filled.put (ListView.renderRecord_ne_nil rooted rendered) _ _
      · refine (view.remembers_put ..).trans ⟨fun either => ?_, .inr⟩
        exact either.elim (fun same => same ▸ known) id

end Stroke

structure ListView.Redrawn (view left : ListView) : Prop where
  template : left.template = view.template
  filled : view.template.hasElementRoot → left.Filled
  shown : ∀ index, left.Remembers index ↔ index ∈ view.collection.indices

namespace Patch

theorem arrange_redrawn {order : List Nat} {result : Except Error (List Value)} {left : Scene}
    (run : (arrange order).on ⟨view, d⟩ = (result, left)) :
    (∃ cause, result = .error cause ∧ left.view = view) ∨
      (∃ values, result = .ok values ∧ view.Redrawn left.view) := by
  obtain ⟨redrawn, nodes, d', drawing, outcome⟩ :=
    rerender_shows (arrangedOrder view.collection order) view d
  rw [on_arrange, drawing] at run
  cases redrawn with
  | error cause =>
    cases run
    exact .inl ⟨cause, rfl, by rw [outcome]⟩
  | ok _ =>
    cases run
    obtain ⟨shown, filled⟩ := outcome
    refine .inr ⟨_, rfl, rfl, filled, fun index => (shown index).trans ⟨And.right, fun known => ⟨?_, known⟩⟩⟩
    exact Collection.mem_arrangedOrder known

theorem updateView_redrawn {result : Except Error Unit} {left : Scene}
    (run : updateView.on ⟨view, d⟩ = (result, left)) :
    (∃ cause, result = .error cause ∧ left.view = view) ∨
      (result = .ok () ∧ view.Redrawn left.view) := by
  obtain ⟨redrawn, nodes, d', drawing, outcome⟩ := rerender_shows view.collection.indices view d
  rw [on_updateView, drawing] at run
  cases redrawn with
  | error cause =>
    cases run
    exact .inl ⟨cause, rfl, by rw [outcome]⟩
  | ok _ =>
    cases run
    obtain ⟨shown, filled⟩ := outcome
    exact .inr ⟨rfl, rfl, filled, fun index => (shown index).trans (and_self_iff)⟩

end Patch

namespace Stroke

theorem showOnly_shows (sound : view.collection.Sound) (since : Nat) (matched : List Value)
    {result : (showOnly since matched).Result} {left : Scene}
    (run : (showOnly since matched).change.on ⟨view, d⟩ = (result, left)) :
    (showOnly since matched).Shows view result left.view := by
  have run : (Patch.showOnly matched).on ⟨view, d⟩ = (result, left) := run
  obtain ⟨redrawn, nodes, d', drawing, outcome⟩ :=
    Patch.rerender_shows (Patch.matchedOrder view.collection matched) view d
  rw [Patch.on_showOnly, drawing] at run
  cases redrawn with
  | error cause =>
    cases run
    exact shows_nothing rfl (by rw [outcome])
  | ok _ =>
    cases run
    obtain ⟨shown, filled⟩ := outcome
    refine ⟨rfl, fun rooted _ => filled rooted, fun index => (shown index).trans ?_⟩
    have told : listed (some ⟨.filter, .array ((Patch.matchedOrder view.collection matched).filterMap
        fun index => (view.collection.get? index).map fun r => r.json)⟩) =
          Patch.matchedOrder view.collection matched := by
      rw [listed, List.filterMap_filterMap]
      refine (List.filterMap_congr fun index inside => ?_).trans List.filterMap_some
      obtain ⟨record, held⟩ := Collection.mem_indices.1 (Patch.mem_matchedOrder.1 inside).2
      rw [held]
      exact (sound.carries held).indexOf
    simp only [line, said, Except.toOption, Option.bind_some, Entry.Displays, told]
    exact and_comm

/-- Every stroke shows the records that its line in the journal says. -/
theorem shows (sound : view.collection.Sound) (stroke : Stroke) {result : stroke.Result} {left : Scene}
    (run : stroke.change.on ⟨view, d⟩ = (result, left)) : stroke.Shows view result left.view := by
  cases stroke with
  | insert record place => exact insert_shows record place run
  | insertAll items => exact insertAll_shows items run
  | remove index => exact remove_shows index run
  | removeAll =>
    cases Change.on_removeAll.symm.trans run
    refine ⟨rfl, fun _ _ index roots found => ?_, fun index => ?_⟩
    · cases found
    · simp [ListView.Remembers, OrderedMap.get?, line, Entry.Displays]
  | edit index fields => exact edit_shows index fields run
  | showOnly since matched => exact showOnly_shows sound since matched run
  | arrange order =>
    rcases Patch.arrange_redrawn run with ⟨cause, rfl, same⟩ | ⟨values, rfl, redrawn⟩
    · exact shows_nothing rfl same
    · exact ⟨redrawn.template, fun rooted _ => redrawn.filled rooted, redrawn.shown⟩
  | sort =>
    rcases Patch.arrange_redrawn ((Patch.on_sort _).symm.trans run) with
      ⟨cause, rfl, same⟩ | ⟨values, rfl, redrawn⟩
    · exact shows_nothing rfl same
    · exact ⟨redrawn.template, fun rooted _ => redrawn.filled rooted, redrawn.shown⟩
  | updateView =>
    rcases Patch.updateView_redrawn run with ⟨cause, rfl, same⟩ | ⟨rfl, redrawn⟩
    · exact shows_nothing rfl same
    · exact ⟨redrawn.template, fun rooted _ => redrawn.filled rooted, redrawn.shown⟩
  | addFilter name filter =>
    cases run
    exact ⟨rfl, fun _ => id, fun _ => Iff.rfl⟩

end Stroke

/-- The template has an element at the top, and the records are kept under their indices. -/
structure ListView.Sane (view : ListView) : Prop where
  rooted : view.template.hasElementRoot
  sound : view.collection.Sound

theorem Stroke.sane {stroke : Stroke} {view : ListView} {d : Document} {result : stroke.Result}
    {left : Scene} (run : stroke.change.on ⟨view, d⟩ = (result, left)) (sane : view.Sane) :
    left.view.Sane where
  rooted := (stroke.shows sane.sound run).template ▸ sane.rooted
  sound := by
    obtain ⟨-, ⟨-, -, unchanged⟩ | ⟨entry, -, deed⟩⟩ := stroke.does run
    · exact unchanged ▸ sane.sound
    · exact deed.sound sane.sound

end LiveList
