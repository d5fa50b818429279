import LiveList.Proofs.Page.Comparing
import LiveList.Proofs.Page.Views
import LiveList.Proofs.View.Arranging

/-!
# Sorting a list

A call that sorts first lets its comparisons end, then brings the records into their order, and then
tells the listeners. Main statements: whatever the comparisons do to the page, no record is lost or
shown twice when the listeners are told; comparisons that order the records bring them into that
order, which stays for as long as the list is left as it is, and which sorting again does not change.
-/

namespace LiveList

open Document (Plant)
open Event (Kind)
open Json (Value)

/-! ## Values and records -/

namespace Collection

variable {c c' : Collection} {values : List Value}

/-- The records are those of an earlier collection, under their indices, in the order of a comparison.
Those that it takes for equal are as they were among themselves. -/
structure SortedFrom (compare : Value → Value → Ordering) (c c' : Collection)
    (sorted : List Value) : Prop where
  models : c'.json = sorted
  perm : sorted.Perm c.json
  ordered : sorted.Pairwise fun x y => (compare x y).isLE
  stable : ∀ x ∈ c.json, sorted.filter (compare x · = .eq) = c.json.filter (compare x · = .eq)
  kept : ∀ index, c'.get? index = c.get? index

theorem json_eq_filterMap (distinct : c.indices.Nodup) :
    c.json = c.indices.filterMap fun index => (c.get? index).map fun r => r.json := by
  have each : ∀ entry ∈ c.records,
      (c.get? entry.1).map (fun r => r.json) = some entry.2.json := fun entry inside => by
    rw [get?, (OrderedMap.get?_eq_some_iff distinct).2 inside, Option.map_some]
  rw [json, OrderedMap.values, List.map_map, indices, OrderedMap.keys, List.filterMap_map,
    ← List.filterMap_eq_map]
  exact (List.filterMap_congr each).symm

theorem Sound.indices_of_perm (sound : c.Sound) (perm : values.Perm c.json) :
    (values.filterMap Patch.indexOf).Perm c.indices :=
  sound.filterMap_indexOf ▸ perm.filterMap Patch.indexOf

theorem Rearranges.json_of_perm (sound : c.Sound) (perm : values.Perm c.json)
    (rearranges : Rearranges (values.filterMap Patch.indexOf) c c') : c'.json = values := by
  have order := sound.indices_of_perm perm
  have listed := rearranges.indices_of_perm sound.nodup order
  have each : ∀ value ∈ values, (Patch.indexOf value).bind
      (fun index => (c.get? index).map fun r => r.json) = some value := fun value inside => by
    obtain ⟨record, there, rfl⟩ := List.mem_map.1 (perm.mem_iff.1 inside)
    obtain ⟨⟨index, _⟩, entry, rfl⟩ := List.mem_map.1 there
    rw [(sound.carried index _ entry).indexOf, Option.bind_some, sound.get?_iff.2 entry,
      Option.map_some]
  rw [json_eq_filterMap (listed ▸ order.nodup_iff.2 sound.nodup), listed, List.filterMap_filterMap]
  simp only [rearranges.get?]
  exact (List.filterMap_congr each).trans List.filterMap_some

end Collection

theorem Patch.arrange_sorted {compare : Value → Value → Ordering} {view : ListView} {d : Document}
    {items : Items Plant} {values : List Value} {scene : Scene} (sane : view.Sane)
    (arranges : view.Arranges d items) (orders : Orders compare view.collection.json)
    (run : (Patch.arrange ((sortedBy compare view.collection.json).filterMap Patch.indexOf)).on
      ⟨view, d⟩ = (.ok values, scene)) :
    view.Brought ((sortedBy compare view.collection.json).filterMap Patch.indexOf) d scene ∧
      values = sortedBy compare view.collection.json ∧
      view.collection.SortedFrom compare scene.view.collection values := by
  have perm := sortedBy_perm compare view.collection.json
  have listed := sane.sound.indices_of_perm perm
  obtain ⟨brought, isJson⟩ :=
    Patch.arrange_brought arranges sane (listed.nodup_iff.2 sane.sound.nodup) run
  have sorted := brought.rearranges.json_of_perm sane.sound perm
  have isSorted : values = sortedBy compare view.collection.json := isJson.trans sorted
  subst isSorted
  exact ⟨brought, rfl, sorted, perm, orders.pairwise_sortedBy, fun x inside =>
    orders.filter_sortedBy inside, brought.rearranges.get?⟩

namespace Page

variable {ℓ π κ σ : Type} {page left : Page ℓ σ} {list depth : Nat} {mounted : Mounted ℓ} {order : κ}
  {behaviour : Behaviour ℓ π κ σ} {values sorted : List Value}

/-! ## How a call that sorts runs -/

/-- What is left of a call when its change is done: the listeners are told, and the answer is given. -/
def telling (behaviour : Behaviour ℓ π κ σ) (depth list : Nat) (kind : Kind) (values : List Value) :
    Run ℓ σ (Option (Except Error (List Value))) := do
  let _ ← notify (behaviour.callbacks (perform behaviour depth)) list kind (.array values)
  modify fun page => page.modifyList list fun m => { m with running := m.running - 1 }
  return some (.ok values)

/-- A call that sorts by whatever comparisons: the records are brought into the order that these end
in, and then the listeners are told. -/
def sorting (behaviour : Behaviour ℓ π κ σ) (depth list : Nat)
    (comparisons : List Value → Action ℓ π κ σ (List Value)) : Run ℓ σ (Except Error (List Value)) :=
  during list do
    let sorted ← runAction (perform behaviour depth) (comparisons (← models list))
    announce (behaviour.callbacks (perform behaviour depth)) list .sort
      (← patch list (Patch.arrange (sorted.filterMap Patch.indexOf)) fun _ => some .sorted)

theorem announce_eq_some {kind : Kind} {told : Page ℓ σ} {a : Except Error (List Value)}
    (ends : (announce (behaviour.callbacks (perform behaviour depth)) list kind (.ok values)).run page =
      some (a, told)) :
    a = .ok values ∧ (telling behaviour depth list kind values).run page =
      some (some (.ok values), told.modifyList list fun m => { m with running := m.running - 1 }) := by
  obtain ⟨⟨count, _⟩, notified, ends⟩ := Option.bind_eq_some_iff.1 ends
  cases ends
  exact ⟨rfl, Option.bind_eq_some_iff.2 ⟨_, notified, rfl⟩⟩

theorem perform_sort_eq_some (held : page.held? list = some mounted)
    (run : (perform behaviour (depth + 1) (.call list .sort)).run page =
      some (some (.ok values), left)) :
    ∃ scene, Patch.sort.on ⟨mounted.view, page.document⟩ = (.ok values, scene) ∧
      (telling behaviour depth list .sort values).run
        (struck (page.begun list) list .sort (.ok values) scene) = some (some (.ok values), left) := by
  obtain ⟨_, told, isGiven, answered, rfl⟩ := perform_call_eq_some held run
  cases isGiven
  obtain ⟨⟨result, mid⟩, patched, announced⟩ := Option.bind_eq_some_iff.1 answered
  obtain ⟨began, scene, there, arranged, rfl⟩ := change_eq_some patched
  cases there.symm.trans (list?_begun (list?_of_held? held))
  cases result with
  | error cause => cases announced
  | ok given =>
    obtain ⟨same, tells⟩ := announce_eq_some announced
    cases same
    exact ⟨scene, arranged, tells⟩

variable {comparisons : List Value → Action ℓ π κ σ (List Value)} {asked : Page ℓ σ}
  {before : Mounted ℓ} {scene : Scene}

theorem perform_sortBy (held : page.held? list = some mounted) :
    (perform behaviour (depth + 1) (.call list (.sortBy order))).run page =
      ((sorting behaviour depth list (sortValues (behaviour.compare order))).run page).map
        fun (answer, left) => (some answer, left) := by
  rw [perform, serve_call_run _ held, answer, sorting]
  simp only [runAction_sortValues]
  rfl

theorem sorting_eq_some (there : page.list? list = some mounted)
    (run : (sorting behaviour depth list comparisons).run page = some (.ok sorted, left)) :
    ∃ values asked before scene,
      (runAction (perform behaviour depth) (comparisons mounted.view.collection.json)).run
        (page.begun list) = some (values, asked) ∧ asked.list? list = some before ∧
      (Patch.arrange (values.filterMap Patch.indexOf)).on ⟨before.view, asked.document⟩ =
        (.ok sorted, scene) ∧
      (telling behaviour depth list .sort sorted).run
        (struck asked list (.arrange (values.filterMap Patch.indexOf)) (.ok sorted) scene) =
          some (some (.ok sorted), left) := by
  rw [sorting, during_run, ← begun] at run
  obtain ⟨⟨_, told⟩, answered, same⟩ := Option.map_eq_some_iff.1 run
  cases same
  rw [StateT.run_bind, models_run (list?_begun there), Option.bind_eq_bind,
    Option.bind_some] at answered
  obtain ⟨⟨values, asked⟩, compares, ended⟩ := Option.bind_eq_some_iff.1 answered
  obtain ⟨⟨result, mid⟩, patched, announced⟩ := Option.bind_eq_some_iff.1 ended
  obtain ⟨before, scene, there, arranged, rfl⟩ := change_eq_some patched
  cases result with
  | error cause => cases announced
  | ok given =>
    obtain ⟨same, tells⟩ := announce_eq_some announced
    cases same
    exact ⟨values, asked, before, scene, compares, there, arranged, tells⟩

/-- Once the comparisons have ended and the records are in their order, only telling is left. -/
theorem sorting_run (found : page.list? list = some mounted)
    (ended : (runAction (perform behaviour depth) (comparisons mounted.view.collection.json)).run
      (page.begun list) = some (values, asked))
    (there : asked.list? list = some before)
    (run : (Patch.arrange (values.filterMap Patch.indexOf)).on ⟨before.view, asked.document⟩ =
      (.ok sorted, scene)) :
    ((sorting behaviour depth list comparisons).run page).map
        (fun (answer, left) => (some answer, left)) =
      (telling behaviour depth list .sort sorted).run
        (struck asked list (.arrange (values.filterMap Patch.indexOf)) (.ok sorted) scene) := by
  have began := list?_begun found
  have patched := patch_run there run fun _ => some .sorted
  rw [sorting, during_run, ← begun, StateT.run_bind, models_run began, Option.bind_eq_bind,
    Option.bind_some, StateT.run_bind]
  change ((Option.bind ((runAction (perform behaviour depth)
    (comparisons mounted.view.collection.json)).run (page.begun list)) _).map _).map _ = _
  rw [ended, Option.bind_some, StateT.run_bind, patched, Option.bind_eq_bind, Option.bind_some,
    telling, announce, StateT.run_bind, StateT.run_bind]
  change ((Option.bind ((notify _ _ _ _).run (struck asked list
    (.arrange (values.filterMap Patch.indexOf)) (.ok sorted) scene)) _).map _).map _ = _
  cases (notify (behaviour.callbacks (perform behaviour depth)) list .sort (.array sorted)).run
    (struck asked list (.arrange (values.filterMap Patch.indexOf)) (.ok sorted) scene) <;> rfl

/-! ## Whatever the comparisons do -/

theorem asks_any {α : Type} (action : Action ℓ π κ σ α) : action.Asks fun _ => True := by
  induction action with
  | done => trivial
  | look next ih => exact fun world => ih world
  | note f next ih => exact ih
  | ask request next ih => exact ⟨trivial, fun answer => ih answer⟩

section

variable {α : Type} {action : Action ℓ π κ σ α} {a : α}

theorem runAction_sane (sane : EachView ListView.Sane page)
    (ended : (runAction (perform behaviour depth) action).run page = some (a, asked)) :
    EachView ListView.Sane asked := by
  have kept : (viewing ListView.Sane).Keeps page (runAction (perform behaviour depth) action)
      (runAction (perform behaviour depth) action) fun _ _ => True :=
    runAction_keeps (fun r _ page sane answer left run =>
        ⟨run, EachView.perform Stroke.sane sane run, trivial, trivial⟩)
      (fun _ _ sane => ⟨sane, trivial⟩) action (asks_any action) sane
  exact (kept a asked ended).2.1

theorem runAction_hosts (onLists : behaviour.OnLists) (onList : action.Asks Request.OnList)
    (hosts : Hosts page)
    (ended : (runAction (perform behaviour depth) action).run page = some (a, asked)) :
    Hosts asked := by
  have kept : (hosting : Course ℓ σ).Keeps page (runAction (perform behaviour depth) action)
      (runAction (perform behaviour depth) action) fun _ _ => True :=
    runAction_keeps (fun r onList page hosts => perform_hosts onLists depth r onList hosts)
      (fun _ _ hosts => ⟨Hosts.of_views hosts rfl fun _ mounted there => ⟨mounted, there, rfl⟩,
        trivial⟩) action onList hosts
  exact (kept a asked ended).2.1

end

/-- What a call that sorts makes of a list. The comparisons leave the page `asked` behind, and `sent`
is the page on which the listeners are told. If everything is `confined` to lists, the container is
known too. -/
def Rearranged (behaviour : Behaviour ℓ π κ σ) (depth list : Nat)
    (comparisons : Action ℓ π κ σ (List Value)) (confined : Prop) (page left : Page ℓ σ)
    (mounted : Mounted ℓ) (sorted : List Value) : Prop :=
  ∃ values asked before sent now,
    (runAction (perform behaviour depth) comparisons).run (page.begun list) = some (values, asked) ∧
    (values.filterMap Patch.indexOf).Perm mounted.view.collection.indices ∧
    asked.list? list = some before ∧ sent.list? list = some now ∧
    before.view.collection.Rearranges (values.filterMap Patch.indexOf) now.view.collection ∧
    now.view.collection.json = sorted ∧
    (confined → Hosts page → now.view.Presents sent.document) ∧
    (telling behaviour depth list .sort sorted).run sent = some (some (.ok sorted), left)

theorem sorting_rearranged (sane : EachView ListView.Sane page) (there : page.list? list = some mounted)
    (permutes : ∀ values asked,
      (runAction (perform behaviour depth) (comparisons mounted.view.collection.json)).run
        (page.begun list) = some (values, asked) → values.Perm mounted.view.collection.json)
    (run : (sorting behaviour depth list comparisons).run page = some (.ok sorted, left)) :
    Rearranged behaviour depth list (comparisons mounted.view.collection.json)
      (behaviour.OnLists ∧ (comparisons mounted.view.collection.json).Asks Request.OnList) page left
      mounted sorted := by
  obtain ⟨values, asked, before, scene, compares, found, arranged, tells⟩ := sorting_eq_some there run
  have began : EachView ListView.Sane (page.begun list) := sane.modifyList (sane list)
  have listed := (sane list mounted there).sound.indices_of_perm (permutes values asked compares)
  have distinct := listed.nodup_iff.2 (sane list mounted there).sound.nodup
  -- The comparisons may have left other records behind, which the order does not list.
  have earlier := runAction_sane began compares list before found
  obtain ⟨rearranges, isJson⟩ := Patch.arrange_rearranges earlier.sound.nodup arranged
  refine ⟨values, asked, before, _, _, compares, listed, found, list?_struck found _ _ _,
    rearranges, isJson.symm, fun ⟨onLists, onList⟩ hosts => ?_, tells⟩
  have hosts : Hosts (page.begun list) := hosts.modifyList fun _ => rfl
  obtain ⟨items, arranges⟩ :=
    (runAction_hosts onLists onList hosts compares).arranged list before found
  exact (Patch.arrange_brought arranges earlier distinct arranged).1.presents

/-- Reordering by any list of indices loses no record and shows none twice. So does sorting, by
whatever comparisons that end in the records in some order, and whatever they do to the page: when the
listeners are told, the records are those that were there when the comparisons had ended, the ones that
were compared come first, and the container has them in display order if it is left to its list. -/
theorem rearranged_whatever_compared :
    (∀ (c : Collection) (order : List Nat), c.Rearranges order (c.reorder order)) ∧
    ∀ {behaviour : Behaviour ℓ π κ σ} {depth list : Nat} {page left : Page ℓ σ} {mounted : Mounted ℓ}
      {sorted : List Value}, EachView ListView.Sane page → page.held? list = some mounted →
      (∀ {comparisons : List Value → Action ℓ π κ σ (List Value)},
        (∀ values asked,
          (runAction (perform behaviour depth) (comparisons mounted.view.collection.json)).run
            (page.begun list) = some (values, asked) → values.Perm mounted.view.collection.json) →
        (sorting behaviour depth list comparisons).run page = some (.ok sorted, left) →
        Rearranged behaviour depth list (comparisons mounted.view.collection.json)
          (behaviour.OnLists ∧ (comparisons mounted.view.collection.json).Asks Request.OnList) page
          left mounted sorted) ∧
      ∀ {order : κ},
        (perform behaviour (depth + 1) (.call list (.sortBy order))).run page =
          some (some (.ok sorted), left) →
        Rearranged behaviour depth list
          (sortValues (behaviour.compare order) mounted.view.collection.json) behaviour.OnLists page
          left mounted sorted := by
  refine ⟨Collection.reorder_rearranges, fun {behaviour depth list page left mounted sorted} sane held =>
    ⟨fun permutes run => sorting_rearranged sane (list?_of_held? held) permutes run,
      fun {order} run => ?_⟩⟩
  rw [perform_sortBy held] at run
  obtain ⟨⟨_, _⟩, run, same⟩ := Option.map_eq_some_iff.1 run
  cases same
  obtain ⟨values, asked, before, sent, now, compares, listed, found, there, rearranges, isJson,
    presents, tells⟩ := sorting_rearranged sane (list?_of_held? held)
      (fun _ _ ended => perm_of_sortValues ended) run
  exact ⟨values, asked, before, sent, now, compares, listed, found, there, rearranges, isJson,
    fun onLists => presents ⟨onLists, sortValues_asks (onLists.compare order) _⟩, tells⟩

theorem eq_ok_of_bind_toOption {ε α : Type} {answer : Option (Except ε α)} {a : α}
    (ok : answer.bind Except.toOption = some a) : answer = some (.ok a) := by
  obtain ⟨_, rfl, same⟩ := Option.bind_eq_some_iff.1 ok
  rw [toOption_eq_some.1 same]

/-- A comparison that pushes a record and removes the first one before it tells its result. -/
def meddling : Behaviour Unit Unit Unit Unit where
  listen _ _ := .done ()
  test _ _ := .done true
  compare _ x y := .ask (pushText "c") fun _ => .ask (.call 0 (.remove 0)) fun _ =>
    .done (laterFirst x y)

theorem onLists_meddling : meddling.OnLists where
  listen _ _ := trivial
  test _ _ := trivial
  compare _ _ _ := ⟨trivial, fun _ => ⟨trivial, fun _ => trivial⟩⟩

def backwards (values : List Value) : Action Unit Unit Unit Unit (List Value) := do
  return (← sortValues (meddling.compare ()) values).reverse

theorem perm_of_backwards {ask : (r : Request Unit Unit Unit) → Run Unit Unit r.Answer}
    {page asked : Page Unit Unit} {given values : List Value}
    (ended : (runAction ask (backwards given)).run page = some (values, asked)) :
    values.Perm given := by
  have split : runAction ask (backwards given) =
      runAction ask (sortValues (meddling.compare ()) given) >>= fun sorted =>
        runAction ask (.done sorted.reverse) := Event.Script.run_andThen ..
  rw [split, StateT.run_bind] at ended
  obtain ⟨⟨sorted, _⟩, first, same⟩ := Option.bind_eq_some_iff.1 ended
  cases same
  exact (List.reverse_perm sorted).trans (perm_of_sortValues first)

theorem texts_rearranged :
    ((performEach meddling 1 [pushText "a", pushText "b", pushText "c"]).run textsPage).any
      fun (_, page) => (page.held? 0).isSome &&
        ((perform meddling 2 (.call 0 (.sortBy ()))).run page).any (fun (answer, left) =>
          (answer.bind Except.toOption).isSome &&
            (left.list? 0).any fun mounted => mounted.view.collection.indices == [2, 1, 3, 4, 5]) &&
        ((sorting meddling 1 0 backwards).run page).any fun (answer, left) =>
          answer.toOption.isSome &&
            (left.list? 0).any fun mounted => mounted.view.collection.indices == [1, 2, 3, 4, 5] := by
  decide +kernel

theorem rearranged_whatever_compared_texts : ∃ (page : Page Unit Unit) (mounted : Mounted Unit),
    EachView ListView.Sane page ∧ page.held? 0 = some mounted ∧ meddling.OnLists ∧ Hosts page ∧
    (∃ (left : Page Unit Unit) (sorted : List Value),
      (perform meddling 2 (.call 0 (.sortBy ()))).run page = some (some (.ok sorted), left) ∧
      Rearranged meddling 1 0 (sortValues (meddling.compare ()) mounted.view.collection.json)
        meddling.OnLists page left mounted sorted) ∧
    ∃ (left : Page Unit Unit) (sorted : List Value),
      (∀ values asked,
        (runAction (perform meddling 1) (backwards mounted.view.collection.json)).run
          (page.begun 0) = some (values, asked) → values.Perm mounted.view.collection.json) ∧
      (sorting meddling 1 0 backwards).run page = some (.ok sorted, left) ∧
      Rearranged meddling 1 0 (backwards mounted.view.collection.json)
        (meddling.OnLists ∧ (backwards mounted.view.collection.json).Asks Request.OnList) page left
        mounted sorted := by
  obtain ⟨⟨_, page⟩, pushed, rest⟩ := (Option.any_eq_true _ _).1 texts_rearranged
  obtain ⟨first, second⟩ := Bool.and_eq_true_iff.1 rest
  obtain ⟨isHeld, first⟩ := Bool.and_eq_true_iff.1 first
  obtain ⟨mounted, held⟩ := Option.isSome_iff_exists.1 isHeld
  have onList : ∀ r ∈ [pushText "a", pushText "b", pushText "c"], r.OnList := by
    simp [pushText, Request.OnList]
  have attained := (attained_textsPage meddling).each onList pushed
  refine ⟨page, mounted, attained.sane, held, onLists_meddling, attained.hosts onLists_meddling, ?_, ?_⟩
  · obtain ⟨⟨answer, left⟩, run, rest⟩ := (Option.any_eq_true _ _).1 first
    obtain ⟨sorted, isSorted⟩ := Option.isSome_iff_exists.1 (Bool.and_eq_true_iff.1 rest).1
    obtain rfl := eq_ok_of_bind_toOption isSorted
    exact ⟨left, sorted, run, (rearranged_whatever_compared.2 attained.sane held).2 run⟩
  · obtain ⟨⟨answer, left⟩, run, rest⟩ := (Option.any_eq_true _ _).1 second
    obtain ⟨sorted, isSorted⟩ := Option.isSome_iff_exists.1 (Bool.and_eq_true_iff.1 rest).1
    obtain rfl := toOption_eq_some.1 isSorted
    have permutes (values : List Value) (asked : Page Unit Unit)
        (ended : (runAction (perform meddling 1) (backwards mounted.view.collection.json)).run
          (page.begun 0) = some (values, asked)) : values.Perm mounted.view.collection.json :=
      perm_of_backwards ended
    exact ⟨left, sorted, permutes, run,
      (rearranged_whatever_compared.2 attained.sane held).1 permutes run⟩

/-! ## Comparisons that order the records -/

theorem Leaves.presents {later : Page ℓ σ} {stroke : Stroke} {result : stroke.Result}
    {items : Items Plant} (leaves : Leaves list (struck page list stroke result scene) later)
    (there : page.list? list = some mounted) (arranges : scene.view.Arranges scene.document items)
    (presents : scene.view.Presents scene.document) :
    ∃ now, later.list? list = some now ∧ now.view = scene.view ∧ now.owned = mounted.owned ∧
      scene.view.Arranges later.document items ∧ scene.view.Presents later.document ∧
      later.document.holdsRawText scene.view.container =
        scene.document.holdsRawText scene.view.container := by
  have struckThere := list?_struck there stroke result scene
  obtain ⟨now, there', view, -, owned⟩ := leaves.there _ struckThere
  have grounded := leaves.grounded arranges.layout.grounded
  have content : ∀ id ∈ scene.document.subtree scene.view.container,
      later.document.node? id = scene.document.node? id := leaves.content _ struckThere
  exact ⟨now, there', view, owned, arranges.congr grounded content,
    presents.congr arranges grounded content, arranges.holdsRawText_congr content⟩

section

variable {compare : Value → Value → Ordering} {items : Items Plant}

theorem compared_run (gives : ∀ x ∈ values, ∀ y ∈ values,
      (behaviour.compare order x y).Gives (compare x y)) (page : Page ℓ σ) :
    (runAction (perform behaviour depth) (sortValues (behaviour.compare order) values)).run page =
      some (sortedBy compare values, page) := by
  rw [runAction_sortValues]
  exact sortValues_run fun x insideX y insideY => runAction_gives (gives x insideX y insideY) page

/-- Records that are in the order of a comparison are left as they are by sorting again, and so is what
is shown of them. -/
theorem sortBy_again (held : page.held? list = some mounted) (sane : mounted.view.Sane)
    (arranges : mounted.view.Arranges page.document items)
    (presents : mounted.view.Presents page.document)
    (ordered : mounted.view.collection.json.Pairwise fun x y => (compare x y).isLE)
    (orders : Orders compare mounted.view.collection.json)
    (gives : ∀ x ∈ mounted.view.collection.json, ∀ y ∈ mounted.view.collection.json,
      (behaviour.compare order x y).Gives (compare x y)) (depth : Nat) :
    ∃ sent, (perform behaviour (depth + 1) (.call list (.sortBy order))).run page =
        (telling behaviour depth list .sort mounted.view.collection.json).run sent ∧
      ∀ later, Leaves list sent later → ∃ now, later.list? list = some now ∧
        now.view.collection.json = mounted.view.collection.json ∧
        now.view.html later.document = mounted.view.html page.document := by
  have began := list?_begun (list?_of_held? held)
  have unchanged : sortedBy compare mounted.view.collection.json = mounted.view.collection.json :=
    ordered.insertionSort_eq
  obtain ⟨values, scene, arranged⟩ := Patch.arrange_succeeds arranges presents.drawn
    ((sortedBy compare mounted.view.collection.json).filterMap Patch.indexOf)
  obtain ⟨brought, isSorted, sorted⟩ := Patch.arrange_sorted sane arranges orders arranged
  rw [unchanged] at isSorted
  subst isSorted
  refine ⟨_, (perform_sortBy held).trans
    (sorting_run (list?_of_held? held) (compared_run gives _) began arranged), fun later leaves => ?_⟩
  obtain ⟨items', arranges'⟩ := brought.arranges
  obtain ⟨now, there, view, -, -, presents', raw⟩ :=
    leaves.presents began arranges' brought.presents
  have indices : scene.view.collection.indices = mounted.view.collection.indices := by
    have listed := sane.sound.indices_of_perm (sortedBy_perm compare mounted.view.collection.json)
    rw [brought.rearranges.indices_of_perm sane.sound.nodup listed, unchanged,
      sane.sound.filterMap_indexOf]
  refine ⟨now, there, view ▸ sorted.models, ?_⟩
  rw [view]
  exact brought.html_eq indices presents presents' raw

end

/-- Sorting by comparisons that order the records brings them into that order, whatever is hidden: when
the listeners are told, and for as long as the list is left as it is from then on, the records are those
that were there, the container presents them, and sorting again changes nothing. Sorting by index
leaves the display order ascending. -/
theorem sorted_while_left {behaviour : Behaviour ℓ π κ σ} (onLists : behaviour.OnLists)
    {page left : Page ℓ σ} (attained : Attained behaviour page) {list depth : Nat} {mounted : Mounted ℓ}
    (held : page.held? list = some mounted) :
    (∀ {order : κ} {compare : Value → Value → Ordering} {sorted : List Value},
      Orders compare mounted.view.collection.json →
      (∀ x ∈ mounted.view.collection.json, ∀ y ∈ mounted.view.collection.json,
        (behaviour.compare order x y).Gives (compare x y)) →
      (perform behaviour (depth + 1) (.call list (.sortBy order))).run page =
        some (some (.ok sorted), left) →
      ∃ sent, (telling behaviour depth list .sort sorted).run sent = some (some (.ok sorted), left) ∧
        ∀ later, Leaves list sent later → ∃ now, later.list? list = some now ∧
          mounted.view.collection.SortedFrom compare now.view.collection sorted ∧
          now.view.Presents later.document ∧
          ∀ depth, ∃ sent',
            (perform behaviour (depth + 1) (.call list (.sortBy order))).run later =
              (telling behaviour depth list .sort sorted).run sent' ∧
            ∀ later', Leaves list sent' later' → ∃ now', later'.list? list = some now' ∧
              now'.view.collection.json = now.view.collection.json ∧
              now'.view.html later'.document = now.view.html later.document) ∧
    (∀ {values : List Value},
      (perform behaviour (depth + 1) (.call list .sort)).run page = some (some (.ok values), left) →
      ∃ sent, (telling behaviour depth list .sort values).run sent = some (some (.ok values), left) ∧
        ∀ later, Leaves list sent later → ∃ now, later.list? list = some now ∧
          now.view.collection.indices.Pairwise (· < ·) ∧ now.view.collection.json = values ∧
          (∀ index, now.view.collection.get? index = mounted.view.collection.get? index) ∧
          now.view.Presents later.document) := by
  have there := list?_of_held? held
  have began := list?_begun there
  have sane := attained.sane list mounted there
  obtain ⟨items, arranges⟩ := (attained.hosts onLists).arranged list mounted there
  have owned : mounted.owned := (Option.filter_eq_some_iff.1 held).2
  refine ⟨fun {order compare sorted} orders gives run => ?_, fun {values} run => ?_⟩
  · rw [perform_sortBy held] at run
    obtain ⟨⟨_, _⟩, run, same⟩ := Option.map_eq_some_iff.1 run
    cases same
    obtain ⟨_, _, before, scene, compares, found, arranged, tells⟩ := sorting_eq_some there run
    -- Pure comparisons change nothing, so the records are arranged as they were found.
    cases (compared_run gives _).symm.trans compares
    cases began.symm.trans found
    obtain ⟨brought, -, isSorted⟩ := Patch.arrange_sorted sane arranges orders arranged
    obtain ⟨items', arranges'⟩ := brought.arranges
    refine ⟨_, tells, fun later leaves => ?_⟩
    obtain ⟨now, there', view, owned', laterArranges, presents, -⟩ :=
      leaves.presents began arranges' brought.presents
    rw [← view] at isSorted laterArranges presents
    refine ⟨now, there', isSorted, presents, fun depth => ?_⟩
    have models := isSorted.models
    have members : now.view.collection.json ⊆ mounted.view.collection.json :=
      (models ▸ isSorted.perm).subset
    have saneNow : now.view.Sane := by
      refine ⟨?_, view ▸ brought.sound⟩
      rw [view, brought.same]
      exact sane.rooted
    have again := sortBy_again (held?_of_list? there' (owned'.trans owned)) saneNow laterArranges presents
      (models ▸ isSorted.ordered) (orders.of_subset members)
      (fun x insideX y insideY => gives x (members insideX) y (members insideY)) depth
    rwa [models] at again ⊢
  · obtain ⟨scene, arranged, tells⟩ := perform_sort_eq_some held run
    obtain ⟨order, brought, isJson, ascending⟩ := Patch.sort_brought arranges sane arranged
    obtain ⟨items', arranges'⟩ := brought.arranges
    refine ⟨_, tells, fun later leaves => ?_⟩
    obtain ⟨now, there', view, -, -, presents, -⟩ :=
      leaves.presents began arranges' brought.presents
    rw [← view] at ascending isJson presents
    exact ⟨now, there', ascending, isJson.symm, fun index => view ▸ brought.rearranges.get? index,
      presents⟩

def byLength (x y : Value) : Ordering :=
  compare (length x) (length y)
where
  length (value : Value) : Nat :=
    match value.field? "text" with
    | some (.string text) => text.length
    | _ => 0

def measuring : Behaviour Unit Unit Unit Unit where
  listen _ _ := .ask (pushText "dddd") fun _ => .done ()
  test _ value := .done (byLength.length value == 1)
  compare _ x y := .done (byLength x y)

theorem onLists_measuring : measuring.OnLists where
  listen _ _ := ⟨trivial, fun _ => trivial⟩
  test _ _ := trivial
  compare _ _ _ := trivial

theorem orders_byLength (values : List Value) : Orders byLength values where
  swap _ _ _ _ := (Nat.compare_swap _ _).symm
  trans _ _ _ _ _ _ first second :=
    Nat.isLE_compare.2 ((Nat.isLE_compare.1 first).trans (Nat.isLE_compare.1 second))

def measuredTexts : List (Request Unit Unit Unit) :=
  [pushText "bb", pushText "a", pushText "cc", .call 0 (.filter ())]

theorem texts_measured :
    ((performEach measuring 1 measuredTexts).run textsPage).any fun (_, page) =>
      (page.held? 0).any (fun mounted => mounted.view.html page.document == "<li data-id=\"1\">A</li>") &&
      ((perform measuring 2 (.call 0 (.sortBy ()))).run page).any (fun (answer, left) =>
        (answer.bind Except.toOption).isSome && (left.list? 0).any fun mounted =>
          mounted.view.html left.document ==
            "<li data-id=\"1\">A</li><li data-id=\"0\">BB</li><li data-id=\"2\">CC</li>") := by
  decide +kernel

theorem sorted_while_left_texts : ∃ (page left : Page Unit Unit) (mounted : Mounted Unit)
    (sorted : List Value), measuring.OnLists ∧ Attained measuring page ∧ page.held? 0 = some mounted ∧
    mounted.view.html page.document = "<li data-id=\"1\">A</li>" ∧
    Orders byLength mounted.view.collection.json ∧
    (∀ x ∈ mounted.view.collection.json, ∀ y ∈ mounted.view.collection.json,
      (measuring.compare () x y).Gives (byLength x y)) ∧
    (perform measuring 2 (.call 0 (.sortBy ()))).run page = some (some (.ok sorted), left) ∧
    ∃ sent, (telling measuring 1 0 .sort sorted).run sent = some (some (.ok sorted), left) ∧
      ∀ later, Leaves 0 sent later → ∃ now, later.list? 0 = some now ∧
        mounted.view.collection.SortedFrom byLength now.view.collection sorted ∧
        now.view.Presents later.document := by
  obtain ⟨⟨_, page⟩, pushed, rest⟩ := (Option.any_eq_true _ _).1 texts_measured
  obtain ⟨isHeld, rest⟩ := Bool.and_eq_true_iff.1 rest
  obtain ⟨mounted, held, shown⟩ := (Option.any_eq_true _ _).1 isHeld
  obtain ⟨⟨answer, left⟩, run, rest⟩ := (Option.any_eq_true _ _).1 rest
  obtain ⟨sorted, isSorted⟩ := Option.isSome_iff_exists.1 (Bool.and_eq_true_iff.1 rest).1
  obtain rfl := eq_ok_of_bind_toOption isSorted
  have onList : ∀ r ∈ measuredTexts, r.OnList := by
    simp [measuredTexts, pushText, Request.OnList]
  have attained := (attained_textsPage measuring).each onList pushed
  obtain ⟨sent, tells, settled⟩ := (sorted_while_left onLists_measuring attained held).1
    (orders_byLength _) (fun _ _ _ _ => rfl) run
  refine ⟨page, left, mounted, sorted, onLists_measuring, attained, held, eq_of_beq shown,
    orders_byLength _, fun _ _ _ _ => rfl, run, sent, tells, fun later leaves => ?_⟩
  obtain ⟨now, there, isSorted, presents, -⟩ := settled later leaves
  exact ⟨now, there, isSorted, presents⟩

theorem texts_disturbed :
    ((performEach measuring 1 (.call 0 (.subscribe [.sort] ()) :: measuredTexts)).run textsPage).any
      fun (_, page) => (page.held? 0).isSome &&
        ((perform measuring 2 (.call 0 (.sortBy ()))).run page).any fun (answer, left) =>
          (answer.bind Except.toOption).any fun sorted => (left.list? 0).any fun now =>
            sorted.length != now.view.collection.json.length := by
  decide +kernel

/-- A listener that is told of a sorting may change the list before the answer is given. -/
theorem sorted_not_left : ∃ (page left : Page Unit Unit) (mounted now : Mounted Unit)
    (sorted : List Value), Attained measuring page ∧ page.held? 0 = some mounted ∧
    Orders byLength mounted.view.collection.json ∧
    (∀ x y, (measuring.compare () x y).Gives (byLength x y)) ∧
    (perform measuring 2 (.call 0 (.sortBy ()))).run page = some (some (.ok sorted), left) ∧
    left.list? 0 = some now ∧ now.view.collection.json ≠ sorted := by
  obtain ⟨⟨_, page⟩, pushed, rest⟩ := (Option.any_eq_true _ _).1 texts_disturbed
  obtain ⟨isHeld, rest⟩ := Bool.and_eq_true_iff.1 rest
  obtain ⟨mounted, held⟩ := Option.isSome_iff_exists.1 isHeld
  obtain ⟨⟨answer, left⟩, run, rest⟩ := (Option.any_eq_true _ _).1 rest
  obtain ⟨sorted, isSorted, rest⟩ := (Option.any_eq_true _ _).1 rest
  obtain ⟨now, there, differ⟩ := (Option.any_eq_true _ _).1 rest
  obtain rfl := eq_ok_of_bind_toOption isSorted
  have onList : ∀ r ∈ (.call 0 (.subscribe [.sort] ()) :: measuredTexts), r.OnList := by
    simp [measuredTexts, pushText, Request.OnList]
  refine ⟨page, left, mounted, now, sorted, (attained_textsPage measuring).each onList pushed, held,
    orders_byLength _, fun _ _ => rfl, run, there, fun same => bne_iff_ne.1 differ ?_⟩
  rw [same]

end Page

end LiveList
