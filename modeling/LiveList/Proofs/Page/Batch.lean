import LiveList.Proofs.Page.Failure
import LiveList.Proofs.Page.Hosting
import LiveList.Proofs.Page.Told
import LiveList.Proofs.Page.Whole
import LiveList.Proofs.Record.Creation

namespace LiveList

open Document (Plant)
open Json (Value)
open Markup (Tree)

variable {ℓ π κ σ : Type}

def pushes (list : Nat) (items : List Value) : List (Request ℓ π κ) :=
  items.map fun item => .call list (.push item)

def pushed (list : Nat) (item : Value) (index : Nat) : Exchange ℓ π κ :=
  ⟨.call list (.push item), some (.ok (some index))⟩

def Exchange.failure? : Exchange ℓ π κ → Option Error
  | ⟨.call _ call, answer⟩ => answer.bind call.failure?
  | _ => none

namespace Sketch

variable (s : Sketch) (record : Record) (forest : List Tree)

@[simp] theorem withRecord_draw (place : Place) (other : Record) :
    (s.withRecord place record forest).view.draw other = s.view.draw other := rfl

@[simp] theorem withRecord_drawAll (place : Place) (items : List (Record × Record)) :
    (s.withRecord place record forest).view.drawAll items = s.view.drawAll items :=
  ListView.drawAll_congr (s.withRecord_draw record forest place) items

theorem withRecord_withIndex (index : Nat) :
    s.withRecord .back (record.withIndex index) forest = s.withRecord .back record forest := by
  simp only [withRecord, Place.added, Collection.insertBack, Record.withIndex_withIndex]

end Sketch

theorem Patch.numbered_cons (s : Sketch) (record : Record) (forest : List Tree)
    (records : List Record) : numbered s.view.collection (record :: records) =
      record.withIndex s.view.collection.next ::
        numbered (s.withRecord .back record forest).view.collection records := by
  rw [numbered, List.mapIdx_cons]
  refine congrArg _ (congrArg (List.mapIdx · records) (funext fun offset => funext fun other => ?_))
  have next : (s.withRecord .back record forest).view.collection.next = s.view.collection.next + 1 :=
    rfl
  rw [next, Nat.add_assoc, Nat.add_comm 1]

theorem Sketch.length_addAll (blocks : List (Record × List Tree)) (s : Sketch) :
    (addAll blocks s).1.length = blocks.length := by
  induction blocks generalizing s with
  | nil => rfl
  | cons block rest ih => exact congrArg (· + 1) (ih _)

namespace Told

open Page (askEach)

variable {test : π → Value → Bool} {compare : κ → Value → Value → Ordering} {list : Nat} {told : Told ℓ}
  {item : Value} {rest items : List Value} {record : Record}

theorem serve_push (given : item.isTruthy = true) :
    (serve (ℓ := ℓ) test compare (.call list (.push item))).run told =
      match told.sketch.view.model.create item with
      | .error cause => (some (.error cause), told)
      | .ok record => (some ((told.struck (.insert record .back)).1.map fun added => some added.1),
          (told.struck (.insert record .back)).2) := by
  have answered : ((parts (ℓ := ℓ) test compare).answer (.push item)).run told =
      match told.sketch.view.model.create item with
      | .error cause => (.error cause, told)
      | .ok record => ((told.struck (.insert record .back)).1.map fun added => some added.1,
          (told.struck (.insert record .back)).2) := by
    have looked : (parts (ℓ := ℓ) test compare).model.run told = (told.sketch.view.model, told) := rfl
    rw [Page.Parts.answer, Page.Parts.insertData, if_neg (by simp [given]), StateT.run_bind, looked]
    change StateT.run (match told.sketch.view.model.create item with
      | .error cause => _
      | .ok record => _) told = _
    cases told.sketch.view.model.create item <;> rfl
  refine (congrArg (fun ended : Except Error (Option Nat) × Told ℓ => (some ended.1, ended.2))
    answered).trans ?_
  cases told.sketch.view.model.create item <;> rfl

theorem askEach_run_cons (r : Request ℓ π κ) (rest : List (Request ℓ π κ)) :
    (askEach (serve test compare) (r :: rest)).run told =
      (⟨r, ((serve test compare r).run told).1⟩ ::
          ((askEach (serve test compare) rest).run ((serve test compare r).run told).2).1,
        ((askEach (serve test compare) rest).run ((serve test compare r).run told).2).2) := by
  rw [Page.askEach_cons]
  rfl

theorem struck_insert_error {cause : TemplateError}
    (drawn : told.sketch.view.draw (record.withIndex told.sketch.view.collection.next) = .error cause) :
    (told.struck (.insert record .back)).1 = .error (.template cause) := by
  simp only [struck, Stroke.sketch, Sketch.attempt, Sketch.insert, drawn]

theorem struck_insert_ok {forest : List Tree}
    (drawn : told.sketch.view.draw (record.withIndex told.sketch.view.collection.next) = .ok forest) :
    (told.struck (.insert record .back)).1.map (fun added => some added.1) =
        .ok (some told.sketch.view.collection.next) ∧
      (told.struck (.insert record .back)).2.sketch =
        told.sketch.withRecord .back record forest := by
  simp only [struck, Stroke.sketch, Sketch.attempt, Sketch.insert, drawn]
  exact ⟨rfl, trivial⟩

/-- If records can be created, pushing one after the other comes to drawing and adding all of them, and
to the first drawing that fails if one does. -/
theorem serve_pushes (test : π → Value → Bool) (compare : κ → Value → Value → Ordering) (list : Nat)
    {model : Model} (isModel : told.sketch.view.model = model) {records : List Record}
    (created : List.Forall₂ (fun item record => model.create item = .ok record) items records)
    (given : ∀ item ∈ items, item.isTruthy = true) :
    match told.sketch.view.drawAll
      ((Patch.numbered told.sketch.view.collection records).map fun record => (record, record)) with
    | .error cause => ((askEach (serve test compare) (pushes list items)).run told).1.findSome?
        Exchange.failure? = some (.template cause)
    | .ok forests => ((askEach (serve test compare) (pushes list items)).run told).1 =
          List.zipWith (pushed list) items (Sketch.addAll forests told.sketch).1 ∧
        ((askEach (serve test compare) (pushes list items)).run told).2.sketch =
          (Sketch.addAll forests told.sketch).2 := by
  induction created generalizing told with
  | nil => exact ⟨rfl, rfl⟩
  | @cons item record items records first _ ih =>
    have served : (serve (ℓ := ℓ) test compare (.call list (.push item))).run told = _ :=
      serve_push (given item List.mem_cons_self)
    simp only [isModel, first] at served
    rw [pushes, List.map_cons, ← pushes, askEach_run_cons, served]
    cases drawn : told.sketch.view.draw (record.withIndex told.sketch.view.collection.next) with
    | error cause =>
      have failed : (told.struck (.insert record .back)).1 = _ := struck_insert_error drawn
      rw [Patch.numbered, List.mapIdx_cons, List.map_cons, ListView.drawAll]
      simp only [Nat.add_zero, drawn, failed]
      rfl
    | ok forest =>
      obtain ⟨answer, left⟩ := struck_insert_ok drawn
      have isModel' : (told.struck (.insert record .back)).2.sketch.view.model = model := by
        rw [left]
        exact isModel
      have others := ih isModel' fun item inside => given item (List.mem_cons_of_mem _ inside)
      -- How a record is drawn does not depend on the records that were added before.
      rw [left, Sketch.withRecord_drawAll] at others
      rw [Patch.numbered_cons told.sketch record forest, List.map_cons, ListView.drawAll]
      simp only [drawn]
      cases rest : told.sketch.view.drawAll ((Patch.numbered
        (told.sketch.withRecord .back record forest).view.collection records).map
          fun record => (record, record)) with
      | error cause =>
        rw [rest] at others
        simp only [answer]
        exact others
      | ok forests =>
        rw [rest] at others
        simp only [answer, others.1, others.2, Sketch.addAll, Sketch.withRecord_withIndex]
        exact ⟨rfl, trivial⟩

theorem serve_pushAll (test : π → Value → Bool) (compare : κ → Value → Value → Ordering) (list : Nat)
    (told : Told ℓ) (objects : ∀ item ∈ items, ∃ fields, item = .object fields) :
    match ((serve (ℓ := ℓ) test compare (.call list (.pushAll items))).run told).1 with
    | none => False
    | some (.error cause) =>
      ((askEach (serve test compare) (pushes list items)).run told).1.findSome? Exchange.failure? =
          some cause ∧
        ((serve (ℓ := ℓ) test compare (.call list (.pushAll items))).run told).2.sketch = told.sketch
    | some (.ok indices) => indices.length = items.length ∧
        ((askEach (serve test compare) (pushes list items)).run told).1 =
          List.zipWith (pushed list) items indices ∧
        ((askEach (serve test compare) (pushes list items)).run told).2.sketch =
          ((serve (ℓ := ℓ) test compare (.call list (.pushAll items))).run told).2.sketch := by
  have given : ∀ item ∈ items, item.isTruthy = true := fun item inside => by
    obtain ⟨fields, rfl⟩ := objects item inside
    rfl
  have answered : (serve (ℓ := ℓ) test compare (.call list (.pushAll items))).run told =
    (some ((told.struck (.insertAll items)).1.map Prod.fst), (told.struck (.insertAll items)).2) := rfl
  rw [answered]
  simp only [struck, Stroke.sketch, Sketch.attempt, Sketch.insertAll]
  cases has : told.sketch.view.model.defaults with
  | none =>
    cases items with
    | nil => exact ⟨rfl, rfl, rfl⟩
    | cons item rest =>
      have failed := create_of_no_defaults has item
      have served : (serve (ℓ := ℓ) test compare (.call list (.push item))).run told = _ :=
        serve_push (given item List.mem_cons_self)
      simp only [failed] at served
      rw [List.mapM_cons, failed, pushes, List.map_cons, askEach_run_cons, served]
      exact ⟨rfl, rfl⟩
  | some defaults =>
    obtain ⟨records, created⟩ := exists_mapM_create has objects
    have singles := serve_pushes test compare list (rfl : told.sketch.view.model = _)
      (mapM_eq_ok.1 created) given
    have length := (mapM_eq_ok.1 created).length_eq
    simp only [created]
    cases drawn : told.sketch.view.drawAll
      ((Patch.numbered told.sketch.view.collection records).map fun record => (record, record)) with
    | error cause =>
      rw [drawn] at singles
      exact ⟨singles, rfl⟩
    | ok forests =>
      rw [drawn] at singles
      refine ⟨?_, singles⟩
      have keys := congrArg List.length (ListView.keys_drawAll drawn)
      rw [List.length_map, List.length_map, List.length_map, Patch.numbered, List.length_mapIdx] at keys
      exact (Sketch.length_addAll forests told.sketch).trans (keys.trans length.symm)

end Told

namespace Page

/-- There is the same to be seen of a list on two pages: its records and its counter, its markup, and
which of the records are shown. -/
def SeenAlike (list : Nat) (page other : Page ℓ σ) : Prop :=
  ∃ mounted mounted', page.list? list = some mounted ∧ other.list? list = some mounted' ∧
    mounted'.view.collection = mounted.view.collection ∧
    mounted'.view.html other.document = mounted.view.html page.document ∧
    mounted'.view.renderedIndices other.document = mounted.view.renderedIndices page.document ∧
    ∀ index, mounted'.view.Shows index ↔ mounted.view.Shows index

variable {list depth : Nat} {raw : Bool} {page : Page ℓ σ} {mounted : Mounted ℓ} {items : List Value}
  {behaviour : Behaviour ℓ π κ σ}

theorem Portrays.seenAlike {s t : Traced ℓ π κ σ} {told told' : Told ℓ} {unmoved unmoved' : Prop}
    (portrays : Portrays unmoved list raw s told) (portrays' : Portrays unmoved' list raw t told')
    (same : told'.sketch = told.sketch) : SeenAlike list s.page t.page := by
  obtain ⟨mounted, items, shows⟩ := portrays
  obtain ⟨mounted', items', shows'⟩ := portrays'
  have sketch : mounted'.view.sketch items' = mounted.view.sketch items := by
    rw [shows'.sketch, same, shows.sketch]
  refine ⟨mounted, mounted', shows.there, shows'.there, congrArg (·.view.collection) sketch, ?_, ?_,
    fun index => ?_⟩
  · rw [Arranged.html_eq shows'.arranged, Arranged.html_eq shows.arranged, sketch, shows'.raw, shows.raw]
  · rw [Arranged.renderedIndices_eq shows'.arranged, Arranged.renderedIndices_eq shows.arranged, sketch]
  · rw [shows'.arranged.shows_iff, shows.arranged.shows_iff, sketch]

theorem Hosts.portrays (hosts : Hosts page) (held : page.held? list = some mounted) (unmoved : Prop) :
    ∃ raw told, Portrays (π := π) (κ := κ) unmoved list raw ⟨page, []⟩ told := by
  have there := list?_of_held? held
  have owned : mounted.owned = true := by
    rw [held?, there] at held
    by_contra lacks
    simp [Option.filter_some, lacks] at held
  obtain ⟨items, arranged⟩ := hosts.arranged list mounted there
  exact ⟨_, ⟨mounted.view.sketch items, mounted.hub, mounted.journal.length, [], []⟩, mounted, items,
    there, owned, arranged, rfl, rfl, rfl, rfl, fun _ => rfl, fun _ => rfl⟩

/-- A batch agrees with single insertions. On any page that can be attained, as long as the listeners of
the list leave it as it is, pushing objects at once succeeds just if pushing one after the other does. Both
give the records the same indices then, and there is the same to be seen of the list. Otherwise the batch
fails with the error of the first push that fails, and nothing is inserted. -/
theorem pushAll_pushes (onLists : behaviour.OnLists) (attained : Attained behaviour page)
    (held : page.held? list = some mounted) (objects : ∀ item ∈ items, ∃ fields, item = .object fields)
    (undisturbed : Undisturbed False list behaviour (depth + 1) [.call list (.pushAll items)] page)
    (undisturbed' : Undisturbed False list behaviour (depth + 1) (pushes list items) page) :
    ∃ batch left singles left',
      (perform behaviour (depth + 1) (.call list (.pushAll items))).run page = some (some batch, left) ∧
      (askEach (perform behaviour (depth + 1)) (pushes list items)).run page = some (singles, left') ∧
      match batch with
      | .ok indices => indices.length = items.length ∧
          singles = List.zipWith (pushed list) items indices ∧ SeenAlike list left left'
      | .error cause => singles.findSome? Exchange.failure? = some cause ∧ SeenAlike list page left := by
  obtain ⟨raw, told, portrays⟩ := (attained.hosts onLists).portrays (π := π) (κ := κ) held False
  obtain ⟨batched, ran, shows⟩ := askEach_told (fun _ _ => true) (fun _ _ _ => .eq)
    (by simp [Request.Of]) (by simp [Request.Pure]) (by simp [Request.Settled]) portrays undisturbed
  obtain ⟨single, ran', shows'⟩ := askEach_told (fun _ _ => true) (fun _ _ _ => .eq)
    (by simp [pushes, Request.Of]) (by simp [pushes, Request.Pure]) (by simp [pushes, Request.Settled])
    portrays undisturbed'
  have agrees := Told.serve_pushAll (fun (_ : π) _ => true) (fun (_ : κ) _ _ => .eq) list told objects
  rw [Told.askEach_run_cons] at ran shows
  rw [askEach_run_cons] at ran
  obtain ⟨⟨answer, left⟩, performed, ends⟩ := Option.bind_eq_some_iff.1 ran
  cases ends
  cases answered : ((Told.serve (ℓ := ℓ) (fun (_ : π) _ => true) (fun (_ : κ) _ _ => .eq)
    (.call list (.pushAll items))).run told).1 with
  | none =>
    rw [answered] at agrees
    exact agrees.elim
  | some batch =>
    rw [answered] at performed agrees
    refine ⟨batch, _, _, _, performed, ran', ?_⟩
    cases batch with
    | ok indices =>
      obtain ⟨length, singles, same⟩ := agrees
      exact ⟨length, singles, shows.seenAlike shows' same⟩
    | error cause =>
      obtain ⟨failed, same⟩ := agrees
      exact ⟨failed, portrays.seenAlike shows same⟩

def moreTexts : List Value :=
  [.object [("text", .string "b")], .object [("index", .null), ("text", .string "c")]]

theorem texts_batched : ((perform idle 1 (pushText "a")).run textsPage).any fun (_, page) =>
    (page.held? 0).isSome &&
      ((perform idle 1 (.call 0 (.pushAll moreTexts))).run page).any fun (answer, _) =>
        match answer with
        | some (.ok indices) => indices == [1, 2]
        | _ => false := by
  decide +kernel

theorem pushAll_pushes_texts : ∃ (page left left' : Page Unit Unit) (mounted : Mounted Unit)
    (singles : List (Exchange Unit Unit Unit)), Attained idle page ∧ page.held? 0 = some mounted ∧
    Undisturbed False 0 idle 1 [.call 0 (.pushAll moreTexts)] page ∧
    Undisturbed False 0 idle 1 (pushes 0 moreTexts) page ∧
    (perform idle 1 (.call 0 (.pushAll moreTexts))).run page = some (some (.ok [1, 2]), left) ∧
    (askEach (perform idle 1) (pushes 0 moreTexts)).run page = some (singles, left') ∧
    singles = List.zipWith (pushed 0) moreTexts [1, 2] ∧ SeenAlike 0 left left' := by
  obtain ⟨⟨answer, page⟩, ran, holds⟩ := (Option.any_eq_true _ _).1 texts_batched
  rw [Bool.and_eq_true] at holds
  obtain ⟨mounted, held⟩ := Option.isSome_iff_exists.1 holds.1
  obtain ⟨⟨batch, left⟩, batched, isBatch⟩ := (Option.any_eq_true _ _).1 holds.2
  have onLists : idle.OnLists := ⟨fun _ _ => trivial, fun _ _ => trivial, fun _ _ _ => trivial⟩
  have attained : Attained idle page := (attained_textsPage idle).ask (r := pushText "a") trivial ran
  have returns : idle.ReturnsSparing False 0 0 := fun _ _ s => ⟨s, rfl, .refl s⟩
  obtain ⟨raw, told, portrays⟩ := (attained.hosts onLists).portrays (π := Unit) (κ := Unit) held False
  have undisturbed (requests : List (Request Unit Unit Unit)) (its : ∀ r ∈ requests, r.Of 0)
      (pure : ∀ r ∈ requests, r.Pure idle (fun _ _ => true) fun _ _ _ => .eq) :=
    undisturbed_of_returns returns portrays requests its pure
  have batchUndisturbed := undisturbed [.call 0 (.pushAll moreTexts)] (by simp [Request.Of])
    (by simp [Request.Pure])
  have pushesUndisturbed := undisturbed (pushes 0 moreTexts) (by simp [pushes, Request.Of])
    (by simp [pushes, Request.Pure])
  have objects : ∀ item ∈ moreTexts, ∃ fields, item = .object fields := by simp [moreTexts]
  obtain ⟨_, _, singles, left', batched', ran', agrees⟩ :=
    pushAll_pushes onLists attained held objects batchUndisturbed pushesUndisturbed
  rcases batch with _ | cause | indices
  · cases isBatch
  · cases isBatch
  · obtain rfl : indices = [1, 2] := beq_iff_eq.1 isBatch
    cases batched.symm.trans batched'
    exact ⟨page, left, left', mounted, singles, attained, held, batchUndisturbed, pushesUndisturbed,
      batched, ran', agrees.2⟩

end Page

end LiveList
