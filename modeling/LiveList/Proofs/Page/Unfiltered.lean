import LiveList.Proofs.Page.Stages
import LiveList.Proofs.Page.Told
import LiveList.Proofs.Page.Whole

/-!
# Lists without their filters

Filters and redrawing are about what is shown and nothing else. Main statement: where all requests for
them are left out, every other request is answered as before, the records and the counter are the same
after each, and the same is told to the listeners, but for what the filters had to say.
-/

namespace LiveList

open Event (Hub Kind ListenerId Notification)
open Json (Value)

variable {ℓ π κ σ : Type}

def Request.isView : Request ℓ π κ → Bool
  | .call _ (.filter _) | .call _ .updateView => true
  | _ => false

/-! ## Twins -/

theorem Stroke.kind_of_said {stroke : Stroke} {result : stroke.Result} {notification : Notification}
    (keeps : ∀ since matched, stroke ≠ .showOnly since matched)
    (said : stroke.said result = some notification) : notification.kind ≠ .filter := by
  cases stroke with
  | showOnly since matched => exact absurd rfl (keeps since matched)
  | removeAll =>
    cases said
    exact nofun
  | remove =>
    cases result with
    | none => cases said
    | some removed =>
      cases said
      exact nofun
  | edit =>
    rcases result with cause | _ | edited
    · cases said
    · cases said
    · cases said
      exact nofun
  | insert | insertAll | arrange | sort =>
    cases result with
    | error cause => cases said
    | ok value =>
      cases said
      exact nofun
  | updateView | addFilter => cases said

namespace Told

/-- Two tellings of a list, the second one of a list that was never filtered. -/
structure Twins (told told' : Told ℓ) : Prop where
  view : told.sketch.view = told'.sketch.view
  whole : told'.sketch.Whole
  hub : told.hub = told'.hub
  sent : told.sent.filter (·.kind != .filter) = told'.sent
  heard : told.heard.filter (·.2.kind != .filter) = told'.heard

variable {told told' : Told ℓ}

namespace Twins

theorem struck (twins : Twins told told') (stroke : Stroke)
    (keeps : ∀ since matched, stroke ≠ .showOnly since matched)
    (edits : ∀ index fields, stroke = .edit index fields →
      index ∈ told.sketch.view.collection.indices → told.sketch.items.of index ≠ []) :
    (told.struck stroke).1 = (told'.struck stroke).1 ∧
      Twins (told.struck stroke).2 (told'.struck stroke).2 := by
  obtain ⟨⟨view, items⟩, hub, lines, sent, heard⟩ := told
  obtain ⟨⟨view', items'⟩, hub', lines', sent', heard'⟩ := told'
  obtain ⟨sameView, whole, sameHub, sameSent, sameHeard⟩ := twins
  dsimp only at sameView sameHub sameSent sameHeard edits
  subst sameView sameHub sameSent sameHeard
  obtain ⟨results, views⟩ := stroke.sketch_view view items items' fun index fields isEdit inside =>
    iff_of_false (edits index fields isEdit inside) (whole.shown index inside)
  refine ⟨results, views, whole.stroke stroke keeps, rfl, ?_, ?_⟩
  · simp only [Told.struck, results, List.filter_append]
    cases said : stroke.said (stroke.sketch ⟨view, items'⟩).1 with
    | none => simp
    | some notification => simp [Stroke.kind_of_said keeps said]
  · simp only [Told.struck, results, List.filter_append]
    cases said : stroke.said (stroke.sketch ⟨view, items'⟩).1 with
    | none => simp
    | some notification =>
      have others : ∀ entry ∈ hearing ⟨⟨view, items⟩, hub, lines, sent, heard⟩ notification,
          (entry.2.kind != .filter) = true := fun entry inside => by
        obtain ⟨_, -, rfl⟩ := List.mem_map.1 inside
        simpa using Stroke.kind_of_said keeps said
      simp only [Option.toList_some, List.flatMap_singleton, List.filter_eq_self.2 others]
      rfl

theorem unseen (twins : Twins told told') {stroke : Stroke}
    (shows : stroke = .updateView ∨ ∃ since matched, stroke = .showOnly since matched) :
    Twins (told.struck stroke).2 told' := by
  have view : (stroke.sketch told.sketch).2.view = told.sketch.view := by
    rcases shows with rfl | ⟨since, matched, rfl⟩
    · simp only [Stroke.sketch, Sketch.attempt, Sketch.updateView, Sketch.rerender]
      cases told.sketch.view.drawAll _ <;> rfl
    · simp only [Stroke.sketch, Sketch.attempt, Sketch.showOnly, Sketch.rerender]
      cases told.sketch.view.drawAll _ <;> rfl
  -- What such a stroke says, if anything, is of the one kind that is not compared.
  have silent : ∀ notification ∈ (stroke.said (stroke.sketch told.sketch).1).toList,
      notification.kind = .filter := fun notification inside => by
    rw [Option.mem_toList] at inside
    rcases shows with rfl | ⟨since, matched, rfl⟩
    · cases inside
    · cases result : (Stroke.sketch (.showOnly since matched) told.sketch).1 with
      | error cause =>
        rw [result] at inside
        cases inside
      | ok values =>
        rw [result] at inside
        cases inside
        rfl
  refine ⟨view.trans twins.view, twins.whole, twins.hub, ?_, ?_⟩
  · simp only [Told.struck, List.filter_append, twins.sent]
    rw [List.filter_eq_nil_iff.2 fun notification inside => by simp [silent notification inside],
      List.append_nil]
  · simp only [Told.struck, List.filter_append, twins.heard]
    rw [List.filter_eq_nil_iff.2, List.append_nil]
    intro entry inside
    obtain ⟨notification, said, inside⟩ := List.mem_flatMap.1 inside
    obtain ⟨_, -, rfl⟩ := List.mem_map.1 inside
    simp [silent notification said]

end Twins

def twinned : Page.Coupling (StateM (Told ℓ)) (StateM (Told ℓ)) where
  couples expected run other := ∀ told told', Twins told told' →
    (run.run told).1 = (other.run told').1 ∧ expected (run.run told).1 ∧
      Twins (run.run told).2 (other.run told').2
  pure holds _ _ twins := ⟨rfl, holds, twins⟩
  bind := by
    intro _ _ expected final run other next next' first rest told told' twins
    obtain ⟨same, holds, later⟩ := first told told' twins
    have final := rest _ holds _ _ later
    have second : (other >>= next').run told' =
        (next' (other.run told').1).run (other.run told').2 := rfl
    rw [second, ← same]
    exact final

def untwinned (told' : Told ℓ) : Page.Coupling (StateM (Told ℓ)) (StateM (Told ℓ)) where
  couples expected run _ := ∀ told, Twins told told' →
    expected (run.run told).1 ∧ Twins (run.run told).2 told'
  pure holds _ twins := ⟨holds, twins⟩
  bind first rest told twins :=
    have ⟨holds, later⟩ := first told twins
    rest _ holds _ later

variable {test : π → Value → Bool} {compare : κ → Value → Value → Ordering} {list : Nat}
  {r : Request ℓ π κ}

theorem Twins.serve (test : π → Value → Bool) (compare : κ → Value → Value → Ordering)
    (twins : Twins told told') (its : r.Of list) (plain : r.isView = false)
    (edits : ∀ index fields, r = .call list (.edit index fields) →
      index ∈ told.sketch.view.collection.indices → told.sketch.items.of index ≠ []) :
    ((Told.serve test compare r).run told).1 = ((Told.serve test compare r).run told').1 ∧
      Twins ((Told.serve test compare r).run told).2 ((Told.serve test compare r).run told').2 := by
  cases r with
  | call other call =>
    obtain rfl : other = list := its
    suffices answered : (((parts test compare).answer call).run told).1 =
          (((parts test compare).answer call).run told').1 ∧
        Twins (((parts test compare).answer call).run told).2
          (((parts test compare).answer call).run told').2 from
      ⟨congrArg some answered.1, answered.2⟩
    -- An edit is the one call whose answer depends on what is shown.
    by_cases isEdit : ∃ index fields, call = .edit index fields
    · obtain ⟨index, fields, rfl⟩ := isEdit
      exact twins.struck (.edit index fields) nofun fun _ _ same => by
        cases same
        exact edits index fields rfl
    · have coupled : Page.Parts.Coupled (ℓ := ℓ) twinned Page.Any (parts test compare)
          (parts test compare) call := by
        refine ⟨?_, ?_, ?_, ?_, ?_, ?_, ?_⟩
        · exact fun told told' twins => ⟨congrArg (·.model) twins.view, trivial, twins⟩
        · exact fun told told' twins => ⟨congrArg (·.collection) twins.view, trivial, twins⟩
        · rintro _ rfl
          cases plain
        · exact fun _ _ _ told told' twins => ⟨rfl, trivial, twins⟩
        · exact fun _ _ _ _ told told' twins => ⟨rfl, trivial, twins⟩
        · intro stroke leads told told' twins
          obtain ⟨same, later⟩ := twins.struck stroke
            (fun since matched isFilter => by
              subst isFilter
              cases leads
              cases plain)
            (fun index fields same => by
              subst same
              cases leads
              exact absurd ⟨index, fields, rfl⟩ isEdit)
          exact ⟨same, trivial, later⟩
        · intro kinds listener _ told told' twins
          refine ⟨?_, trivial, twins.view, twins.whole, ?_, twins.sent, twins.heard⟩
          · exact congrArg (fun hub => (Hub.subscribe hub kinds listener).2) twins.hub
          · exact congrArg (fun hub => (Hub.subscribe hub kinds listener).1) twins.hub
      obtain ⟨same, -, later⟩ := Page.Parts.answer_coupled coupled told told' twins
      exact ⟨same, later⟩
  | unsubscribe other id =>
    refine ⟨?_, twins.view, twins.whole, ?_, twins.sent, twins.heard⟩
    · exact congrArg (fun hub => (Hub.unsubscribe hub id).2) twins.hub
    · exact congrArg (fun hub => (Hub.unsubscribe hub id).1) twins.hub
  | drop | setInnerHtml | setAttribute | removeElement => exact its.elim

theorem Twins.view_request (twins : Twins told told') (isView : r.isView = true) :
    Twins ((Told.serve test compare r).run told).2 told' := by
  cases r with
  | call other call =>
    have coupled : Page.Parts.Coupled (ℓ := ℓ) (untwinned told') Page.Any (parts test compare)
        (parts test compare) call := by
      refine ⟨fun _ twins => ⟨trivial, twins⟩, fun _ twins => ⟨trivial, twins⟩,
        fun _ _ _ twins => ⟨trivial, twins⟩, fun _ _ _ _ twins => ⟨trivial, twins⟩,
        fun _ _ _ _ _ twins => ⟨trivial, twins⟩, fun stroke leads told twins => ⟨trivial, ?_⟩, ?_⟩
      · refine twins.unseen ?_
        cases leads with
        | filter test since matched => exact .inr ⟨since, matched, rfl⟩
        | updateView => exact .inl rfl
        | _ => cases isView
      · rintro _ _ rfl
        cases isView
    exact (Page.Parts.answer_coupled coupled told twins).2
  | unsubscribe | drop | setInnerHtml | setAttribute | removeElement => cases isView

end Told

/-! ## Runs -/

def Stage.EditsShown (list : Nat) (stage : Stage ℓ π κ σ) : Prop :=
  ∀ index fields, stage.exchange.1 = .call list (.edit index fields) →
    ∀ mounted, stage.found.list? list = some mounted →
      index ∈ mounted.view.collection.indices → mounted.view.Shows index

/-- The same was asked, and the list has the same records and counter afterwards. The same was answered
too, unless it is about who listens and that need not be `still`. -/
structure Stage.Agrees (still : Prop) (list : Nat) (stage other : Stage ℓ π κ σ) : Prop where
  request : stage.exchange.1 = other.exchange.1
  exchange : stage.exchange.1.Settled still → stage.exchange = other.exchange
  collection : (stage.left.list? list).map (·.view.collection) =
    (other.left.list? list).map (·.view.collection)

/-- The first chronicle is the other one but for what is about what is shown. -/
structure Chronicle.Unfilters (still : Prop) (list : Nat) (all rest : Chronicle ℓ π κ σ) : Prop where
  stages : List.Forall₂ (Stage.Agrees still list)
    (all.stages.filter fun stage => !stage.exchange.1.isView) rest.stages
  sent : all.sent.filter (·.kind != .filter) = rest.sent
  heard : still → all.heard.filter (·.2.kind != .filter) = rest.heard

namespace Page

variable {still : Prop} {list depth : Nat} {raw raw' : Bool} {behaviour : Behaviour ℓ π κ σ}
  {test : π → Value → Bool} {compare : κ → Value → Value → Ordering} {s s' t t' : Traced ℓ π κ σ}
  {told told' : Told ℓ} {requests : List (Request ℓ π κ)}

theorem Portrays.collection (portrays : Portrays still list raw s told) :
    (s.page.list? list).map (·.view.collection) = some told.sketch.view.collection := by
  obtain ⟨mounted, items, portrays⟩ := portrays
  rw [portrays.there, Option.map_some, ← portrays.sketch]
  rfl

theorem Portrays.edits_shown (portrays : Portrays still list raw s told) {stage : Stage ℓ π κ σ}
    (found : stage.found = s.page) (shown : stage.EditsShown list) (index : Nat) (fields : Value)
    (isEdit : stage.exchange.1 = .call list (.edit index fields))
    (inside : index ∈ told.sketch.view.collection.indices) : told.sketch.items.of index ≠ [] := by
  obtain ⟨mounted, items, portrays⟩ := portrays
  rw [← portrays.sketch] at inside ⊢
  rw [← portrays.arranged.shows_iff]
  exact shown index fields isEdit mounted (found ▸ portrays.there) inside

/-- A run and the run without what is about what is shown, of lists that are twins. -/
theorem stageEach_twins (its : ∀ r ∈ requests, r.Of list)
    (pure : ∀ r ∈ requests, r.Pure behaviour test compare)
    (portrays : Portrays still list raw s told) (portrays' : Portrays still list raw' s' told')
    (twins : told.Twins told') {stages stages' : List (Stage ℓ π κ σ)}
    (ends : (stageEach (unmarked get) (traceSparing still list behaviour (depth + 1)) requests).run s =
      some (stages, t))
    (shown : ∀ stage ∈ stages, stage.EditsShown list)
    (ends' : (stageEach (unmarked get) (traceSparing still list behaviour (depth + 1))
      (requests.filter fun r => !r.isView)).run s' = some (stages', t')) :
    List.Forall₂ (Stage.Agrees still list)
        (stages.filter fun stage => !stage.exchange.1.isView) stages' ∧
      ∃ told₁ told₁', Portrays still list raw t told₁ ∧ Portrays still list raw' t' told₁' ∧
        told₁.Twins told₁' := by
  induction requests generalizing s s' told told' stages stages' with
  | nil =>
    cases ends
    cases ends'
    exact ⟨.nil, told, told', portrays, portrays', twins⟩
  | cons r rest ih =>
    have itsRest := fun r inside => its r (List.mem_cons_of_mem _ inside)
    have pureRest := fun r inside => pure r (List.mem_cons_of_mem _ inside)
    have itsFirst := its r List.mem_cons_self
    have pureFirst := pure r List.mem_cons_self
    rw [stageEach_run_cons unmarked_get_run] at ends
    obtain ⟨⟨answer, mid⟩, answered, ends⟩ := Option.bind_eq_some_iff.1 ends
    obtain ⟨⟨others, _⟩, ends, same⟩ := Option.map_eq_some_iff.1 ends
    cases same
    obtain ⟨isAnswer, later⟩ := (traceSparing_portrays depth itsFirst pureFirst portrays).1 _ _ answered
    have shownRest : ∀ stage ∈ others, stage.EditsShown list := fun stage inside =>
      shown stage (List.mem_cons_of_mem _ inside)
    -- A request about what is shown is in the first run only, and leaves the lists twins.
    cases isView : r.isView with
    | true =>
      rw [List.filter_cons_of_neg (by simp [isView])] at ends'
      rw [List.filter_cons_of_neg (by simp [isView])]
      exact ih itsRest pureRest later portrays' (twins.view_request isView) ends shownRest ends'
    | false =>
      rw [List.filter_cons_of_pos (by simp [isView]), stageEach_run_cons unmarked_get_run] at ends'
      obtain ⟨⟨answer', mid'⟩, answered', ends'⟩ := Option.bind_eq_some_iff.1 ends'
      obtain ⟨⟨others', _⟩, ends', same⟩ := Option.map_eq_some_iff.1 ends'
      cases same
      obtain ⟨isAnswer', later'⟩ :=
        (traceSparing_portrays depth itsFirst pureFirst portrays').1 _ _ answered'
      obtain ⟨sameAnswer, twins⟩ := twins.serve test compare itsFirst isView
        (portrays.edits_shown rfl (shown _ List.mem_cons_self))
      obtain ⟨agree, rest⟩ := ih itsRest pureRest later later' twins ends shownRest ends'
      rw [List.filter_cons_of_pos (by simp [isView])]
      refine ⟨.cons ⟨rfl, fun settled => ?_, ?_⟩ agree, rest⟩
      · dsimp only
        rw [isAnswer settled, isAnswer' settled, sameAnswer]
      · rw [later.collection, later'.collection, twins.view]

theorem exists_twin_of_built (still : Prop) {page : Page ℓ σ} (consistent : page.document.Consistent)
    {builder : ListBuilder} {view : ListView} (built : builder.build page.document = .ok view)
    (free : ¬ page.document.Below view.container Document.root)
    (there : page.list? list = some ⟨view, Hub.empty, [], true, 0⟩) :
    ∃ raw told, Portrays (π := π) (κ := κ) still list raw ⟨page, []⟩ told ∧ told.Twins told := by
  obtain ⟨items, arranges⟩ := ListBuilder.exists_arranges consistent free built
  obtain ⟨collection, -, rooted, -⟩ := ListBuilder.build_ok built
  have whole : (view.sketch items).Whole := by
    refine ⟨rooted, ?_, ?_⟩ <;> rw [ListView.sketch_collection, collection]
    · exact Collection.empty_sound
    · exact fun _ => nofun
  exact ⟨_, ⟨view.sketch items, Hub.empty, 0, [], []⟩,
    ⟨_, items, there, rfl, arranges, rfl, rfl, rfl, rfl, fun _ => rfl, fun _ => rfl⟩,
    rfl, whole, rfl, rfl, rfl⟩

/-- Filtering is about what is shown only. In any run of requests of a new list, where predicates and
comparisons are pure, listeners leave the list as it is, and no edit finds its record hidden, all that is
not about what is shown comes out the same if filters and redrawing are left out. -/
theorem chronicle_unfiltered (page : Page ℓ σ) (consistent : page.document.Consistent)
    {builder : ListBuilder} {view : ListView} (built : builder.build page.document = .ok view)
    (free : ¬ page.document.Below view.container Document.root)
    (there : page.list? list = some ⟨view, Hub.empty, [], true, 0⟩)
    (its : ∀ r ∈ requests, r.Of list) (pure : ∀ r ∈ requests, r.Pure behaviour test compare)
    (undisturbed : Undisturbed still list behaviour (depth + 1) requests page)
    (undisturbed' : Undisturbed still list behaviour (depth + 1)
      (requests.filter fun r => !r.isView) page)
    (shown : ∀ all, chronicle behaviour (depth + 1) list requests page = some all →
      ∀ stage ∈ all.stages, stage.EditsShown list) :
    ∃ all rest, chronicle behaviour (depth + 1) list requests page = some all ∧
      chronicle behaviour (depth + 1) list (requests.filter fun r => !r.isView) page = some rest ∧
      all.Unfilters still list rest := by
  obtain ⟨stages, traced, ends, told⟩ := exists_chronicle undisturbed
  obtain ⟨stages', traced', ends', told'⟩ := exists_chronicle undisturbed'
  obtain ⟨raw, start, portrays, twins⟩ :=
    exists_twin_of_built (π := π) (κ := κ) still consistent built free there
  obtain ⟨agree, final, final', ⟨_, _, shows⟩, ⟨_, _, shows'⟩, twins⟩ :=
    stageEach_twins its pure portrays portrays twins ends (shown _ told) ends'
  refine ⟨_, _, told, told', agree, ?_, fun isStill => ?_⟩
  · dsimp only
    rw [shows.sent, shows'.sent, twins.sent]
  · dsimp only
    rw [shows.heard isStill, shows'.heard isStill, twins.heard]

def choosing : Behaviour Unit Unit Unit Unit where
  listen _ _ := .done ()
  test _ value := .done (Patch.indexOf value == some 0)
  compare _ x y := .done (Ord.compare (Patch.indexOf y) (Patch.indexOf x))

def chosenTexts : List (Request Unit Unit Unit) :=
  [.call 0 (.subscribe Event.Kind.all ()), pushText "a", pushText "b", .call 0 (.filter ()),
    pushText "c", .call 0 (.edit 0 (.object [("text", .string "d")])), .call 0 (.remove 1),
    .call 0 (.sortBy ()), .call 0 (.filter ()), .call 0 .updateView,
    .call 0 (.edit 2 (.object [("text", .string "e")])), .unsubscribe 0 0]

theorem texts_chosen : (chronicle choosing 1 0 chosenTexts textsPage).any fun all =>
    all.stages.all fun stage => match stage.exchange.1 with
      | .call 0 (.edit index _) => (stage.found.list? 0).any fun mounted =>
        !((OrderedMap.get? mounted.view.nodes index).getD []).isEmpty
      | _ => true := by
  decide +kernel

theorem chronicle_unfiltered_texts : ∃ (view : ListView) (all rest : Chronicle Unit Unit Unit Unit),
    textsPage.document.Consistent ∧ textsBuilder.build textsDocument = .ok view ∧
    ¬ textsPage.document.Below view.container Document.root ∧
    textsPage.list? 0 = some ⟨view, Hub.empty, [], true, 0⟩ ∧
    (∀ r ∈ chosenTexts, r.Of 0) ∧
    (∀ r ∈ chosenTexts, r.Pure choosing (fun _ value => Patch.indexOf value == some 0)
      (fun _ x y => Ord.compare (Patch.indexOf y) (Patch.indexOf x))) ∧
    Undisturbed True 0 choosing 1 chosenTexts textsPage ∧
    Undisturbed True 0 choosing 1 (chosenTexts.filter fun r => !r.isView) textsPage ∧
    chronicle choosing 1 0 chosenTexts textsPage = some all ∧
    (∀ stage ∈ all.stages, stage.EditsShown 0) ∧
    chronicle choosing 1 0 (chosenTexts.filter fun r => !r.isView) textsPage = some rest ∧
    all.Unfilters True 0 rest := by
  obtain ⟨view, built⟩ := exists_texts_view
  obtain ⟨all, told, edits⟩ := (Option.any_eq_true _ _).1 texts_chosen
  have there : textsPage.list? 0 = some ⟨view, Hub.empty, [], true, 0⟩ := by
    rw [textsPage, built]
    rfl
  have document : textsPage.document = textsDocument := by
    rw [textsPage, built]
    rfl
  have consistent : textsPage.document.Consistent := by
    rw [document]
    exact (Document.ofHtml_wellFormed _).coherent.toConsistent
  have free : ¬ textsPage.document.Below view.container Document.root := by
    rw [document]
    exact not_below_texts built
  have its : ∀ r ∈ chosenTexts, r.Of 0 := by simp [chosenTexts, Request.Of, pushText]
  have pure : ∀ r ∈ chosenTexts, r.Pure choosing (fun _ value => Patch.indexOf value == some 0)
      (fun _ x y => Ord.compare (Patch.indexOf y) (Patch.indexOf x)) := by
    simp [chosenTexts, Request.Pure, pushText, choosing, Event.Script.Gives]
  have returns : choosing.ReturnsSparing True 0 0 := fun _ _ s => ⟨s, rfl, .refl s⟩
  obtain ⟨raw, start, portrays, -⟩ := exists_twin_of_built (π := Unit) (κ := Unit) True
    consistent (document ▸ built) free there
  have undisturbed := undisturbed_of_returns returns portrays chosenTexts its pure
  have undisturbed' := undisturbed_of_returns returns portrays (chosenTexts.filter fun r => !r.isView)
    (fun r inside => its r (List.mem_filter.1 inside).1)
    (fun r inside => pure r (List.mem_filter.1 inside).1)
  have shown : ∀ stage ∈ all.stages, stage.EditsShown 0 := by
    intro stage inside index fields isEdit mounted found known
    have holds := List.all_eq_true.1 edits stage inside
    rw [isEdit] at holds
    simpa [found, ListView.Shows] using holds
  obtain ⟨_, rest, told', told'', unfilters⟩ := chronicle_unfiltered textsPage consistent
    (document ▸ built) free there its pure undisturbed undisturbed' fun other told' => by
      cases told.symm.trans told'
      exact shown
  cases told.symm.trans told'
  exact ⟨view, all, rest, consistent, built, free, there, its, pure, undisturbed, undisturbed', told,
    shown, told'', unfilters⟩

end Page

end LiveList
