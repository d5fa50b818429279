import LiveList.Proofs.Page.Course

namespace LiveList

def Request.OnList {ℓ π κ : Type} : Request ℓ π κ → Prop
  | .call .. | .unsubscribe .. | .drop _ => True
  | .setInnerHtml .. | .setAttribute .. | .removeElement _ => False

end LiveList

namespace LiveList.Page

open Event (Notification)
open Json (Value)

variable {ℓ π κ σ α : Type} {course : Course ℓ σ} {silent : Page ℓ σ → Page ℓ σ → Prop}
  {page : Page ℓ σ} {list : Nat}

/-- Callbacks keep pages on course, and others do just the same. Predicates leave pages `silent`. -/
structure Kept (course : Course ℓ σ) (silent : Page ℓ σ → Page ℓ σ → Prop)
    (callbacks watched : Callbacks (Run ℓ σ) ℓ π κ) : Prop where
  listen : ∀ listener notification page, course.sane page → course.Keeps page
    (callbacks.listen listener notification) (watched.listen listener notification) fun _ _ => True
  test : ∀ test value page, course.sane page → course.Keeps page
    (callbacks.test test value) (watched.test test value) fun _ left => silent page left
  compare : ∀ order x y page, course.sane page → course.Keeps page
    (callbacks.compare order x y) (watched.compare order x y) fun _ _ => True

def Course.Steady (course : Course ℓ σ) (run : Run ℓ σ α) : Prop :=
  ∀ page, course.sane page → course.Keeps page run run fun _ _ => True

def Course.Coarse (course : Course ℓ σ) : Prop :=
  ∀ {list} {f : Mounted ℓ → Mounted ℓ}, (∀ mounted, (f mounted).view = mounted.view) →
    (∀ mounted, (f mounted).journal = mounted.journal) →
    course.Steady (modify fun page => page.modifyList list f)

theorem Course.Coarse.keeps (coarse : course.Coarse) {f : Mounted ℓ → Mounted ℓ}
    (view : ∀ mounted, (f mounted).view = mounted.view)
    (journal : ∀ mounted, (f mounted).journal = mounted.journal) (sane : course.sane page) :
    course.Keeps page (modify fun page => page.modifyList list f)
      (modify fun page => page.modifyList list f) fun _ _ => True :=
  coarse view journal page sane

/-- The changes of a list that calls make keep pages on course. Those that depend on what callbacks
were asked before do so for what these can have told. -/
structure Course.Steps (course : Course ℓ σ) (silent : Page ℓ σ → Page ℓ σ → Prop) (list : Nat) :
    Prop where
  refl : ∀ page, silent page page
  trans : ∀ {first second third}, silent first second → silent second third → silent first third
  insert : ∀ record place, course.Steady
    (patch list (Patch.insert record place) fun added => some (.inserted [added.1]))
  insertAll : ∀ items, course.Steady
    (patch list (Patch.insertAll items) fun added => some (.inserted added.1))
  remove : ∀ index, course.Steady
    (change list (Change.remove index) fun removed => removed.map fun _ => .removed index)
  removeAll : course.Steady (change list Change.removeAll fun _ => some .cleared)
  edit : ∀ index fields, course.Steady
    (patch list (Patch.edit index fields) fun edited => edited.map fun _ => .edited index)
  sort : course.Steady (patch list Patch.sort fun _ => some .sorted)
  updateView : course.Steady (patch list Patch.updateView fun _ => some .updated)
  addFilter : ∀ name filter, course.Steady
    (change list (Change.addFilter name filter) fun _ => some (.registered name))
  showOnly : ∀ {page mid earlier} {matched : List Value}, course.sane page →
    page.list? list = some earlier → matched.Sublist earlier.view.collection.json →
    course.sane mid → course.leads page mid → silent page mid → course.Keeps mid
      (patch list (Patch.showOnly matched) fun _ => some (.filtered earlier.journal.length))
      (patch list (Patch.showOnly matched) fun _ => some (.filtered earlier.journal.length))
      fun _ _ => True
  arrange : ∀ {page mid earlier} {sorted : List Value}, course.sane page →
    page.list? list = some earlier → sorted.Perm earlier.view.collection.json →
    course.sane mid → course.Keeps mid
      (patch list (Patch.arrange (sorted.filterMap Patch.indexOf)) fun _ => some .sorted)
      (patch list (Patch.arrange (sorted.filterMap Patch.indexOf)) fun _ => some .sorted)
      fun _ _ => True

section

variable {callbacks watched : Callbacks (Run ℓ σ) ℓ π κ}

section

variable (kept : Kept course silent callbacks watched) (sane : course.sane page)
include kept sane

theorem notify_keeps (kind : Event.Kind) (payload : Value) :
    course.Keeps page (notify callbacks list kind payload)
      (notify watched list kind payload) fun _ _ => True :=
  .bind (.running sane list) fun _ _ sane _ _ =>
    deliver_keeps (fun listener page sane => kept.listen listener ⟨kind, payload⟩ page sane) _ sane

theorem notified_keeps (kind : Event.Kind) (payload : Value) (a : α) :
    course.Keeps page (notify callbacks list kind payload >>= fun _ => pure a)
      (notify watched list kind payload >>= fun _ => pure a) fun _ _ => True :=
  .bind (notify_keeps kept sane kind payload) fun _ _ sane _ _ => .pure sane trivial

theorem announce_keeps (kind : Event.Kind) (result : Except Error (List Value)) :
    course.Keeps page (announce callbacks list kind result)
      (announce watched list kind result) fun _ _ => True := by
  cases result with
  | error cause => exact .pure sane trivial
  | ok values => exact notified_keeps kept sane _ _ _

omit kept in
theorem models_keeps :
    course.Keeps page (models list) (models list) fun values left => left = page ∧
      ∃ mounted, page.list? list = some mounted ∧ values = mounted.view.collection.json :=
  .bind (.running sane list) fun mounted _ sane _ ⟨same, there⟩ =>
    .pure sane ⟨same, mounted, there, rfl⟩

end

theorem subscribe_keeps (coarse : course.Coarse) (sane : course.sane page) (kinds : List Event.Kind)
    (listener : ℓ) :
    course.Keeps page (answer callbacks list (.subscribe kinds listener))
      (answer watched list (.subscribe kinds listener)) fun _ _ => True := by
  refine .bind (.running sane list) ?_
  intro mounted mid sane _ _
  generalize mounted.hub.subscribe kinds listener = made
  obtain ⟨hub, id⟩ := made
  exact .bind (coarse.keeps (fun _ => rfl) (fun _ => rfl) sane) fun _ _ sane _ _ =>
    .pure sane trivial

section

variable (steps : course.Steps silent list) (kept : Kept course silent callbacks watched)
  (sane : course.sane page)
include steps kept sane

theorem insert_keeps (place : Place) (record : Record) :
    course.Keeps page (insert callbacks list place record)
      (insert watched list place record) fun _ _ => True := by
  refine .bind (steps.insert record place page sane) ?_
  intro result mid sane _ _
  cases result with
  | error cause => exact .pure sane trivial
  | ok added => exact notified_keeps kept sane _ _ _

theorem insertData_keeps (place : Place) (data : Value) :
    course.Keeps page (insertData callbacks list place data)
      (insertData watched list place data) fun _ _ => True := by
  unfold insertData
  split
  · exact .pure sane trivial
  · refine .bind (.running sane list) ?_
    intro mounted mid sane _ _
    split
    · exact .pure sane trivial
    · exact .bind (insert_keeps steps kept sane _ _) fun _ _ sane _ _ => .pure sane trivial

theorem remove_keeps (index : Nat) :
    course.Keeps page (remove callbacks list index) (remove watched list index)
      fun _ _ => True := by
  refine .bind (steps.remove index page sane) ?_
  intro removed mid sane _ _
  cases removed with
  | none => exact .pure sane trivial
  | some removed => exact notified_keeps kept sane _ _ _

theorem removeEach_keeps (indices : List Nat) :
    course.Keeps page (removeEach callbacks list indices)
      (removeEach watched list indices) fun _ _ => True := by
  induction indices generalizing page with
  | nil => exact .pure sane trivial
  | cons index rest ih =>
    exact .bind (remove_keeps steps kept sane index) fun _ _ sane _ _ =>
      .bind (ih sane) fun _ _ sane _ _ => .pure sane trivial

theorem filter_keeps (test : π) :
    course.Keeps page (answer callbacks list (.filter test))
      (answer watched list (.filter test)) fun _ _ => True := by
  refine .bind (.running sane list) fun earlier page sane _ ⟨same, there⟩ => ?_
  subst same
  refine .bind (models_keeps sane) fun values page sane _ ⟨same, other, there', isJson⟩ => ?_
  subst same
  obtain rfl : earlier = other := Option.some.inj (there.symm.trans there')
  have selected := select_keeps steps.refl steps.trans
    (fun value page sane => kept.test test value page sane) values sane
  -- The records may have changed since the snapshot that the predicate was asked about.
  refine .bind selected fun matched mid sane' leads ⟨part, silent⟩ => ?_
  exact .bind (steps.showOnly sane there (isJson ▸ part) sane' leads silent)
    fun result _ sane _ _ => announce_keeps kept sane _ _

theorem sortBy_keeps (order : κ) :
    course.Keeps page (answer callbacks list (.sortBy order))
      (answer watched list (.sortBy order)) fun _ _ => True := by
  refine .bind (models_keeps sane) fun values page sane _ ⟨same, earlier, there, isJson⟩ => ?_
  subst same
  refine .bind (sortValues_keeps (fun x y page sane => kept.compare order x y page sane) values sane)
    ?_
  intro sorted mid sane' _ perm
  exact .bind (steps.arrange sane there (isJson ▸ perm) sane') fun _ _ sane _ _ =>
    announce_keeps kept sane _ _

theorem answer_keeps (coarse : course.Coarse) (call : Call ℓ π κ) :
    course.Keeps page (answer callbacks list call) (answer watched list call)
      fun _ _ => True := by
  cases call with
  | push data | unshift data => exact insertData_keeps steps kept sane _ _
  | pushRecord record =>
    refine .bind (.running sane list) ?_
    intro mounted mid sane _ _
    split
    · exact insert_keeps steps kept sane _ _
    · exact .pure sane trivial
  | pushAll items =>
    refine .bind (steps.insertAll items page sane) ?_
    intro result mid sane _ _
    cases result with
    | error cause => exact .pure sane trivial
    | ok added => exact notified_keeps kept sane _ _ _
  | remove index => exact remove_keeps steps kept sane index
  | removeAll =>
    exact .bind (steps.removeAll page sane) fun _ _ sane _ _ => notified_keeps kept sane _ _ _
  | edit index fields =>
    refine .bind (steps.edit index fields page sane) ?_
    intro result mid sane _ _
    rcases result with cause | _ | updated
    · exact .pure sane trivial
    · exact .pure sane trivial
    · exact notified_keeps kept sane _ _ _
  | filter test => exact filter_keeps steps kept sane test
  | sort => exact .bind (steps.sort page sane) fun _ _ sane _ _ => announce_keeps kept sane _ _
  | sortBy order => exact sortBy_keeps steps kept sane order
  | updateView => exact steps.updateView page sane
  | removeByFields fields =>
    cases fields with
    | object fields =>
      exact .bind (.running sane list) fun mounted mid sane _ _ =>
        .bind (removeEach_keeps steps kept sane _) fun _ _ sane _ _ => .pure sane trivial
    | _ => exact .pure sane trivial
  | addFilter name filter => exact steps.addFilter name filter page sane
  | subscribe kinds listener => exact subscribe_keeps coarse sane kinds listener

end

theorem during_keeps {run watched : Run ℓ σ α} (coarse : course.Coarse) (sane : course.sane page)
    (keeps : ∀ page, course.sane page → course.Keeps page run watched fun _ _ => True) :
    course.Keeps page (during list run) (during list watched) fun _ _ => True := by
  refine .bind (coarse.keeps (fun _ => rfl) (fun _ => rfl) sane) ?_
  intro _ mid sane _ _
  refine .bind (keeps mid sane) ?_
  intro _ late sane _ _
  exact .bind (coarse.keeps (fun _ => rfl) (fun _ => rfl) sane) fun _ _ sane _ _ =>
    .pure sane trivial

theorem serve_keeps (coarse : course.Coarse) (r : Request ℓ π κ) (onList : r.OnList)
    (answers : ∀ list call, r = .call list call → ∀ page, course.sane page →
      course.Keeps page (answer callbacks list call) (answer watched list call) fun _ _ => True)
    (sane : course.sane page) :
    course.Keeps page (serve callbacks r) (serve watched r) fun _ _ => True := by
  have looked : course.Keeps page get get fun world left => left = page ∧ world = page := by
    rintro world left ⟨⟩
    exact ⟨rfl, sane, course.refl _, rfl, rfl⟩
  cases r with
  | call list call =>
    refine .bind looked ?_
    intro world mid sane _ _
    split
    · exact .pure sane trivial
    · exact .bind (during_keeps coarse sane (answers list call rfl)) fun _ _ sane _ _ =>
        .pure sane trivial
  | unsubscribe list id =>
    refine .bind looked ?_
    intro world mid sane _ _
    split
    · refine .bind (.running sane list) ?_
      intro mounted mid sane _ _
      generalize mounted.hub.unsubscribe id = made
      obtain ⟨hub, removed⟩ := made
      exact .bind (coarse.keeps (fun _ => rfl) (fun _ => rfl) sane) fun _ _ sane _ _ =>
        .pure sane trivial
    · exact .pure sane trivial
  | drop list => exact coarse.keeps (fun _ => rfl) (fun _ => rfl) sane
  | setInnerHtml | setAttribute | removeElement => exact onList.elim

end

structure Behaviour.Asks (behaviour : Behaviour ℓ π κ σ) (allowed : Request ℓ π κ → Prop) : Prop where
  listen : ∀ listener notification, (behaviour.listen listener notification).Asks allowed
  test : ∀ test value, (behaviour.test test value).Asks allowed
  compare : ∀ order x y, (behaviour.compare order x y).Asks allowed

theorem Behaviour.Asks.kept {behaviour : Behaviour ℓ π κ σ} {allowed : Request ℓ π κ → Prop}
    (uses : behaviour.Asks allowed) {ask ask' : (r : Request ℓ π κ) → Run ℓ σ r.Answer}
    (asks : ∀ r, allowed r → ∀ page, course.sane page →
      course.Keeps page (ask r) (ask' r) fun _ _ => True)
    (notes : ∀ page user, course.sane page → course.sane { page with user } ∧
      course.leads page { page with user })
    (silently : ∀ test value page passes left,
      (runAction ask (behaviour.test test value)).run page = some (passes, left) → silent page left) :
    Kept course silent (behaviour.callbacks ask) (behaviour.callbacks ask') where
  listen listener notification _ sane :=
    runAction_keeps asks notes _ (uses.listen listener notification) sane
  test test value page sane passes left ends :=
    have ⟨same, sane', leads, _⟩ :=
      runAction_keeps asks notes _ (uses.test test value) sane passes left ends
    ⟨same, sane', leads, silently test value page passes left ends⟩
  compare order x y _ sane := runAction_keeps asks notes _ (uses.compare order x y) sane

noncomputable def insist {S : Type} (check : S → Prop) : StateT S Option Unit := fun s =>
  open Classical in if check s then some ((), s) else none

theorem insist_run {S : Type} {check : S → Prop} {s : S} (holds : check s) :
    (insist check).run s = some ((), s) :=
  if_pos holds

theorem insist_eq_some {S : Type} {check : S → Prop} {s t : S}
    (ends : (insist check).run s = some ((), t)) : check s ∧ t = s := by
  by_cases holds : check s
  · cases (insist_run holds).symm.trans ends
    exact ⟨holds, rfl⟩
  · have none : (insist check).run s = Option.none := if_neg holds
    rw [none] at ends
    cases ends

noncomputable def Callbacks.audited (check : Page ℓ σ → Prop)
    (callbacks : Callbacks (Run ℓ σ) ℓ π κ) : Callbacks (Run ℓ σ) ℓ π κ where
  listen listener notification := do
    insist check
    callbacks.listen listener notification
  test test value := do
    insist check
    callbacks.test test value
  compare order x y := do
    insist check
    callbacks.compare order x y

/-- Answers a request as `perform` does, but there is no answer if the page is not as it should be
where a listener, predicate or comparison is called or a request was answered, at any depth. -/
noncomputable def performAudited (check : Page ℓ σ → Prop) (behaviour : Behaviour ℓ π κ σ) :
    (depth : Nat) → (r : Request ℓ π κ) → Run ℓ σ r.Answer
  | 0, _ => failure
  | depth + 1, r => do
    let answer ← serve ((behaviour.callbacks (performAudited check behaviour depth)).audited check) r
    insist check
    return answer

section

variable {check : Page ℓ σ → Prop} (checks : ∀ page, course.sane page → check page)
include checks

theorem Course.Keeps.insisted {run watched : Run ℓ σ α} {expected : α → Page ℓ σ → Prop}
    (keeps : course.Keeps page run watched expected) (sane : course.sane page) :
    course.Keeps page run (insist check >>= fun _ => watched) expected := by
  intro a left ends
  obtain ⟨same, rest⟩ := keeps a left ends
  refine ⟨?_, rest⟩
  rw [StateT.run_bind, insist_run (checks page sane)]
  exact same

theorem Course.Keeps.confirmed {run watched : Run ℓ σ α} {expected : α → Page ℓ σ → Prop}
    (keeps : course.Keeps page run watched expected) :
    course.Keeps page run (do let a ← watched; insist check; return a) expected := by
  intro a left ends
  obtain ⟨same, sane, rest⟩ := keeps a left ends
  refine ⟨?_, sane, rest⟩
  rw [StateT.run_bind, same, Option.bind_eq_bind, Option.bind_some, StateT.run_bind,
    insist_run (checks left sane)]
  rfl

theorem Kept.audited {callbacks watched : Callbacks (Run ℓ σ) ℓ π κ}
    (kept : Kept course silent callbacks watched) :
    Kept course silent callbacks (watched.audited check) where
  listen listener notification page sane :=
    (kept.listen listener notification page sane).insisted checks sane
  test test value page sane := (kept.test test value page sane).insisted checks sane
  compare order x y page sane := (kept.compare order x y page sane).insisted checks sane

end

end LiveList.Page
