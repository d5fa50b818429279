import LiveList.Proofs.Page.Reached
import LiveList.Proofs.View.Failure

namespace LiveList

open Json (Value)

def failure? {α : Type} : Except Error α → Option Error
  | .error cause => some cause
  | .ok _ => none

def Call.failure? {ℓ π κ : Type} : (call : Call ℓ π κ) → call.Answer → Option Error
  | .push _, result | .unshift _, result | .pushAll _, result | .pushRecord _, result
  | .edit .., result | .filter _, result | .sort, result | .sortBy _, result | .updateView, result
  | .removeByFields _, result => LiveList.failure? result
  | .remove _, _ | .removeAll, _ | .addFilter .., _ | .subscribe .., _ => none

namespace Page

variable {ℓ π κ σ α β : Type}

structure Unmoved (page left : Page ℓ σ) : Prop where
  nodes : page.document.SameNodes left.document
  views : ∀ list, (left.list? list).map Mounted.view = (page.list? list).map Mounted.view
  journals : ∀ list, (left.list? list).map Mounted.journal = (page.list? list).map Mounted.journal

def still : Course ℓ σ where
  sane page := page.document.WellFormed
  leads := Unmoved
  refl _ := ⟨fun _ => rfl, fun _ => rfl, fun _ => rfl⟩
  trans first second := ⟨fun id => (second.nodes id).trans (first.nodes id),
    fun list => (second.views list).trans (first.views list),
    fun list => (second.journals list).trans (first.journals list)⟩

theorem unmoved_modifyList {page : Page ℓ σ} {list : Nat} {f : Mounted ℓ → Mounted ℓ}
    (view : ∀ mounted, (f mounted).view = mounted.view)
    (journal : ∀ mounted, (f mounted).journal = mounted.journal) :
    Unmoved page (page.modifyList list f) := by
  refine ⟨fun _ => rfl, fun other => ?_, fun other => ?_⟩ <;> rw [list?_modifyList] <;> split
  · cases page.list? other <;> simp [view]
  · rfl
  · cases page.list? other <;> simp [journal]
  · rfl

theorem unmoved_failed {page : Page ℓ σ} {list : Nat} {mounted : Mounted ℓ} {scene : Scene}
    (there : page.list? list = some mounted) (view : scene.view = mounted.view)
    (nodes : page.document.SameNodes scene.document) :
    Unmoved page ({ page with document := scene.document }.modifyList list
      (·.after scene.view none)) := by
  have lists : ∀ other, ({ page with document := scene.document } : Page ℓ σ).list? other =
      page.list? other := fun _ => rfl
  refine ⟨nodes, fun other => ?_, fun other => ?_⟩ <;> rw [list?_modifyList, lists] <;> split
  case refine_1.isTrue same => simp [← same, there, Mounted.after, view]
  case refine_2.isTrue same => simp [← same, there, Mounted.after]
  all_goals rfl

def IsError (result : Except Error α) : Prop := ∃ cause, failure? result = some cause

theorem not_isError_ok (value : α) : ¬ IsError (.ok value) := by
  rintro ⟨cause, ⟨⟩⟩

def Quiet (run : Run ℓ σ α) : Prop :=
  ∀ page a left, page.document.WellFormed → run.run page = some (a, left) →
    left.document.WellFormed ∧ Unmoved page left

theorem Quiet.keeps {page : Page ℓ σ} {run : Run ℓ σ α} (quiet : Quiet run)
    (wf : page.document.WellFormed) : still.Keeps page run run fun _ _ => True := fun a left ends =>
  have ⟨wf', unmoved⟩ := quiet page a left wf ends
  ⟨ends, wf', unmoved, trivial⟩

def Callbacks.QuietFor (callbacks : Callbacks (Run ℓ σ) ℓ π κ) : Call ℓ π κ → Prop
  | .filter test => ∀ value, Page.Quiet (callbacks.test test value)
  | .sortBy order => ∀ x y, Page.Quiet (callbacks.compare order x y)
  | _ => True

/-- Wherever a run fails from a page, another one fails just so, and nothing has moved. -/
def Spares (fails : α → Prop) (page : Page ℓ σ) (run other : Run ℓ σ α) : Prop :=
  ∀ a left, run.run page = some (a, left) → fails a →
    other.run page = some (a, left) ∧ left.document.WellFormed ∧ Unmoved page left

variable {page : Page ℓ σ} {fails : α → Prop} {run other : Run ℓ σ α} {list : Nat}

namespace Spares

theorem pure (wf : page.document.WellFormed) (a : α) : Spares fails page (pure a) (Pure.pure a) := by
  rintro b left ⟨⟩ -
  exact ⟨rfl, wf, still.refl page⟩

theorem never (never : ∀ a, ¬ fails a) : Spares fails page run other :=
  fun a _ _ failed => absurd failed (never a)

theorem bind {expected : β → Page ℓ σ → Prop} {first first' : Run ℓ σ β} {next next' : β → Run ℓ σ α}
    (keeps : still.Keeps page first first' expected)
    (rest : ∀ b mid, mid.document.WellFormed → Unmoved page mid → expected b mid →
      Spares fails mid (next b) (next' b)) :
    Spares fails page (first >>= next) (first' >>= next') := by
  intro a left ends failed
  rw [StateT.run_bind] at ends ⊢
  obtain ⟨⟨b, mid⟩, began, ends⟩ := Option.bind_eq_some_iff.1 ends
  obtain ⟨same, sane, leads, holds⟩ := keeps b mid began
  obtain ⟨same', wf, unmoved⟩ := rest b mid sane leads holds a left ends failed
  exact ⟨Option.bind_eq_some_iff.2 ⟨_, same, same'⟩, wf, still.trans leads unmoved⟩

theorem result {first first' : Run ℓ σ (Except Error β)} {next next' : Except Error β → Run ℓ σ α}
    (spares : Spares IsError page first first')
    (failed : ∀ cause mid, mid.document.WellFormed → Spares fails mid (next (.error cause))
      (next' (.error cause)))
    (succeeds : ∀ b mid a left, (next (.ok b)).run mid = some (a, left) → ¬ fails a) :
    Spares fails page (first >>= next) (first' >>= next') := by
  intro a left ends fails
  rw [StateT.run_bind] at ends ⊢
  obtain ⟨⟨result, mid⟩, began, ends⟩ := Option.bind_eq_some_iff.1 ends
  cases result with
  | ok b => exact absurd fails (succeeds b mid a left ends)
  | error cause =>
    obtain ⟨same, wf, unmoved⟩ := spares (.error cause) mid began ⟨cause, rfl⟩
    obtain ⟨same', wf', unmoved'⟩ := failed cause mid wf a left ends fails
    exact ⟨Option.bind_eq_some_iff.2 ⟨_, same, same'⟩, wf', still.trans unmoved unmoved'⟩

theorem patch {patch : Patch β} (careful : patch.Careful) (line : β → Option Entry)
    (wf : page.document.WellFormed) :
    Spares IsError page (Page.patch list patch line) (Page.patch list patch line) := by
  rintro (cause | b) left ends failed
  · obtain ⟨mounted, scene, there, run, rfl⟩ := change_eq_some ends
    obtain ⟨sameView, grounded, nodes⟩ := careful mounted.view page.document wf.grounded cause scene run
    exact ⟨ends, wf.of_sameNodes grounded nodes, unmoved_failed there sameView nodes⟩
  · exact absurd failed (not_isError_ok b)

theorem map {first first' : Run ℓ σ β} {f : β → α} {fails' : β → Prop}
    (spares : Spares fails' page first first') (only : ∀ b, fails (f b) → fails' b) :
    Spares fails page (do return f (← first)) (do return f (← first')) := by
  intro a left ends failed
  rw [StateT.run_bind] at ends ⊢
  obtain ⟨⟨b, mid⟩, began, ends⟩ := Option.bind_eq_some_iff.1 ends
  cases ends
  obtain ⟨same, wf, unmoved⟩ := spares b mid began (only b failed)
  exact ⟨Option.bind_eq_some_iff.2 ⟨_, same, rfl⟩, wf, unmoved⟩

end Spares

theorem result_of_notified {first : Run ℓ σ β} {a b : α} {page left : Page ℓ σ}
    (ends : (first >>= fun _ => pure b).run page = some (a, left)) : a = b := by
  rw [StateT.run_bind] at ends
  obtain ⟨⟨_, mid⟩, -, ends⟩ := Option.bind_eq_some_iff.1 ends
  cases ends
  rfl

theorem not_isError_of_notified {first : Run ℓ σ β} {value : α} {page left : Page ℓ σ}
    {result : Except Error α}
    (ends : (first >>= fun _ => pure (.ok value)).run page = some (result, left)) : ¬ IsError result := by
  rw [result_of_notified ends]
  exact not_isError_ok value

section

variable {callbacks : Callbacks (Run ℓ σ) ℓ π κ} (listen : ℓ → Event.Notification → Run ℓ σ Unit)
  (wf : page.document.WellFormed)
include wf

theorem insert_spares (place : Place) (record : Record) :
    Spares IsError page (insert callbacks list place record)
      (insert { callbacks with listen } list place record) :=
  .result (.patch (Patch.insert_careful record place) _ wf) (fun _ _ wf => .pure wf _)
    fun _ _ _ _ ends => not_isError_of_notified ends

theorem insertData_spares (place : Place) (data : Value) :
    Spares IsError page (insertData callbacks list place data)
      (insertData { callbacks with listen } list place data) := by
  unfold insertData
  split
  · exact .pure wf _
  · refine .bind (.running wf list) ?_
    intro mounted mid wf _ _
    split
    · exact .pure wf _
    · refine .map (insert_spares listen wf place _) ?_
      intro result isError
      cases result with
      | error cause => exact ⟨cause, rfl⟩
      | ok index => exact absurd isError (not_isError_ok _)

theorem announce_spares {patch : Patch (List Value)} (careful : patch.Careful)
    {line : List Value → Option Entry} (kind : Event.Kind) :
    Spares IsError page (Page.patch list patch line >>= announce callbacks list kind)
      (Page.patch list patch line >>= announce { callbacks with listen } list kind) :=
  .result (.patch careful _ wf) (fun _ _ wf => .pure wf _) fun _ _ _ _ ends => not_isError_of_notified ends

theorem models_still :
    still.Keeps page (models list) (models list) fun _ _ => True :=
  .bind (.running wf list) fun _ _ wf _ _ => .pure wf trivial

theorem filter_spares (test : π) (quiet : ∀ value, Quiet (callbacks.test test value)) :
    Spares IsError page (answer callbacks list (.filter test))
      (answer { callbacks with listen } list (.filter test)) := by
  have tests : ∀ value (page : Page ℓ σ), still.sane page →
      still.Keeps page (callbacks.test test value) (callbacks.test test value)
        fun _ _ => True := fun value page wf => (quiet value).keeps wf
  refine .bind (.running wf list) ?_
  intro earlier mid wf _ _
  refine .bind (models_still wf) ?_
  intro values mid wf _ _
  refine .bind (select_keeps (fun _ => trivial) (fun _ _ => trivial) tests values wf) ?_
  intro matched mid wf _ _
  exact announce_spares listen wf (Patch.showOnly_careful matched) .filter

theorem sortBy_spares (order : κ) (quiet : ∀ x y, Quiet (callbacks.compare order x y)) :
    Spares IsError page (answer callbacks list (.sortBy order))
      (answer { callbacks with listen } list (.sortBy order)) := by
  have compares : ∀ x y (page : Page ℓ σ), still.sane page →
      still.Keeps page (callbacks.compare order x y) (callbacks.compare order x y)
        fun _ _ => True := fun x y page wf => (quiet x y).keeps wf
  refine .bind (models_still wf) ?_
  intro values mid wf _ _
  refine .bind (sortValues_keeps compares values wf) ?_
  intro sorted mid wf _ _
  exact announce_spares listen wf (Patch.arrange_careful _) .sort

theorem answer_spares (call : Call ℓ π κ) (quiet : callbacks.QuietFor call) :
    Spares (fun a => ∃ cause, call.failure? a = some cause) page (answer callbacks list call)
      (answer { callbacks with listen } list call) := by
  cases call with
  | push data | unshift data => exact insertData_spares listen wf _ data
  | pushRecord record =>
    refine .bind (.running wf list) ?_
    intro mounted mid wf _ _
    split
    · exact insert_spares listen wf _ _
    · exact .pure wf _
  | pushAll items =>
    exact .result (.patch (Patch.insertAll_careful items) _ wf) (fun _ _ wf => .pure wf _)
      fun _ _ _ _ ends => not_isError_of_notified ends
  | edit index fields =>
    refine .result (.patch (Patch.edit_careful index fields) _ wf) (fun _ _ wf => .pure wf _) ?_
    intro edited mid a left ends
    cases edited with
    | none =>
      cases ends
      exact not_isError_ok (none : Option Value)
    | some updated => exact not_isError_of_notified ends
  | filter test => exact filter_spares listen wf test quiet
  | sort => exact announce_spares listen wf Patch.sort_careful .sort
  | sortBy order => exact sortBy_spares listen wf order quiet
  | updateView => exact .patch Patch.updateView_careful _ wf
  | removeByFields fields =>
    cases fields with
    | object fields =>
      exact .bind (.running wf list) fun mounted mid wf _ _ =>
        .map (.never fun _ => id) fun values => not_isError_ok values
    | _ => exact .pure wf _
  | remove | removeAll | addFilter | subscribe => exact .never fun _ ⟨_, failed⟩ => nomatch failed

theorem during_spares (call : Call ℓ π κ) (quiet : callbacks.QuietFor call) :
    Spares (fun a => ∃ cause, call.failure? a = some cause) page
      (during list (answer callbacks list call))
      (during list (answer { callbacks with listen } list call)) := by
  have counted : ∀ (page : Page ℓ σ), page.document.WellFormed → ∀ f : Nat → Nat,
      still.Keeps page
        (modify fun page => page.modifyList list fun m => { m with running := f m.running })
        (modify fun page => page.modifyList list fun m => { m with running := f m.running })
        fun _ _ => True := by
    rintro page wf f _ left ⟨⟩
    exact ⟨rfl, wf, unmoved_modifyList (fun _ => rfl) (fun _ => rfl), trivial⟩
  refine .bind (counted page wf (· + 1)) ?_
  intro _ mid wf _ _ a left ends failed
  rw [StateT.run_bind] at ends ⊢
  obtain ⟨⟨b, late⟩, answered, ends⟩ := Option.bind_eq_some_iff.1 ends
  cases ends
  obtain ⟨same, wf', unmoved⟩ := answer_spares listen wf call quiet b late answered failed
  exact ⟨Option.bind_eq_some_iff.2 ⟨_, same, rfl⟩, wf',
    still.trans unmoved (unmoved_modifyList (fun _ => rfl) (fun _ => rfl))⟩

end

/-- A call that fails changes no record, no remembered node and no node of the document, and it is
answered the same whatever its listeners do, so none of them is notified. It does not matter how
the page came to its state, only that predicates and comparisons move nothing. -/
theorem perform_failed {behaviour : Behaviour ℓ π κ σ} {depth : Nat} {page left : Page ℓ σ}
    (wf : page.document.WellFormed) {call : Call ℓ π κ}
    (quiet : (behaviour.callbacks (perform behaviour depth)).QuietFor call) {list : Nat}
    {answer : call.Answer}
    (run : (perform behaviour (depth + 1) (.call list call)).run page = some (some answer, left))
    {cause : Error} (failed : call.failure? answer = some cause) :
    Unmoved page left ∧ ∀ listen,
      (serve { behaviour.callbacks (perform behaviour depth) with listen } (.call list call)).run page =
        some (some answer, left) := by
  have run : (serve (behaviour.callbacks (perform behaviour depth)) (.call list call)).run page =
    some (some answer, left) := run
  cases held : page.held? list with
  | none =>
    rw [serve_call_none _ held] at run
    cases run
  | some mounted =>
    rw [serve_call_run _ held, Option.map_eq_some_iff] at run
    obtain ⟨⟨a, ended⟩, ends, same⟩ := run
    cases same
    have spares := fun listen => during_spares listen wf call quiet answer left ends ⟨cause, failed⟩
    refine ⟨(spares (behaviour.callbacks (perform behaviour depth)).listen).2.2, ?_⟩
    intro listen
    rw [serve_call_run _ held, (spares listen).1]
    rfl

def pushTexts : Call Unit Unit Unit :=
  .pushAll [.object [("text", .string "a")], .object [("text", .string "")]]

theorem texts_fail : ((perform idle 1 (.call 0 pushTexts)).run textsPage).any fun (answer, _) =>
    answer.any fun (result : Except Error (List Nat)) => (failure? result).isSome := by
  decide +kernel

theorem perform_failed_texts : ∃ (answer : pushTexts.Answer) (cause : Error)
    (left : Page Unit Unit), pushTexts.failure? answer = some cause ∧
    (perform idle 1 (.call 0 pushTexts)).run textsPage = some (some answer, left) ∧
    Unmoved textsPage left ∧ ∀ listen,
      (serve { idle.callbacks (perform idle 0) with listen } (.call 0 pushTexts)).run textsPage =
        some (some answer, left) := by
  obtain ⟨⟨answered, left⟩, run, failed⟩ := (Option.any_eq_true _ _).1 texts_fail
  obtain ⟨answer, rfl, isSome⟩ := (Option.any_eq_true _ _).1 failed
  obtain ⟨cause, failed⟩ := Option.isSome_iff_exists.1 isSome
  have onLists : idle.OnLists := ⟨fun _ _ => trivial, fun _ _ => trivial, fun _ _ _ => trivial⟩
  have wf := (reached_textsPage idle).wellFormed onLists
  have quiet : (idle.callbacks (perform idle 0)).QuietFor pushTexts := trivial
  exact ⟨answer, cause, left, failed, run, perform_failed wf quiet run failed⟩

end Page

end LiveList
