import LiveList.Proofs.Page.Runs
import Mathlib.Data.List.Perm.Basic

/-!
# Runs that keep on course

A course is a condition on pages together with a relation between earlier and later pages. A run
keeps on course if it does so wherever it ends, and a second run, which may differ in what it does
at callbacks, ends just so. Main statements: the parts of a call that ask callbacks keep on course
if the callbacks do, and a callback does if its requests do.
-/

namespace LiveList.Event.Script

variable {World State Request : Type} {Answer : Request → Type} {α : Type}

def Asks (allowed : Request → Prop) : Script World State Request Answer α → Prop
  | .done _ => True
  | .look next => ∀ world, (next world).Asks allowed
  | .note _ next => next.Asks allowed
  | .ask request next => allowed request ∧ ∀ answer, (next answer).Asks allowed

theorem Asks.andThen {β : Type} {allowed : Request → Prop}
    {script : Script World State Request Answer α}
    {next : α → Script World State Request Answer β} (asks : script.Asks allowed)
    (later : ∀ a, (next a).Asks allowed) : (script.andThen next).Asks allowed := by
  induction script with
  | done result => exact later result
  | look more ih => exact fun world => ih world (asks world)
  | note change more ih => exact ih asks
  | ask request more ih => exact ⟨asks.1, fun answer => ih answer (asks.2 answer)⟩

theorem run_andThen {β : Type} {m : Type → Type} [Monad m] [LawfulMonad m] (look : m World)
    (note : (State → State) → m Unit) (ask : (r : Request) → m (Answer r))
    (script : Script World State Request Answer α)
    (next : α → Script World State Request Answer β) :
    (script.andThen next).run look note ask =
      script.run look note ask >>= fun a => (next a).run look note ask := by
  induction script with
  | done result => simp only [Script.andThen, run, pure_bind]
  | look more ih => simp only [Script.andThen, run, ih, bind_assoc]
  | note change more ih => simp only [Script.andThen, run, ih, bind_assoc]
  | ask request more ih => simp only [Script.andThen, run, ih, bind_assoc]

end LiveList.Event.Script

namespace LiveList.Page

open Event (Hub Kind ListenerId Notification Script)
open Json (Value)

variable {ℓ π κ σ α β : Type}

structure Course (ℓ σ : Type) where
  sane : Page ℓ σ → Prop
  leads : Page ℓ σ → Page ℓ σ → Prop
  refl : ∀ page, leads page page
  trans : ∀ {first second third}, leads first second → leads second third → leads first third

/-- Wherever a run ends from a page, a second one ends just so, on course, and with what is
expected. -/
def Course.Keeps (course : Course ℓ σ) (page : Page ℓ σ) (run watched : Run ℓ σ α)
    (expected : α → Page ℓ σ → Prop) : Prop :=
  ∀ a left, run.run page = some (a, left) →
    watched.run page = some (a, left) ∧ course.sane left ∧ course.leads page left ∧ expected a left

variable {course : Course ℓ σ} {page : Page ℓ σ} {run watched : Run ℓ σ α}
  {expected expected' : α → Page ℓ σ → Prop}

namespace Course.Keeps

theorem pure (sane : course.sane page) {a : α} (holds : expected a page) :
    course.Keeps page (pure a) (Pure.pure a) expected := by
  rintro b left ⟨⟩
  exact ⟨rfl, sane, course.refl page, holds⟩

theorem mono (keeps : course.Keeps page run watched expected)
    (weaker : ∀ a left, expected a left → expected' a left) :
    course.Keeps page run watched expected' := fun a left ends =>
  have ⟨same, sane, leads, holds⟩ := keeps a left ends
  ⟨same, sane, leads, weaker a left holds⟩

theorem bind {next next' : α → Run ℓ σ β} {final : β → Page ℓ σ → Prop}
    (first : course.Keeps page run watched expected)
    (rest : ∀ a mid, course.sane mid → course.leads page mid → expected a mid →
      course.Keeps mid (next a) (next' a) final) :
    course.Keeps page (run >>= next) (watched >>= next') final := by
  intro b left ends
  rw [StateT.run_bind] at ends ⊢
  obtain ⟨⟨a, mid⟩, began, ends⟩ := Option.bind_eq_some_iff.1 ends
  obtain ⟨same, sane, leads, holds⟩ := first a mid began
  obtain ⟨same', sane', leads', holds'⟩ := rest a mid sane leads holds b left ends
  exact ⟨Option.bind_eq_some_iff.2 ⟨_, same, same'⟩, sane', course.trans leads leads', holds'⟩

theorem running (sane : course.sane page) (list : Nat) :
    course.Keeps page (Page.running list) (Page.running list)
      fun mounted left => left = page ∧ page.list? list = some mounted := by
  intro mounted left ends
  obtain ⟨rfl, there⟩ := running_eq_some ends
  exact ⟨ends, sane, course.refl _, rfl, there⟩

end Course.Keeps

/-! ## Callbacks in a call -/

theorem deliver_keeps {list : Nat} {call call' : ℓ → Run ℓ σ Unit}
    (calls : ∀ listener page, course.sane page →
      course.Keeps page (call listener) (call' listener) fun _ _ => True)
    (snapshot : List (ListenerId × ℓ)) (sane : course.sane page) :
    course.Keeps page
      (Event.deliver (fun id => return (← running list).hub.isRegistered id) call snapshot)
      (Event.deliver (fun id => return (← running list).hub.isRegistered id) call' snapshot)
      fun _ _ => True := by
  induction snapshot generalizing page with
  | nil => exact .pure sane trivial
  | cons entry rest ih =>
    obtain ⟨id, listener⟩ := entry
    have registered : course.Keeps page
        (do return (← running list).hub.isRegistered id)
        (do return (← running list).hub.isRegistered id) fun _ _ => True :=
      .bind (.running sane list) fun _ _ sane _ _ => .pure sane trivial
    refine .bind registered ?_
    intro registered mid sane _ _
    cases registered with
    | true =>
      exact .bind (calls listener mid sane) fun _ _ sane _ _ =>
        .bind (ih sane) fun _ _ sane _ _ => .pure sane trivial
    | false => exact ih sane

theorem select_keeps {test test' : Value → Run ℓ σ Bool} {same : Page ℓ σ → Page ℓ σ → Prop}
    (refl : ∀ page, same page page)
    (trans : ∀ {first second third}, same first second → same second third → same first third)
    (tests : ∀ value page, course.sane page →
      course.Keeps page (test value) (test' value) fun _ left => same page left)
    (values : List Value) (sane : course.sane page) :
    course.Keeps page (select test values) (select test' values)
      fun matched left => matched.Sublist values ∧ same page left := by
  induction values generalizing page with
  | nil => exact .pure sane ⟨.slnil, refl page⟩
  | cons value rest ih =>
    refine .bind (tests value page sane) fun passes mid sane _ first => .bind (ih sane)
      fun more left sane _ ⟨part, later⟩ => .pure sane ⟨?_, trans first later⟩
    cases passes with
    | true => exact part.cons_cons value
    | false => exact part.cons value

section

variable {compare compare' : Value → Value → Run ℓ σ Ordering}
  (compares : ∀ x y page, course.sane page →
    course.Keeps page (compare x y) (compare' x y) fun _ _ => True)
include compares

theorem insertSorted_keeps (value : Value) (values : List Value) (sane : course.sane page) :
    course.Keeps page (insertSorted compare value values) (insertSorted compare' value values)
      fun sorted _ => sorted.Perm (value :: values) := by
  induction values generalizing page with
  | nil => exact .pure sane (.refl _)
  | cons next rest ih =>
    refine .bind (compares value next page sane) ?_
    intro order mid sane _ _
    by_cases greater : (order == .gt) = true
    · simp only [greater, if_true]
      exact .bind (ih sane) fun sorted _ sane _ perm =>
        .pure sane ((perm.cons next).trans (.swap value next rest))
    · simp only [greater, Bool.false_eq_true, if_false]
      exact .pure sane (.refl _)

theorem sortValues_keeps (values : List Value) (sane : course.sane page) :
    course.Keeps page (sortValues compare values) (sortValues compare' values)
      fun sorted _ => sorted.Perm values := by
  induction values generalizing page with
  | nil => exact .pure sane (.refl _)
  | cons value rest ih =>
    exact .bind (ih sane) fun sorted mid sane _ perm =>
      (insertSorted_keeps compares value sorted sane).mono fun _ _ longer =>
        longer.trans (perm.cons value)

end

/-! ## Scripts -/

theorem runAction_keeps {ask ask' : (r : Request ℓ π κ) → Run ℓ σ r.Answer}
    {allowed : Request ℓ π κ → Prop}
    (asks : ∀ r, allowed r → ∀ page, course.sane page →
      course.Keeps page (ask r) (ask' r) fun _ _ => True)
    (notes : ∀ page user, course.sane page → course.sane { page with user } ∧
      course.leads page { page with user })
    (action : Action ℓ π κ σ α) (uses : action.Asks allowed) (sane : course.sane page) :
    course.Keeps page (runAction ask action) (runAction ask' action) fun _ _ => True := by
  induction action generalizing page with
  | done result => exact .pure sane trivial
  | look next ih =>
    have looked : course.Keeps page get get fun _ _ => True := by
      rintro world left ⟨⟩
      exact ⟨rfl, sane, course.refl _, trivial⟩
    exact .bind looked fun world mid sane _ _ => ih world (uses world) sane
  | note f next ih =>
    have noted : course.Keeps page (modify fun page => { page with user := f page.user })
        (modify fun page => { page with user := f page.user }) fun _ _ => True := by
      rintro _ left ⟨⟩
      exact ⟨rfl, (notes page _ sane).1, (notes page _ sane).2, trivial⟩
    exact .bind noted fun _ mid sane _ _ => ih uses sane
  | ask request next ih =>
    exact .bind (asks request uses.1 page sane) fun answer mid sane _ _ => ih answer (uses.2 answer) sane

theorem runAction_silent {ask : (r : Request ℓ π κ) → Run ℓ σ r.Answer} (action : Action ℓ π κ σ α)
    (silent : action.Asks fun _ => False) {a : α} {left : Page ℓ σ}
    (ends : (runAction ask action).run page = some (a, left)) :
    left.document = page.document ∧ left.lists = page.lists := by
  induction action generalizing page with
  | done result =>
    cases ends
    exact ⟨rfl, rfl⟩
  | look next ih => exact ih page (silent page) ends
  | note f next ih =>
    change (runAction ask next).run { page with user := f page.user } = _ at ends
    have later := ih silent ends
    exact later
  | ask request next ih => exact silent.1.elim

end LiveList.Page
