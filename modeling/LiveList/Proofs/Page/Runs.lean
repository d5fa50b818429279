import LiveList.Page.Run
import LiveList.Proofs.View.Runs

namespace LiveList

def Mounted.after {ℓ : Type} (mounted : Mounted ℓ) (view : ListView) (line : Option Entry) :
    Mounted ℓ :=
  { mounted with view, journal := line.toList ++ mounted.journal }

namespace Page

open Json (Value)

variable {ℓ π κ σ α β : Type} {page : Page ℓ σ} {list : Nat} {mounted : Mounted ℓ}

theorem list?_modifyList (page : Page ℓ σ) (list other : Nat) (f : Mounted ℓ → Mounted ℓ) :
    (page.modifyList list f).list? other =
      if list = other then (page.list? other).map f else page.list? other := by
  simp only [list?, modifyList, List.getElem?_modify]
  split
  · cases page.lists[other]? <;> rfl
  · simp

theorem list?_modifyList_self (there : page.list? list = some mounted) (f : Mounted ℓ → Mounted ℓ) :
    (page.modifyList list f).list? list = some (f mounted) := by
  rw [list?_modifyList, if_pos rfl, there, Option.map_some]

theorem list?_modifyList_of_ne {other : Nat} (differ : list ≠ other) (f : Mounted ℓ → Mounted ℓ) :
    (page.modifyList list f).list? other = page.list? other := by
  rw [list?_modifyList, if_neg differ]

theorem list?_modifyList_eq_some {other : Nat} {f : Mounted ℓ → Mounted ℓ} {mounted : Mounted ℓ}
    (there : (page.modifyList list f).list? other = some mounted) :
    (∃ was, page.list? list = some was ∧ other = list ∧ mounted = f was) ∨
      other ≠ list ∧ page.list? other = some mounted := by
  rw [list?_modifyList] at there
  split at there
  case isTrue same =>
    obtain ⟨was, found, rfl⟩ := Option.map_eq_some_iff.1 there
    exact .inl ⟨was, same ▸ found, same.symm, rfl⟩
  case isFalse differ => exact .inr ⟨Ne.symm differ, there⟩

theorem list?_mount (page : Page ℓ σ) (view : Option ListView) (list : Nat) :
    (page.mount view).list? list =
      if list = page.lists.length then view.map fun view => ⟨view, Event.Hub.empty, [], true, 0⟩
      else page.list? list := by
  simp only [list?, mount, List.getElem?_append, List.getElem?_singleton]
  split
  case isTrue inside => rw [if_neg (Nat.ne_of_lt inside)]
  case isFalse outside =>
    by_cases last : list = page.lists.length
    · simp [last]
    · have missing : page.lists[list]? = none := List.getElem?_eq_none (Nat.not_lt.1 outside)
      have beyond : list - page.lists.length ≠ 0 := by omega
      simp [last, beyond, missing]

theorem list?_mount_eq_some {view : ListView}
    (there : (page.mount (some view)).list? list = some mounted) :
    list = page.lists.length ∧ mounted = ⟨view, Event.Hub.empty, [], true, 0⟩ ∨
      list ≠ page.lists.length ∧ page.list? list = some mounted := by
  rw [list?_mount] at there
  split at there
  case isTrue last => exact .inl ⟨last, (Option.some.inj there).symm⟩
  case isFalse other => exact .inr ⟨other, there⟩

theorem list?_of_refuse (there : (page.mount none).list? list = some mounted) :
    page.list? list = some mounted := by
  rw [list?_mount] at there
  split at there
  · cases there
  · exact there

theorem list?_of_held? (held : page.held? list = some mounted) : page.list? list = some mounted :=
  (Option.filter_eq_some_iff.1 held).1

theorem held?_of_list? (there : page.list? list = some mounted) (owned : mounted.owned) :
    page.held? list = some mounted :=
  Option.filter_eq_some_iff.2 ⟨there, owned⟩

def begun (page : Page ℓ σ) (list : Nat) : Page ℓ σ :=
  page.modifyList list fun m => { m with running := m.running + 1 }

theorem list?_begun (there : page.list? list = some mounted) :
    (page.begun list).list? list = some { mounted with running := mounted.running + 1 } :=
  list?_modifyList_self there _

theorem ended_begun (page : Page ℓ σ) (list : Nat) :
    ((page.begun list).modifyList list fun m => { m with running := m.running - 1 }) = page := by
  have same : (Option.map fun m : Mounted ℓ => { m with running := m.running - 1 }) ∘
      (Option.map fun m => { m with running := m.running + 1 }) = id := by
    funext mounted
    cases mounted <;> rfl
  simp only [begun, modifyList, List.modify_modify_eq, same, List.modify_id]

theorem running_run (there : page.list? list = some mounted) :
    (running list).run page = some (mounted, page) := by
  simp [running, StateT.run_bind, there]

theorem running_eq_some {a : Mounted ℓ} {left : Page ℓ σ}
    (ends : (running list).run page = some (a, left)) : left = page ∧ page.list? list = some a := by
  cases there : page.list? list with
  | none =>
    rw [running, StateT.run_bind] at ends
    simp only [StateT.run_get, Option.pure_def, Option.bind_eq_bind, Option.bind_some, there] at ends
    cases ends
  | some mounted =>
    rw [running_run there] at ends
    cases ends
    exact ⟨rfl, rfl⟩

theorem models_run (there : page.list? list = some mounted) :
    (models list).run page = some (mounted.view.collection.json, page) := by
  rw [models, StateT.run_bind, running_run there]
  rfl

theorem change_run (there : page.list? list = some mounted) {change : Change α} {result : α}
    {left : Scene} (run : change.on ⟨mounted.view, page.document⟩ = (result, left))
    (line : α → Option Entry) :
    (Page.change list change line).run page = some (result,
      { page with document := left.document }.modifyList list
        (·.after left.view (line result))) := by
  have run : change.run ⟨mounted.view, page.document⟩ = (result, left) := run
  rw [Page.change, StateT.run_bind, running_run there]
  simp only [StateT.run_bind, StateT.run_get, StateT.run_set, StateT.run_pure, Option.pure_def,
    Option.bind_eq_bind, Option.bind_some, run]
  rfl

theorem change_eq_some {change : Change α} {line : α → Option Entry} {a : α} {left : Page ℓ σ}
    (ends : (Page.change list change line).run page = some (a, left)) :
    ∃ mounted scene, page.list? list = some mounted ∧
      change.on ⟨mounted.view, page.document⟩ = (a, scene) ∧
      left = { page with document := scene.document }.modifyList list
        (·.after scene.view (line a)) := by
  have began := ends
  rw [Page.change, StateT.run_bind] at began
  obtain ⟨⟨mounted, _⟩, looked, -⟩ := Option.bind_eq_some_iff.1 began
  obtain ⟨-, there⟩ := running_eq_some looked
  obtain ⟨b, scene, run⟩ : ∃ b scene, change.on ⟨mounted.view, page.document⟩ = (b, scene) :=
    ⟨_, _, rfl⟩
  rw [change_run there run, Option.some.injEq, Prod.mk.injEq] at ends
  obtain ⟨rfl, rfl⟩ := ends
  exact ⟨mounted, scene, there, run, rfl⟩

theorem patch_run (there : page.list? list = some mounted) {patch : Patch α} {result : Except Error α}
    {left : Scene} (run : patch.on ⟨mounted.view, page.document⟩ = (result, left))
    (line : α → Option Entry) :
    (Page.patch list patch line).run page = some (result,
      { page with document := left.document }.modifyList list
        (·.after left.view (result.toOption.bind line))) :=
  change_run there run _

theorem notify_run (callbacks : Callbacks (Run ℓ σ) ℓ π κ) (there : page.list? list = some mounted)
    {kind : Event.Kind} (silent : mounted.hub.listenersFor kind = []) (payload : Value) :
    (notify callbacks list kind payload).run page = some (0, page) := by
  rw [notify, StateT.run_bind, running_run there]
  simp only [silent, Event.deliver, StateT.run_pure, Option.pure_def, Option.bind_eq_bind,
    Option.bind_some]

theorem answer_pushAll_run (callbacks : Callbacks (Run ℓ σ) ℓ π κ) {items : List Value}
    {result : Except Error (List Nat × Value)} {left : Page ℓ σ}
    (patched : (Page.patch list (Patch.insertAll items) fun added => some (.inserted added.1)).run page =
      some (result, left))
    (there : left.list? list = some mounted) (silent : mounted.hub.listenersFor .pushAll = []) :
    (answer callbacks list (.pushAll items)).run page = some (result.map Prod.fst, left) := by
  rw [answer, StateT.run_bind, patched]
  cases result with
  | error cause => rfl
  | ok added =>
    simp only [Option.bind_eq_bind, Option.bind_some, StateT.run_bind,
      notify_run callbacks there silent]
    rfl

theorem during_run (body : Run ℓ σ α) :
    (during list body).run page =
      (body.run (page.modifyList list fun m => { m with running := m.running + 1 })).map
        fun (a, left) => (a, left.modifyList list fun m => { m with running := m.running - 1 }) := by
  simp only [during, StateT.run_bind, StateT.run_modify, Option.pure_def, Option.bind_eq_bind,
    Option.bind_some]
  cases body.run (page.modifyList list fun m => { m with running := m.running + 1 }) <;> rfl

theorem serve_call_run (callbacks : Callbacks (Run ℓ σ) ℓ π κ) (held : page.held? list = some mounted)
    (call : Call ℓ π κ) :
    (serve callbacks (.call list call)).run page =
      ((during list (answer callbacks list call)).run page).map fun (a, left) => (some a, left) := by
  simp only [serve, StateT.run_bind, StateT.run_get, Option.pure_def, Option.bind_eq_bind,
    Option.bind_some, held]
  cases (during list (answer callbacks list call)).run page <;> rfl

theorem serve_call_none (callbacks : Callbacks (Run ℓ σ) ℓ π κ) (missing : page.held? list = none)
    (call : Call ℓ π κ) : (serve callbacks (.call list call)).run page = some (none, page) := by
  simp only [serve, StateT.run_bind, StateT.run_get, Option.pure_def, Option.bind_eq_bind,
    Option.bind_some, missing]
  rfl

theorem serve_call_some {callbacks : Callbacks (Run ℓ σ) ℓ π κ} (held : page.held? list = some mounted)
    {call : Call ℓ π κ} {a : call.Answer} {left : Page ℓ σ}
    (answered : (answer callbacks list call).run
      (page.modifyList list fun m => { m with running := m.running + 1 }) = some (a, left)) :
    (serve callbacks (.call list call)).run page =
      some (some a, left.modifyList list fun m => { m with running := m.running - 1 }) := by
  rw [serve_call_run callbacks held, during_run, answered]
  rfl

theorem perform_call_eq_some {behaviour : Behaviour ℓ π κ σ} {depth : Nat}
    (held : page.held? list = some mounted) {call : Call ℓ π κ} {a : Option call.Answer}
    {left : Page ℓ σ} (run : (perform behaviour (depth + 1) (.call list call)).run page = some (a, left)) :
    ∃ given told, a = some given ∧
      (answer (behaviour.callbacks (perform behaviour depth)) list call).run (page.begun list) =
        some (given, told) ∧
      left = told.modifyList list fun m => { m with running := m.running - 1 } := by
  rw [perform, serve_call_run _ held, during_run, ← begun] at run
  obtain ⟨⟨given, _⟩, served, same⟩ := Option.map_eq_some_iff.1 run
  cases same
  obtain ⟨⟨_, told⟩, answered, same⟩ := Option.map_eq_some_iff.1 served
  cases same
  exact ⟨given, told, rfl, answered, rfl⟩

end Page

end LiveList
