import LiveList.Proofs.Page.Lockstep
import LiveList.Proofs.Page.Runs

/-!
# Traces of pages

A run on a page that notes what happens, when it happens: which strokes take effect and what they
say, and when listeners are subscribed, are called and return. Main statement: the notes change nothing, so what
holds of all traces holds of all runs.
-/

namespace LiveList.Page

open Event (ListenerId Notification)
open Json (Value)

/-- What happens on a page. A listener that returns is named by the number of marks before it was
called. -/
inductive Mark (ℓ π κ σ : Type) where
  | took (list : Nat) (call : Call ℓ π κ) (entry : Entry) (said : Option Notification)
  | subscribed (list : Nat) (id : ListenerId) (kinds : List Event.Kind)
  | called (list : Nat) (id : ListenerId) (notification : Notification) (found : Page ℓ σ)
  | returned (start : Nat)
  | rested (found : Page ℓ σ)

structure Traced (ℓ π κ σ : Type) where
  page : Page ℓ σ
  log : List (Mark ℓ π κ σ)

abbrev TracedRun (ℓ π κ σ : Type) := StateT (Traced ℓ π κ σ) Option

variable {ℓ π κ σ α β : Type}

def mark (mark : Mark ℓ π κ σ) : TracedRun ℓ π κ σ Unit :=
  modify fun traced => { traced with log := traced.log ++ [mark] }

def unmarked (run : Run ℓ σ α) : TracedRun ℓ π κ σ α := fun traced =>
  (run.run traced.page).map fun (a, page) => (a, { traced with page })

def mute : Callbacks (Run ℓ σ) ℓ π κ :=
  ⟨fun _ _ => failure, fun _ _ => failure, fun _ _ _ => failure⟩

section

variable (callbacks : Callbacks (TracedRun ℓ π κ σ) ℓ π κ) (list : Nat)

def heed (notification : Notification) (entry : ListenerId × ℓ) : TracedRun ℓ π κ σ Unit := do
  let before ← get
  mark (.called list entry.1 notification before.page)
  callbacks.listen entry.2 notification
  mark (.returned before.log.length)

def notifyTraced (notification : Notification) : TracedRun ℓ π κ σ Nat := do
  let mounted ← unmarked (running list)
  Event.deliver (fun id => unmarked (return (← running list).hub.isRegistered id))
    (heed callbacks list notification)
    ((mounted.hub.listenersFor notification.kind).map fun entry => (entry.1, entry))

def markTaken (call : Call ℓ π κ) (said : Option Notification) : Option Entry → TracedRun ℓ π κ σ Unit
  | none => pure ()
  | some entry => mark (.took list call entry said)

def strikeTraced (call : Call ℓ π κ) (stroke : Stroke) : TracedRun ℓ π κ σ stroke.Result := do
  let result ← unmarked (change list stroke.change stroke.line)
  markTaken list call (stroke.said result) (stroke.line result)
  match stroke.said result with
  | none => return result
  | some notification =>
    let _ ← notifyTraced callbacks list notification
    return result

def subscribeTraced (kinds : List Event.Kind) (listener : ℓ) : TracedRun ℓ π κ σ ListenerId := do
  let id ← unmarked (answer (mute (π := π) (κ := κ)) list (.subscribe kinds listener))
  mark (.subscribed list id kinds)
  return id

def partsTraced (call : Call ℓ π κ) : Parts (TracedRun ℓ π κ σ) ℓ π κ where
  model := unmarked (return (← running list).view.model)
  collection := unmarked (return (← running list).view.collection)
  lines := unmarked (return (← running list).journal.length)
  test := callbacks.test
  compare := callbacks.compare
  strike := strikeTraced callbacks list call
  subscribe := subscribeTraced list

def duringTraced (body : TracedRun ℓ π κ σ α) : TracedRun ℓ π κ σ α := do
  unmarked (modify fun page => page.modifyList list fun m => { m with running := m.running + 1 })
  let result ← body
  unmarked (modify fun page => page.modifyList list fun m => { m with running := m.running - 1 })
  return result

def serveTraced : (r : Request ℓ π κ) → TracedRun ℓ π κ σ r.Answer
  | .call list call => do
    match (← get).page.held? list with
    | none => return none
    | some _ => return some (← duringTraced list ((partsTraced callbacks list call).answer call))
  | .unsubscribe list id => unmarked (serve mute (.unsubscribe list id))
  | .drop list => unmarked (serve mute (.drop list))
  | .setInnerHtml id markup => unmarked (serve mute (.setInnerHtml id markup))
  | .setAttribute id name value => unmarked (serve mute (.setAttribute id name value))
  | .removeElement id => unmarked (serve mute (.removeElement id))

end

def actTraced (ask : (r : Request ℓ π κ) → TracedRun ℓ π κ σ r.Answer) (action : Action ℓ π κ σ α) :
    TracedRun ℓ π κ σ α :=
  action.run (unmarked get)
    (fun change => unmarked (modify fun page => { page with user := change page.user })) ask

def Behaviour.traced (behaviour : Behaviour ℓ π κ σ)
    (ask : (r : Request ℓ π κ) → TracedRun ℓ π κ σ r.Answer) : Callbacks (TracedRun ℓ π κ σ) ℓ π κ where
  listen listener notification := actTraced ask (behaviour.listen listener notification)
  test test value := actTraced ask (behaviour.test test value)
  compare order x y := actTraced ask (behaviour.compare order x y)

def trace (behaviour : Behaviour ℓ π κ σ) :
    (depth : Nat) → (r : Request ℓ π κ) → TracedRun ℓ π κ σ r.Answer
  | 0, _ => failure
  | depth + 1, r => serveTraced (behaviour.traced (trace behaviour depth)) r

def traceOuter (behaviour : Behaviour ℓ π κ σ) (depth : Nat) (r : Request ℓ π κ) :
    TracedRun ℓ π κ σ r.Answer := do
  let answer ← trace behaviour depth r
  mark (.rested (← get).page)
  return answer

/-! ## Traces against runs -/

def Shows (traced : Traced ℓ π κ σ) (page : Page ℓ σ) : Prop := traced.page = page

theorem unmarked_inStep (run : Run ℓ σ α) :
    InStep Shows Any (unmarked run : TracedRun ℓ π κ σ α) run := by
  rintro traced _ rfl
  cases ends : run.run traced.page with
  | none =>
    have same : (unmarked run : TracedRun ℓ π κ σ α).run traced = none := congrArg (Option.map _) ends
    rw [same]
    exact .none
  | some ended =>
    have same : (unmarked run : TracedRun ℓ π κ σ α).run traced =
        some (ended.1, { traced with page := ended.2 }) := congrArg (Option.map _) ends
    rw [same]
    exact .some ⟨rfl, trivial, rfl⟩

def Marks (marking : TracedRun ℓ π κ σ Unit) : Prop :=
  ∀ traced, ∃ log, marking.run traced = some ((), { traced with log })

theorem mark_marks (first : Mark ℓ π κ σ) : Marks (mark first) := fun _ => ⟨_, rfl⟩

theorem markTaken_marks (list : Nat) (call : Call ℓ π κ) (said : Option Notification)
    (entry : Option Entry) : Marks (markTaken list call said entry : TracedRun ℓ π κ σ Unit) := by
  cases entry with
  | none => exact fun traced => ⟨traced.log, rfl⟩
  | some entry => exact mark_marks _

theorem Marks.bind_inStep {marking : TracedRun ℓ π κ σ Unit} (marks : Marks marking)
    {traced : TracedRun ℓ π κ σ α} {run : Run ℓ σ α} (rest : InStep Shows Any traced run) :
    InStep Shows Any (marking >>= fun _ => traced) run := by
  intro s page related
  obtain ⟨log, marked⟩ := marks s
  rw [StateT.run_bind, marked]
  exact rest { s with log } page related

section

variable {callbacks : Callbacks (TracedRun ℓ π κ σ) ℓ π κ} {plain : Callbacks (Run ℓ σ) ℓ π κ}
  {list : Nat}
  (listens : ∀ listener notification, InStep Shows Any (callbacks.listen listener notification)
    (plain.listen listener notification))
include listens

theorem heed_inStep (notification : Notification) (entry : ListenerId × ℓ) :
    InStep Shows Any (heed callbacks list notification entry)
      (plain.listen entry.2 notification) := by
  intro s page related
  have returns : InStep Shows Any
      (callbacks.listen entry.2 notification >>= fun _ => mark (.returned s.log.length))
      (plain.listen entry.2 notification) := by
    rw [← bind_pure (plain.listen entry.2 notification)]
    exact (listens entry.2 notification).bind fun _ _ =>
      (mark_marks (.returned s.log.length)).bind_inStep (.pure trivial)
  exact (mark_marks (.called list entry.1 notification s.page)).bind_inStep returns s page related

theorem notifyTraced_inStep (notification : Notification) :
    InStep Shows Any (notifyTraced callbacks list notification)
      (notify plain list notification.kind notification.payload) := by
  refine (unmarked_inStep _).bind fun mounted _ => ?_
  have same := deliver_inStep (heed callbacks list notification)
    (fun listener => plain.listen listener notification) Prod.snd
    (fun id => unmarked_inStep (do return (← running list).hub.isRegistered id))
    ((mounted.hub.listenersFor notification.kind).map fun entry => (entry.1, entry))
    fun _ entry _ => heed_inStep listens notification entry
  simpa only [List.map_map, Function.comp_def, List.map_id'] using same

theorem strikeTraced_inStep (call : Call ℓ π κ) (stroke : Stroke) :
    InStep Shows Any (strikeTraced callbacks list call stroke) (strike plain list stroke) := by
  refine (unmarked_inStep _).bind fun result _ =>
    (markTaken_marks list call _ _).bind_inStep ?_
  cases stroke.said result with
  | none => exact .pure trivial
  | some notification => exact (notifyTraced_inStep listens notification).bind fun _ _ => .pure trivial

end

theorem subscribeTraced_inStep (callbacks : Callbacks (Run ℓ σ) ℓ π κ) (list : Nat)
    (kinds : List Event.Kind) (listener : ℓ) :
    InStep Shows Any (subscribeTraced list kinds listener : TracedRun ℓ π κ σ ListenerId)
      (answer callbacks list (.subscribe kinds listener)) := by
  rw [← bind_pure (answer callbacks list (.subscribe kinds listener))]
  exact (unmarked_inStep _).bind fun id _ => (mark_marks (.subscribed list id kinds)).bind_inStep
    (.pure trivial)

structure Erases (callbacks : Callbacks (TracedRun ℓ π κ σ) ℓ π κ) (plain : Callbacks (Run ℓ σ) ℓ π κ) :
    Prop where
  listen : ∀ listener notification, InStep Shows Any (callbacks.listen listener notification)
    (plain.listen listener notification)
  test : ∀ test value, InStep Shows Any (callbacks.test test value) (plain.test test value)
  compare : ∀ order x y, InStep Shows Any (callbacks.compare order x y) (plain.compare order x y)

theorem partsTraced_inStep {callbacks : Callbacks (TracedRun ℓ π κ σ) ℓ π κ}
    {plain : Callbacks (Run ℓ σ) ℓ π κ} (erases : Erases callbacks plain) (list : Nat)
    (call : Call ℓ π κ) :
    Parts.InStep Shows Any (partsTraced callbacks list call) (parts plain list) call where
  model := unmarked_inStep _
  collection := unmarked_inStep _
  lines := unmarked_inStep _
  test test _ value := erases.test test value
  compare order _ x y := erases.compare order x y
  strike stroke _ := strikeTraced_inStep erases.listen call stroke
  subscribe kinds listener _ := subscribeTraced_inStep plain list kinds listener

theorem serveTraced_inStep {callbacks : Callbacks (TracedRun ℓ π κ σ) ℓ π κ}
    {plain : Callbacks (Run ℓ σ) ℓ π κ} (erases : Erases callbacks plain) (r : Request ℓ π κ) :
    InStep Shows Any (serveTraced callbacks r) (serve plain r) := by
  cases r with
  | call list call =>
    rintro traced _ rfl
    have answered := Parts.answer_inStep (partsTraced_inStep erases list call)
    rw [← answer_eq] at answered
    have during : InStep Shows Any
        (duringTraced list ((partsTraced callbacks list call).answer call))
        (during list (answer plain list call)) :=
      (unmarked_inStep _).bind fun _ _ => answered.bind fun _ _ =>
        (unmarked_inStep _).bind fun _ _ => .pure trivial
    simp only [serveTraced, serve, StateT.run_bind, StateT.run_get, Option.pure_def,
      Option.bind_eq_bind, Option.bind_some]
    cases traced.page.held? list with
    | none => exact .some ⟨rfl, trivial, rfl⟩
    | some mounted => exact during.map some (fun _ _ => trivial) traced traced.page rfl
  | unsubscribe list id => exact unmarked_inStep _
  | drop list => exact unmarked_inStep _
  | setInnerHtml id markup => exact unmarked_inStep _
  | setAttribute id name value => exact unmarked_inStep _
  | removeElement id => exact unmarked_inStep _

theorem actTraced_inStep {ask : (r : Request ℓ π κ) → TracedRun ℓ π κ σ r.Answer}
    {plain : (r : Request ℓ π κ) → Run ℓ σ r.Answer} (asks : ∀ r, InStep Shows Any (ask r) (plain r))
    (action : Action ℓ π κ σ α) : InStep Shows Any (actTraced ask action) (runAction plain action) :=
  script_inStep
    (fun traced _ same => ⟨traced.page, traced.page, rfl, by rw [← same]; rfl, rfl⟩)
    (fun _ _ => unmarked_inStep _) (fun r _ => asks r) action action.minds_any

theorem trace_inStep (behaviour : Behaviour ℓ π κ σ) (depth : Nat) (r : Request ℓ π κ) :
    InStep Shows Any (trace behaviour depth r) (perform behaviour depth r) := by
  induction depth generalizing r with
  | zero => exact .failure
  | succ depth ih =>
    exact serveTraced_inStep ⟨fun _ _ => actTraced_inStep ih _, fun _ _ => actTraced_inStep ih _,
      fun _ _ _ => actTraced_inStep ih _⟩ r

theorem exists_trace {behaviour : Behaviour ℓ π κ σ} {depth : Nat} {action : Action ℓ π κ σ α}
    {page left : Page ℓ σ} {a : α}
    (run : (runAction (perform behaviour depth) action).run page = some (a, left)) :
    ∃ log, (actTraced (trace behaviour depth) action).run ⟨page, []⟩ = some (a, ⟨left, log⟩) := by
  obtain ⟨⟨_, log⟩, traced, -, rfl⟩ := (actTraced_inStep (trace_inStep behaviour depth) action).exists_run
    (s := ⟨page, []⟩) rfl run
  exact ⟨log, traced⟩

theorem unmarked_preserves {good : Traced ℓ π κ σ → Prop} {run : Run ℓ σ α}
    (keeps : ∀ s, good s → ∀ a page, run.run s.page = some (a, page) → good { s with page }) :
    Preserves good (unmarked run) := by
  intro s holds a t ends
  obtain ⟨⟨b, page⟩, ended, same⟩ := Option.map_eq_some_iff.1 ends
  cases same
  exact keeps s holds a page ended

theorem looked_inStep {good : Traced ℓ π κ σ → Prop} {expected : α → Prop} {list : Nat}
    {look : Mounted ℓ → α}
    (sees : ∀ s mounted, good s → s.page.list? list = some mounted → expected (look mounted)) :
    InStep (Both good) expected
      (unmarked (do return look (← running list)) : TracedRun ℓ π κ σ α)
      (unmarked (do return look (← running list))) := by
  rintro s _ ⟨rfl, holds⟩
  cases ends : (unmarked (do return look (← running list)) : TracedRun ℓ π κ σ α).run s with
  | none => exact .none
  | some ended =>
    obtain ⟨a, t⟩ := ended
    obtain ⟨⟨b, page⟩, ended, same⟩ := Option.map_eq_some_iff.1 ends
    cases same
    rw [StateT.run_bind] at ended
    obtain ⟨⟨mounted, page'⟩, began, ended⟩ := Option.bind_eq_some_iff.1 ended
    obtain ⟨rfl, there⟩ := running_eq_some began
    cases ended
    exact .some ⟨rfl, sees s mounted holds there, rfl, holds⟩

/-! ## Strokes and notifications in traces -/

variable {callbacks : Callbacks (TracedRun ℓ π κ σ) ℓ π κ} {list : Nat}

/-- The page after a stroke that gave a result and a scene, before anyone is notified. -/
def struck (page : Page ℓ σ) (list : Nat) (stroke : Stroke) (result : stroke.Result) (scene : Scene) :
    Page ℓ σ :=
  { page with document := scene.document }.modifyList list (·.after scene.view (stroke.line result))

theorem list?_struck {page : Page ℓ σ} {mounted : Mounted ℓ} (there : page.list? list = some mounted)
    (stroke : Stroke) (result : stroke.Result) (scene : Scene) :
    (struck page list stroke result scene).list? list =
      some (mounted.after scene.view (stroke.line result)) :=
  list?_modifyList_self there _

def marksOf (list : Nat) (call : Call ℓ π κ) (stroke : Stroke) (result : stroke.Result) :
    List (Mark ℓ π κ σ) :=
  ((stroke.line result).map fun entry => .took list call entry (stroke.said result)).toList

theorem returned_notMem_marksOf (other : Nat) (call : Call ℓ π κ) (stroke : Stroke)
    (result : stroke.Result) (from_ : Nat) :
    (.returned from_ : Mark ℓ π κ σ) ∉ marksOf other call stroke result := by
  intro inside
  obtain ⟨entry, -, same⟩ := Option.map_eq_some_iff.1 (Option.mem_toList.1 inside)
  cases same

theorem markTaken_run (call : Call ℓ π κ) (stroke : Stroke) (result : stroke.Result)
    (s : Traced ℓ π κ σ) : (markTaken list call (stroke.said result) (stroke.line result)).run s =
      some ((), { s with log := s.log ++ marksOf list call stroke result }) := by
  rw [marksOf]
  cases stroke.line result with
  | none => simp [markTaken]
  | some entry => rfl

theorem strikeTraced_run {call : Call ℓ π κ} {stroke : Stroke} {result : stroke.Result}
    {s : Traced ℓ π κ σ} {mounted : Mounted ℓ} {scene : Scene}
    (there : s.page.list? list = some mounted)
    (run : stroke.change.on ⟨mounted.view, s.page.document⟩ = (result, scene)) :
    (strikeTraced callbacks list call stroke).run s =
      match stroke.said result with
      | none => some (result,
          ⟨struck s.page list stroke result scene, s.log ++ marksOf list call stroke result⟩)
      | some notification => ((notifyTraced callbacks list notification).run
          ⟨struck s.page list stroke result scene, s.log ++ marksOf list call stroke result⟩).map
            fun (_, t) => (result, t) := by
  have changed : (unmarked (change list stroke.change stroke.line)).run s =
      some (result, { s with page := struck s.page list stroke result scene }) :=
    congrArg (Option.map _) (change_run there run stroke.line)
  rw [strikeTraced, StateT.run_bind, changed, Option.bind_eq_bind, Option.bind_some, StateT.run_bind,
    markTaken_run, Option.bind_eq_bind, Option.bind_some]
  cases stroke.said result with
  | none => rfl
  | some notification =>
    dsimp only
    rw [StateT.run_bind]
    cases (notifyTraced callbacks list notification).run _ <;> rfl

theorem strikeTraced_eq_some {call : Call ℓ π κ} {stroke : Stroke} {result : stroke.Result}
    {s t : Traced ℓ π κ σ}
    (ends : (strikeTraced callbacks list call stroke).run s = some (result, t)) :
    ∃ mounted scene, s.page.list? list = some mounted ∧
      stroke.change.on ⟨mounted.view, s.page.document⟩ = (result, scene) ∧
      match stroke.said result with
      | none => t = ⟨struck s.page list stroke result scene, s.log ++ marksOf list call stroke result⟩
      | some notification => ∃ count, (notifyTraced callbacks list notification).run
          ⟨struck s.page list stroke result scene, s.log ++ marksOf list call stroke result⟩ =
            some (count, t) := by
  have began := ends
  rw [strikeTraced, StateT.run_bind] at began
  obtain ⟨⟨first, mid⟩, began, -⟩ := Option.bind_eq_some_iff.1 began
  obtain ⟨⟨_, page⟩, changed, same⟩ := Option.map_eq_some_iff.1 began
  cases same
  obtain ⟨mounted, scene, there, run, rfl⟩ := change_eq_some changed
  rw [strikeTraced_run there run] at ends
  split at ends
  case h_1 said =>
    cases ends
    exact ⟨mounted, scene, there, run, by rw [said]⟩
  case h_2 notification said =>
    obtain ⟨⟨count, left⟩, notified, same⟩ := Option.map_eq_some_iff.1 ends
    cases same
    exact ⟨mounted, scene, there, run, by rw [said]; exact ⟨count, notified⟩⟩

theorem serveTraced_call_eq_some {s t : Traced ℓ π κ σ} {mounted : Mounted ℓ}
    (held : s.page.held? list = some mounted) {call : Call ℓ π κ} {a : Option call.Answer}
    (ends : (serveTraced callbacks (.call list call)).run s = some (a, t)) :
    ∃ answer mid, a = some answer ∧ ((partsTraced callbacks list call).answer call).run
        ⟨s.page.begun list, s.log⟩ = some (answer, mid) ∧
      t = { mid with page := mid.page.modifyList list fun m => { m with running := m.running - 1 } } := by
  simp only [serveTraced, StateT.run_bind, StateT.run_get, Option.pure_def, Option.bind_eq_bind,
    Option.bind_some, held] at ends
  obtain ⟨⟨answer, _⟩, served, same⟩ := Option.bind_eq_some_iff.1 ends
  cases same
  obtain ⟨⟨_, mid⟩, answered, same⟩ := Option.bind_eq_some_iff.1 served
  cases same
  exact ⟨answer, mid, rfl, answered, rfl⟩

theorem subscribeTraced_eq_some {kinds : List Event.Kind} {listener : ℓ} {id : ListenerId}
    {s t : Traced ℓ π κ σ} (ends : (subscribeTraced list kinds listener).run s = some (id, t)) :
    ∃ mounted, s.page.list? list = some mounted ∧ t =
      ⟨s.page.modifyList list fun mounted' =>
          { mounted' with hub := (mounted.hub.subscribe kinds listener).1 },
        s.log ++ [.subscribed list mounted.hub.nextId kinds]⟩ := by
  obtain ⟨⟨_, mid⟩, began, ends⟩ := Option.bind_eq_some_iff.1 ends
  cases ends
  obtain ⟨⟨_, page⟩, answered, same⟩ := Option.map_eq_some_iff.1 began
  cases same
  rw [answer, StateT.run_bind] at answered
  obtain ⟨⟨mounted, _⟩, looked, answered⟩ := Option.bind_eq_some_iff.1 answered
  obtain ⟨rfl, there⟩ := running_eq_some looked
  cases answered
  exact ⟨mounted, there, rfl⟩

theorem heed_eq_some {notification : Notification} {entry : ListenerId × ℓ} {s t : Traced ℓ π κ σ}
    (ends : (heed callbacks list notification entry).run s = some ((), t)) :
    ∃ mid, (callbacks.listen entry.2 notification).run
        ⟨s.page, s.log ++ [.called list entry.1 notification s.page]⟩ = some ((), mid) ∧
      t = ⟨mid.page, mid.log ++ [.returned s.log.length]⟩ := by
  obtain ⟨⟨_, mid⟩, listened, ends⟩ := Option.bind_eq_some_iff.1 ends
  cases ends
  exact ⟨mid, listened, rfl⟩

theorem unmarked_running_eq_some {look : Mounted ℓ → α} {a : α} {s t : Traced ℓ π κ σ}
    (ends : (unmarked (do return look (← running list)) : TracedRun ℓ π κ σ α).run s = some (a, t)) :
    ∃ mounted, s.page.list? list = some mounted ∧ a = look mounted ∧ t = s := by
  obtain ⟨⟨_, page⟩, looked, same⟩ := Option.map_eq_some_iff.1 ends
  cases same
  rw [StateT.run_bind] at looked
  obtain ⟨⟨mounted, _⟩, began, looked⟩ := Option.bind_eq_some_iff.1 looked
  obtain ⟨rfl, there⟩ := running_eq_some began
  cases looked
  exact ⟨mounted, there, rfl, rfl⟩

/-- A delivery, turn by turn: what holds when some listeners still have their turns to come. -/
theorem deliver_turns {notification : Notification}
    {turn : List (ListenerId × ℓ) → Traced ℓ π κ σ → Prop}
    (skips : ∀ entry rest s mounted, s.page.list? list = some mounted →
      mounted.hub.isRegistered entry.1 = false → turn (entry :: rest) s → turn rest s)
    (calls : ∀ entry rest s mounted, s.page.list? list = some mounted →
      mounted.hub.isRegistered entry.1 = true → turn (entry :: rest) s → ∀ mid,
        (callbacks.listen entry.2 notification).run
          ⟨s.page, s.log ++ [.called list entry.1 notification s.page]⟩ = some ((), mid) →
        turn rest ⟨mid.page, mid.log ++ [.returned s.log.length]⟩)
    {snapshot : List (ListenerId × ℓ)} {s t : Traced ℓ π κ σ} {count : Nat} (began : turn snapshot s)
    (ends : (Event.deliver (fun id => unmarked (return (← running list).hub.isRegistered id))
      (heed callbacks list notification) (snapshot.map fun entry => (entry.1, entry))).run s =
        some (count, t)) : turn [] t := by
  induction snapshot generalizing s count with
  | nil =>
    cases ends
    exact began
  | cons entry rest ih =>
    rw [List.map_cons, Event.deliver, StateT.run_bind] at ends
    obtain ⟨⟨present, _⟩, looked, ends⟩ := Option.bind_eq_some_iff.1 ends
    obtain ⟨mounted, there, isPresent, rfl⟩ := unmarked_running_eq_some looked
    cases present with
    | false => exact ih (skips entry rest _ mounted there isPresent.symm began) ends
    | true =>
      rw [if_pos rfl, StateT.run_bind] at ends
      obtain ⟨⟨_, mid⟩, heeded, ends⟩ := Option.bind_eq_some_iff.1 ends
      obtain ⟨back, listened, rfl⟩ := heed_eq_some heeded
      obtain ⟨⟨_, last⟩, delivered, ends⟩ := Option.bind_eq_some_iff.1 ends
      cases ends
      exact ih (calls entry rest _ mounted there isPresent.symm began back listened) delivered

theorem notifyTraced_turns {notification : Notification}
    (turn : List (ListenerId × ℓ) → Traced ℓ π κ σ → Prop)
    (skips : ∀ entry rest s mounted, s.page.list? list = some mounted →
      mounted.hub.isRegistered entry.1 = false → turn (entry :: rest) s → turn rest s)
    (calls : ∀ entry rest s mounted, s.page.list? list = some mounted →
      mounted.hub.isRegistered entry.1 = true → turn (entry :: rest) s → ∀ mid,
        (callbacks.listen entry.2 notification).run
          ⟨s.page, s.log ++ [.called list entry.1 notification s.page]⟩ = some ((), mid) →
        turn rest ⟨mid.page, mid.log ++ [.returned s.log.length]⟩)
    {s t : Traced ℓ π κ σ} {count : Nat}
    (start : ∀ mounted, s.page.list? list = some mounted →
      turn (mounted.hub.listenersFor notification.kind) s)
    (ends : (notifyTraced callbacks list notification).run s = some (count, t)) : turn [] t := by
  obtain ⟨⟨mounted, _⟩, looked, ends⟩ := Option.bind_eq_some_iff.1 ends
  obtain ⟨⟨_, page⟩, began, same⟩ := Option.map_eq_some_iff.1 looked
  cases same
  obtain ⟨rfl, there⟩ := running_eq_some began
  exact deliver_turns skips calls (start mounted there) ends

theorem notifyTraced_preserves {good : Traced ℓ π κ σ → Prop} {notification : Notification}
    (called : ∀ s id, good s →
      good { s with log := s.log ++ [.called list id notification s.page] })
    (returned : ∀ s mid, good s → good mid →
      good { mid with log := mid.log ++ [.returned s.log.length] })
    (listen : ∀ listener, Preserves good (callbacks.listen listener notification)) :
    Preserves good (notifyTraced callbacks list notification) := by
  intro s holds count t ends
  refine notifyTraced_turns (fun _ => good) (fun _ _ _ _ _ _ => id) ?_ (fun _ _ => holds) ends
  intro entry rest s mounted _ _ holds mid listened
  exact returned s mid holds (listen entry.2 _ (called s entry.1 holds) _ mid listened)

/-- Strokes keep a condition that neither the change itself nor telling the listeners breaks. -/
theorem strikeTraced_preserves {good : Traced ℓ π κ σ → Prop} {call : Call ℓ π κ} {stroke : Stroke}
    (strikes : ∀ s mounted result scene, good s → s.page.list? list = some mounted →
      stroke.change.on ⟨mounted.view, s.page.document⟩ = (result, scene) →
      good ⟨struck s.page list stroke result scene, s.log ++ marksOf list call stroke result⟩)
    (called : ∀ notification s id, good s →
      good { s with log := s.log ++ [.called list id notification s.page] })
    (returned : ∀ s mid, good s → good mid →
      good { mid with log := mid.log ++ [.returned s.log.length] })
    (listen : ∀ listener notification, Preserves good (callbacks.listen listener notification)) :
    Preserves good (strikeTraced callbacks list call stroke) := by
  intro s holds result t ends
  obtain ⟨mounted, scene, there, run, ends⟩ := strikeTraced_eq_some ends
  have after := strikes s mounted result scene holds there run
  split at ends
  · exact ends ▸ after
  case h_2 notification said =>
    obtain ⟨count, notified⟩ := ends
    exact notifyTraced_preserves (called notification) returned
      (fun listener => listen listener notification) _ after count t notified

end LiveList.Page
