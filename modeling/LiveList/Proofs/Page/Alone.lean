import LiveList.Proofs.Page.Neighbours

namespace LiveList

open Event (Kind ListenerId Notification Script)

variable {ℓ π κ σ τ α : Type}

def Call.Within (own : Belongings ℓ π κ σ τ) (list : Nat) : Call ℓ π κ → Prop
  | .filter test => own.test list test
  | .sortBy order => own.order list order
  | .subscribe _ listener => own.listener list listener
  | _ => True

def Request.Within (own : Belongings ℓ π κ σ τ) (list : Nat) : Request ℓ π κ → Prop
  | .call other asked => other = list ∧ asked.Within own list
  | .unsubscribe other _ | .drop other => other = list
  | .setInnerHtml .. | .setAttribute .. | .removeElement _ => False

namespace Page

/-- An action that sees nothing of the page but one list, and touches nothing else. -/
def KeepsTo (own : Belongings ℓ π κ σ τ) (list : Nat) (action : Action ℓ π κ σ α) : Prop :=
  action.Minds (fun page other => page.sight own list = other.sight own list) (own.Keeps list)
    (Request.Within own list)

structure Behaviour.KeepsTo (behaviour : Behaviour ℓ π κ σ) (own : Belongings ℓ π κ σ τ) : Prop where
  listen : ∀ list listener, own.listener list listener → ∀ notification,
    Page.KeepsTo own list (behaviour.listen listener notification)
  test : ∀ list test, own.test list test → ∀ value,
    Page.KeepsTo own list (behaviour.test test value)
  compare : ∀ list order, own.order list order → ∀ x y,
    Page.KeepsTo own list (behaviour.compare order x y)

def news (list : Nat) (log : List (Mark ℓ π κ σ)) : List (ListenerId × Notification) :=
  log.filterMap fun
    | .called other id notification _ => if other = list then some (id, notification) else none
    | _ => none

theorem news_append (list : Nat) (log part : List (Mark ℓ π κ σ)) :
    news list (log ++ part) = news list log ++ news list part :=
  List.filterMap_append

theorem news_called (list other : Nat) (id : ListenerId) (notification : Notification)
    (found : Page ℓ σ) : news list [(.called other id notification found : Mark ℓ π κ σ)] =
      if other = list then [(id, notification)] else [] := by
  by_cases same : other = list <;> simp [news, same]

structure Neighbours (own : Belongings ℓ π κ σ τ) (list beside : Nat) (aside s other : Traced ℓ π κ σ) :
    Prop where
  together : Together own list beside s.page other.page aside.page
  heard : news list s.log = news list other.log
  unheard : news beside s.log = news beside aside.log

variable {own : Belongings ℓ π κ σ τ} {list beside : Nat} {aside : Traced ℓ π κ σ}
  {expected : α → Prop}

theorem Neighbours.symm {s other : Traced ℓ π κ σ}
    (neighbours : Neighbours own list beside aside s other) :
    Neighbours own beside list other s aside :=
  ⟨neighbours.together.symm, neighbours.unheard, neighbours.heard⟩

theorem unmarked_neighbours {run run' : Run ℓ σ α}
    (inStep : InStep (fun page other => Together own list beside page other aside.page) expected
      run run') :
    InStep (Neighbours own list beside aside) expected (unmarked run) (unmarked run') := by
  intro s other neighbours
  have both := inStep s.page other.page neighbours.together
  have run_eq (run : Run ℓ σ α) (s : Traced ℓ π κ σ) : (unmarked run).run s =
    (run.run s.page).map fun ended => (ended.1, { s with page := ended.2 }) := rfl
  rw [run_eq, run_eq]
  generalize run.run s.page = ended, run'.run other.page = ended' at both
  cases both with
  | none => exact .none
  | some same =>
    exact .some ⟨same.1, same.2.1, same.2.2, neighbours.heard, neighbours.unheard⟩

theorem mark_neighbours {first second : Mark ℓ π κ σ} (told : news list [first] = news list [second])
    (silent : news beside [first] = []) :
    InStep (Neighbours own list beside aside) Any (mark first) (mark second) :=
  .modify fun _ _ neighbours => ⟨neighbours.together,
    by rw [news_append, news_append, neighbours.heard, told],
    by rw [news_append, silent, List.append_nil, neighbours.unheard]⟩

theorem looked_neighbours {look : Mounted ℓ → α}
    (sees : ∀ page other mounted mounted' items items',
      AlikeIn own list page other mounted mounted' items items' →
        look mounted' = look mounted ∧ expected (look mounted)) :
    InStep (Neighbours own list beside aside) expected
      (unmarked (do return look (← running list))) (unmarked (do return look (← running list))) := by
  refine unmarked_neighbours fun page other together => ?_
  obtain ⟨mounted, mounted', items, items', alike⟩ := together.alike
  obtain ⟨same, holds⟩ := sees page other mounted mounted' items items' alike
  rw [StateT.run_bind, running_run alike.there, StateT.run_bind, running_run alike.there']
  exact .some ⟨same.symm, holds, together⟩

theorem modifyList_neighbours (differ : list ≠ beside) {f : Mounted ℓ → Mounted ℓ}
    (viewless : ∀ mounted view, f { mounted with view } = { f mounted with view })
    (hub : ∀ mounted, (f mounted).hub = mounted.hub) :
    InStep (Neighbours own list beside aside) Any (unmarked (modify (·.modifyList list f)))
      (unmarked (modify (·.modifyList list f))) :=
  unmarked_neighbours <| .modify fun _ _ together =>
    together.modifyList differ viewless fun mounted _ holds => by rwa [hub]

theorem change_neighbours (differ : list ≠ beside) (stroke : Stroke) :
    InStep (Neighbours own list beside aside) Any
      (unmarked (change list stroke.change stroke.line))
      (unmarked (change list stroke.change stroke.line)) := by
  refine unmarked_neighbours fun page other together => ?_
  obtain ⟨result, mounted, mounted', left, left', there, there', run, run', struck⟩ :=
    together.struck differ stroke
  rw [change_run there run, change_run there' run']
  exact .some ⟨rfl, trivial, struck⟩

theorem unmarked_map {β : Type} (run : Run ℓ σ β) (f : β → α) :
    (unmarked (do return f (← run)) : TracedRun ℓ π κ σ α) = (do return f (← unmarked run)) := by
  funext s
  change Option.map _ ((run >>= fun b => pure (f b)).run s.page) =
    Option.bind (Option.map _ (run.run s.page)) _
  rw [StateT.run_bind]
  cases run.run s.page <;> rfl

theorem notifyTraced_eq (callbacks : Callbacks (TracedRun ℓ π κ σ) ℓ π κ) (list : Nat)
    (notification : Notification) : notifyTraced callbacks list notification = (do
      let hub ← unmarked (return (← running list).hub)
      Event.deliver (fun id => unmarked (return (← running list).hub.isRegistered id))
        (heed callbacks list notification)
        ((hub.listenersFor notification.kind).map fun entry => (entry.1, entry))) := by
  rw [unmarked_map, bind_assoc]
  simp only [pure_bind]
  rfl

section

variable {callbacks : Callbacks (TracedRun ℓ π κ σ) ℓ π κ} (differ : list ≠ beside)
  (listen : ∀ listener, own.listener list listener → ∀ notification,
    InStep (Neighbours own list beside aside) Any (callbacks.listen listener notification)
      (callbacks.listen listener notification))

include differ listen

theorem heed_neighbours (notification : Notification) {entry : ListenerId × ℓ}
    (its : own.listener list entry.2) :
    InStep (Neighbours own list beside aside) Any (heed callbacks list notification entry)
      (heed callbacks list notification entry) := by
  intro s other neighbours
  have called : news list [(.called list entry.1 notification s.page : Mark ℓ π κ σ)] =
      news list [(.called list entry.1 notification other.page : Mark ℓ π κ σ)] := by
    rw [news_called, news_called]
  have silent : news beside [(.called list entry.1 notification s.page : Mark ℓ π κ σ)] = [] := by
    rw [news_called, if_neg differ]
  have returned : InStep (Neighbours own list beside aside) Any (mark (.returned s.log.length))
      (mark (.returned other.log.length)) := mark_neighbours rfl rfl
  exact ((mark_neighbours called silent).bind fun _ _ =>
    (listen entry.2 its notification).bind fun _ _ => returned) s other neighbours

theorem notifyTraced_neighbours (notification : Notification) :
    InStep (Neighbours own list beside aside) Any (notifyTraced callbacks list notification)
      (notifyTraced callbacks list notification) := by
  rw [notifyTraced_eq]
  have looked : InStep (Neighbours own list beside aside)
      (fun hub : Event.Hub ℓ => ∀ registration ∈ hub.registrations,
        own.listener list registration.listener)
      (unmarked (do return (← running list).hub)) (unmarked (do return (← running list).hub)) :=
    looked_neighbours fun _ _ _ _ _ _ alike => ⟨by rw [alike.state], alike.listeners⟩
  have asked (id : ListenerId) : InStep (Neighbours own list beside aside) Any
      (unmarked (do return (← running list).hub.isRegistered id))
      (unmarked (do return (← running list).hub.isRegistered id)) :=
    looked_neighbours fun _ _ _ _ _ _ alike => ⟨by rw [alike.state], trivial⟩
  refine looked.bind fun hub its => ?_
  have delivered := deliver_inStep (heed callbacks list notification)
    (heed callbacks list notification) id asked
    ((hub.listenersFor notification.kind).map fun entry => (entry.1, entry)) ?_
  · simpa only [List.map_map, Function.comp_def, id] using delivered
  · intro id entry inside
    obtain ⟨listed, there, same⟩ := List.mem_map.1 inside
    cases same
    obtain ⟨registration, held, rfl⟩ := List.mem_map.1 there
    exact heed_neighbours differ listen notification (its registration (List.mem_filter.1 held).1)

theorem strikeTraced_neighbours (call : Call ℓ π κ) (stroke : Stroke) :
    InStep (Neighbours own list beside aside) Any (strikeTraced callbacks list call stroke)
      (strikeTraced callbacks list call stroke) := by
  refine (change_neighbours differ stroke).bind fun result _ => ?_
  have marked : InStep (Neighbours own list beside aside) Any
      (markTaken list call (stroke.said result) (stroke.line result))
      (markTaken list call (stroke.said result) (stroke.line result)) := by
    cases stroke.line result with
    | none => exact .pure trivial
    | some entry => exact mark_neighbours rfl rfl
  refine marked.bind fun _ _ => ?_
  cases stroke.said result with
  | none => exact .pure trivial
  | some notification =>
    exact (notifyTraced_neighbours differ listen notification).bind fun _ _ => .pure trivial

end

theorem subscribe_neighbours (differ : list ≠ beside) (kinds : List Kind) {listener : ℓ}
    (its : own.listener list listener) :
    InStep (Neighbours own list beside aside) Any
      (unmarked (answer (mute (π := π) (κ := κ)) list (.subscribe kinds listener)))
      (unmarked (answer (mute (π := π) (κ := κ)) list (.subscribe kinds listener))) := by
  refine unmarked_neighbours fun page other together => ?_
  obtain ⟨mounted, mounted', items, items', alike⟩ := together.alike
  have same : mounted'.hub = mounted.hub := by rw [alike.state]
  simp only [answer, StateT.run_bind, running_run alike.there, running_run alike.there', same,
    Option.bind_eq_bind, Option.bind_some]
  refine .some ⟨rfl, trivial, together.modifyList differ (fun _ _ => rfl) ?_⟩
  intro _ there listeners registration inside
  cases alike.there.symm.trans there
  rcases List.mem_append.1 inside with held | new
  · exact listeners registration held
  · cases List.mem_singleton.1 new
    exact its

theorem subscribeTraced_neighbours (differ : list ≠ beside) (kinds : List Kind) {listener : ℓ}
    (its : own.listener list listener) :
    InStep (Neighbours own list beside aside) Any (subscribeTraced list kinds listener)
      (subscribeTraced list kinds listener) :=
  (subscribe_neighbours differ kinds its).bind fun _ _ =>
    (mark_neighbours rfl rfl).bind fun _ _ => .pure trivial

theorem unsubscribe_neighbours (differ : list ≠ beside) (id : ListenerId) :
    InStep (Neighbours own list beside aside) Any
      (unmarked (serve (mute (π := π) (κ := κ)) (.unsubscribe list id)))
      (unmarked (serve (mute (π := π) (κ := κ)) (.unsubscribe list id))) := by
  refine unmarked_neighbours fun page other together => ?_
  obtain ⟨mounted, mounted', items, items', alike⟩ := together.alike
  have hub : mounted'.hub = mounted.hub := by rw [alike.state]
  have alive : mounted'.alive = mounted.alive := by rw [alike.state]; rfl
  simp only [serve, Page.alive, StateT.run_bind, StateT.run_get, Option.pure_def,
    Option.bind_eq_bind, Option.bind_some, alike.there, alike.there', Option.any_some, alive]
  split
  · simp only [StateT.run_bind, running_run alike.there, running_run alike.there', hub,
      Option.bind_eq_bind, Option.bind_some]
    refine .some ⟨rfl, trivial, together.modifyList differ (fun _ _ => rfl) ?_⟩
    intro _ there listeners registration inside
    cases alike.there.symm.trans there
    exact listeners registration (List.mem_filter.1 inside).1
  · exact .some ⟨rfl, trivial, together⟩

theorem duringTraced_neighbours (differ : list ≠ beside) {body : TracedRun ℓ π κ σ α}
    (inStep : InStep (Neighbours own list beside aside) Any body body) :
    InStep (Neighbours own list beside aside) Any (duringTraced list body)
      (duringTraced list body) := by
  have counted (f : Nat → Nat) : InStep (Neighbours own list beside aside) Any
      (unmarked (modify fun page =>
        page.modifyList list fun m => { m with running := f m.running }))
      (unmarked (modify fun page =>
        page.modifyList list fun m => { m with running := f m.running })) :=
    modifyList_neighbours differ (fun _ _ => rfl) fun _ => rfl
  exact (counted (· + 1)).bind fun _ _ => inStep.bind fun _ _ =>
    (counted (· - 1)).bind fun _ _ => .pure trivial

section

variable {callbacks : Callbacks (TracedRun ℓ π κ σ) ℓ π κ} (differ : list ≠ beside)
  (listen : ∀ listener, own.listener list listener → ∀ notification,
    InStep (Neighbours own list beside aside) Any (callbacks.listen listener notification)
      (callbacks.listen listener notification))
  (test : ∀ test, own.test list test → ∀ value,
    InStep (Neighbours own list beside aside) Any (callbacks.test test value)
      (callbacks.test test value))
  (compare : ∀ order, own.order list order → ∀ x y,
    InStep (Neighbours own list beside aside) Any (callbacks.compare order x y)
      (callbacks.compare order x y))

include differ listen test compare

theorem partsTraced_neighbours {call : Call ℓ π κ} (within : call.Within own list) :
    Parts.InStep (Neighbours own list beside aside) Any (partsTraced callbacks list call)
      (partsTraced callbacks list call) call where
  model := looked_neighbours fun _ _ _ _ _ _ alike =>
    ⟨congrArg (·.view.model) alike.sketch, trivial⟩
  collection := looked_neighbours fun _ _ _ _ _ _ alike =>
    ⟨congrArg (·.view.collection) alike.sketch, trivial⟩
  lines := looked_neighbours fun _ _ _ _ _ _ alike => ⟨by rw [alike.state], trivial⟩
  test asked same value := test asked (by rwa [same] at within) value
  compare order same x y := compare order (by rwa [same] at within) x y
  strike stroke _ := strikeTraced_neighbours differ listen call stroke
  subscribe kinds listener same := subscribeTraced_neighbours differ kinds (by rwa [same] at within)

theorem serveTraced_neighbours {r : Request ℓ π κ} (within : r.Within own list) :
    InStep (Neighbours own list beside aside) Any (serveTraced callbacks r)
      (serveTraced callbacks r) := by
  cases r with
  | call other call =>
    obtain ⟨rfl, within⟩ := within
    have answered := Parts.answer_inStep
      (partsTraced_neighbours differ listen test compare within)
    have during := duringTraced_neighbours differ answered
    intro s traced neighbours
    obtain ⟨mounted, mounted', items, items', alike⟩ := neighbours.together.alike
    have owned : mounted'.owned = mounted.owned := by rw [alike.state]
    simp only [serveTraced, held?, StateT.run_bind, StateT.run_get, Option.pure_def,
      Option.bind_eq_bind, Option.bind_some, alike.there, alike.there', Option.filter_some, owned]
    cases mounted.owned with
    | true => exact during.map some (fun _ _ => trivial) s traced neighbours
    | false => exact .some ⟨rfl, trivial, neighbours⟩
  | unsubscribe other id =>
    cases within
    exact unsubscribe_neighbours differ id
  | drop other =>
    cases within
    exact modifyList_neighbours differ (fun _ _ => rfl) fun _ => rfl
  | setInnerHtml | setAttribute | removeElement => exact within.elim

end

theorem actTraced_neighbours (differ : list ≠ beside)
    {ask : (r : Request ℓ π κ) → TracedRun ℓ π κ σ r.Answer}
    (asks : ∀ r : Request ℓ π κ, r.Within own list →
      InStep (Neighbours own list beside aside) Any (ask r) (ask r))
    {action : Action ℓ π κ σ α} (keeps : KeepsTo own list action) :
    InStep (Neighbours own list beside aside) Any (actTraced ask action) (actTraced ask action) :=
  script_inStep
    (fun s other neighbours => ⟨s.page, other.page, rfl, rfl, neighbours.together.sight_eq⟩)
    (fun _ keeps => unmarked_neighbours <| .modify fun _ _ together => together.user keeps differ.symm)
    asks action keeps

theorem trace_neighbours {behaviour : Behaviour ℓ π κ σ} (keeps : behaviour.KeepsTo own)
    (differ : list ≠ beside) (depth : Nat) {r : Request ℓ π κ} (within : r.Within own list) :
    InStep (Neighbours own list beside aside) Any (trace behaviour depth r)
      (trace behaviour depth r) := by
  induction depth generalizing r with
  | zero => exact .failure
  | succ depth ih =>
    have acts {β : Type} {action : Action ℓ π κ σ β} (keeps : KeepsTo own list action) :
        InStep (Neighbours own list beside aside) Any (actTraced (trace behaviour depth) action)
          (actTraced (trace behaviour depth) action) :=
      actTraced_neighbours differ (fun _ within => ih within) keeps
    exact serveTraced_neighbours differ (fun _ its _ => acts (keeps.listen list _ its _))
      (fun _ its _ => acts (keeps.test list _ its _))
      (fun _ its _ _ => acts (keeps.compare list _ its _ _)) within

end Page

end LiveList
