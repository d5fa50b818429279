import LiveList.Proofs.Page.Interleaving

namespace LiveList

open Event (ListenerId Notification)

namespace Page

variable {ℓ π κ σ α β : Type} {still : Prop} {list : Nat}

/-- A list is as it was: its view, its journal, its handle and the content of its container. -/
structure Leaves (list : Nat) (page left : Page ℓ σ) : Prop where
  grounded : page.document.Grounded → left.document.Grounded
  there : ∀ mounted, page.list? list = some mounted → ∃ mounted', left.list? list = some mounted' ∧
    mounted'.view = mounted.view ∧ mounted'.journal = mounted.journal ∧ mounted'.owned = mounted.owned
  content : ∀ mounted, page.list? list = some mounted →
    ∀ id ∈ page.document.subtree mounted.view.container,
      left.document.node? id = page.document.node? id

def sent (list : Nat) (log : List (Mark ℓ π κ σ)) : List Notification :=
  log.filterMap fun
    | .took other _ _ said => if other = list then said else none
    | _ => none

structure LetsBe (still : Prop) (list : Nat) (s t : Traced ℓ π κ σ) : Prop
    extends Leaves list s.page t.page where
  sent : Page.sent list t.log = Page.sent list s.log
  heard : news list t.log = news list s.log
  hub : still → ∀ mounted mounted', s.page.list? list = some mounted →
    t.page.list? list = some mounted' → mounted'.hub = mounted.hub

noncomputable def Callbacks.sparing (still : Prop) (list : Nat)
    (callbacks : Callbacks (TracedRun ℓ π κ σ) ℓ π κ) : Callbacks (TracedRun ℓ π κ σ) ℓ π κ :=
  { callbacks with
    listen := fun listener notification => do
      let before ← get
      callbacks.listen listener notification
      insist (LetsBe still list before) }

/-- Answers a request as `trace` does, but there is no answer if a listener that is notified does not
leave the list as it is. -/
noncomputable def traceSparing (still : Prop) (list : Nat) (behaviour : Behaviour ℓ π κ σ) :
    (depth : Nat) → (r : Request ℓ π κ) → TracedRun ℓ π κ σ r.Answer
  | 0, _ => failure
  | depth + 1, r =>
    serveTraced ((behaviour.traced (trace behaviour depth)).sparing still list) r

/-- While the requests are made one after the other, the listeners of a list leave it as it is. -/
def Undisturbed (still : Prop) (list : Nat) (behaviour : Behaviour ℓ π κ σ) (depth : Nat)
    (requests : List (Request ℓ π κ)) (page : Page ℓ σ) : Prop :=
  ((askEach (traceSparing still list behaviour depth) requests).run ⟨page, []⟩).isSome

def Behaviour.ReturnsSparing (behaviour : Behaviour ℓ π κ σ) (still : Prop) (list depth : Nat) : Prop :=
  ∀ listener notification (s : Traced ℓ π κ σ), ∃ t,
    (actTraced (trace behaviour depth) (behaviour.listen listener notification)).run s = some ((), t) ∧
      LetsBe still list s t

theorem LetsBe.refl (s : Traced ℓ π κ σ) : LetsBe still list s s where
  grounded := id
  there mounted there := ⟨mounted, there, rfl, rfl, rfl⟩
  content _ _ _ _ := rfl
  sent := rfl
  heard := rfl
  hub _ _ _ there there' := by
    cases there.symm.trans there'
    rfl

variable {S : Type} {run other : StateT S Option α}

def implied (S : Type) : Coupling (StateT S Option) (StateT S Option) where
  couples expected run other := ∀ s a t, run.run s = some (a, t) →
    other.run s = some (a, t) ∧ expected a
  pure holds := by
    rintro s a t ⟨⟩
    exact ⟨rfl, holds⟩
  bind first rest := by
    intro s b t ends
    rw [StateT.run_bind] at ends ⊢
    obtain ⟨⟨a, mid⟩, began, ends⟩ := Option.bind_eq_some_iff.1 ends
    obtain ⟨same, holds⟩ := first s a mid began
    obtain ⟨same', holds'⟩ := rest a holds mid b t ends
    exact ⟨Option.bind_eq_some_iff.2 ⟨_, same, same'⟩, holds'⟩

theorem implied_self (run : StateT S Option α) : (implied S).couples Any run run :=
  fun _ _ _ ends => ⟨ends, trivial⟩

section

variable {callbacks callbacks' : Callbacks (TracedRun ℓ π κ σ) ℓ π κ}
  (listen : ∀ listener notification, (implied _).couples Any (callbacks.listen listener notification)
    (callbacks'.listen listener notification))
  (test : ∀ test value, (implied _).couples Any (callbacks.test test value)
    (callbacks'.test test value))
  (compare : ∀ order x y, (implied _).couples Any (callbacks.compare order x y)
    (callbacks'.compare order x y))

include listen

theorem notifyTraced_implied (notification : Notification) :
    (implied _).couples Any (notifyTraced callbacks list notification)
      (notifyTraced callbacks' list notification) := by
  refine (implied _).bind (implied_self _) fun mounted _ => ?_
  have delivered := (implied (Traced ℓ π κ σ)).deliver (heed callbacks list notification)
    (heed callbacks' list notification) id
    (fun id => implied_self (unmarked (do return (← running list).hub.isRegistered id)))
    ((mounted.hub.listenersFor notification.kind).map fun entry => (entry.1, entry))
    fun _ entry _ => (implied _).bind (implied_self _) fun before _ =>
      (implied _).bind (implied_self _) fun _ _ =>
        (implied _).bind (listen entry.2 notification) fun _ _ => implied_self _
  simpa only [List.map_map, Function.comp_def, id] using delivered

theorem strikeTraced_implied (call : Call ℓ π κ) (stroke : Stroke) :
    (implied _).couples Any (strikeTraced callbacks list call stroke)
      (strikeTraced callbacks' list call stroke) := by
  refine (implied _).bind (implied_self _) fun result _ =>
    (implied _).bind (implied_self _) fun _ _ => ?_
  cases stroke.said result with
  | none => exact (implied _).pure trivial
  | some notification =>
    exact (implied _).bind (notifyTraced_implied listen notification) fun _ _ => (implied _).pure trivial

include test compare

theorem serveTraced_implied (r : Request ℓ π κ) :
    (implied _).couples Any (serveTraced callbacks r) (serveTraced callbacks' r) := by
  cases r with
  | call list call =>
    have coupled : Parts.Coupled (implied (Traced ℓ π κ σ)) Any (partsTraced callbacks list call)
        (partsTraced callbacks' list call) call :=
      ⟨implied_self _, implied_self _, fun _ _ => implied_self _, fun asked _ => test asked,
        fun order _ => compare order, fun stroke _ => strikeTraced_implied listen call stroke,
        fun _ _ _ => implied_self _⟩
    have answered := Parts.answer_coupled coupled
    refine (implied _).bind (implied_self _) fun before _ => ?_
    cases before.page.held? list with
    | none => exact (implied _).pure trivial
    | some mounted =>
      have during : (implied _).couples Any
          (duringTraced list ((partsTraced callbacks list call).answer call))
          (duringTraced list ((partsTraced callbacks' list call).answer call)) :=
        (implied _).bind (implied_self _) fun _ _ => (implied _).bind answered fun _ _ =>
          (implied _).bind (implied_self _) fun _ _ => (implied _).pure trivial
      exact (implied _).map during some fun _ _ => trivial
  | unsubscribe | drop | setInnerHtml | setAttribute | removeElement => exact implied_self _

end

theorem sparing_eq_some {callbacks : Callbacks (TracedRun ℓ π κ σ) ℓ π κ} {listener : ℓ}
    {notification : Notification} {s t : Traced ℓ π κ σ}
    (ends : ((callbacks.sparing still list).listen listener notification).run s = some ((), t)) :
    (callbacks.listen listener notification).run s = some ((), t) ∧ LetsBe still list s t := by
  obtain ⟨⟨_, mid⟩, listened, ends⟩ := Option.bind_eq_some_iff.1 ends
  obtain ⟨spares, rfl⟩ := insist_eq_some ends
  exact ⟨listened, spares⟩

theorem sparing_run {callbacks : Callbacks (TracedRun ℓ π κ σ) ℓ π κ} {listener : ℓ}
    {notification : Notification} {s t : Traced ℓ π κ σ}
    (listened : (callbacks.listen listener notification).run s = some ((), t))
    (spares : LetsBe still list s t) :
    ((callbacks.sparing still list).listen listener notification).run s = some ((), t) :=
  Option.bind_eq_some_iff.2 ⟨_, listened, insist_run spares⟩

theorem traceSparing_implied (behaviour : Behaviour ℓ π κ σ) (depth : Nat) (r : Request ℓ π κ) :
    (implied _).couples Any (traceSparing still list behaviour depth r) (trace behaviour depth r) := by
  cases depth with
  | zero => rintro s a t ⟨⟩
  | succ depth =>
    exact serveTraced_implied (fun _ _ _ _ _ ends => ⟨(sparing_eq_some ends).1, trivial⟩)
      (fun _ _ => implied_self _) (fun _ _ _ => implied_self _) r

end Page

end LiveList
