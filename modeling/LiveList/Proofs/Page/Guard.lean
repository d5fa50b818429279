import LiveList.Proofs.Page.Trace

/-!
# Conditions that traces keep

A family of conditions on traced pages is guarded if nothing that happens on a page breaks one of
them, and neither does a stroke whose listeners keep all of them. Main statement: a guarded family
is kept by every trace, at any depth of requests in callbacks.
-/

namespace LiveList.Page

open Json (Value)

variable {ℓ π κ σ ι α : Type}

structure Guards (known : Nat → Model → Prop) (good : ι → Traced ℓ π κ σ → Prop) : Prop where
  model : ∀ i s list mounted, good i s → s.page.list? list = some mounted →
    known list mounted.view.model
  user : ∀ i s user, good i s → good i { s with page := { s.page with user } }
  document : ∀ i s document, good i s → good i { s with page := { s.page with document } }
  state : ∀ i s list (f : Mounted ℓ → Mounted ℓ), (∀ mounted, (f mounted).view = mounted.view) →
    (∀ mounted, (f mounted).hub = mounted.hub) → good i s →
    good i { s with page := s.page.modifyList list f }
  subscribe : ∀ i s list mounted kinds listener, s.page.list? list = some mounted → good i s →
    good i ⟨s.page.modifyList list fun m =>
        { m with hub := (mounted.hub.subscribe kinds listener).1 },
      s.log ++ [.subscribed list mounted.hub.nextId kinds]⟩
  unsubscribe : ∀ i s list mounted id, s.page.list? list = some mounted → good i s →
    good i { s with page := s.page.modifyList list fun m =>
      { m with hub := (mounted.hub.unsubscribe id).1 } }
  strike : ∀ (callbacks : Callbacks (TracedRun ℓ π κ σ) ℓ π κ),
    (∀ i listener notification, Preserves (good i) (callbacks.listen listener notification)) →
    ∀ i list call stroke, call.Leads (known list) stroke →
      Preserves (good i) (strikeTraced callbacks list call stroke)

namespace Guards

variable {known : Nat → Model → Prop} {good : ι → Traced ℓ π κ σ → Prop}
  (guards : Guards known good)
include guards

theorem serve_unsubscribe (i : ι) (list : Nat) (id : Event.ListenerId) :
    Preserves (good i) (unmarked (serve (mute (π := π) (κ := κ)) (.unsubscribe list id))) := by
  refine unmarked_preserves fun s holds removed page ends => ?_
  simp only [serve, StateT.run_bind, StateT.run_get, Option.pure_def, Option.bind_eq_bind,
    Option.bind_some] at ends
  split at ends
  · rw [StateT.run_bind] at ends
    obtain ⟨⟨mounted, mid⟩, began, ends⟩ := Option.bind_eq_some_iff.1 ends
    obtain ⟨rfl, there⟩ := running_eq_some began
    cases ends
    exact guards.unsubscribe i s list mounted id there holds
  · cases ends
    exact holds

theorem editElement (i : ι) (id : String) (edit : Document → NodeId → Document) :
    Preserves (good i)
      (unmarked (modifyGet fun page => page.editElement id edit) : TracedRun ℓ π κ σ Bool) := by
  refine unmarked_preserves fun s holds found page ends => ?_
  have same : s.page.editElement id edit = (found, page) := Option.some.inj ends
  unfold Page.editElement at same
  split at same
  · cases same
    exact holds
  · cases same
    exact guards.document i s _ holds

theorem count (i : ι) (list : Nat) (f : Nat → Nat) :
    Preserves (good i) (unmarked (modify fun page =>
      page.modifyList list fun m => { m with running := f m.running })) := by
  rintro s holds _ t ⟨⟩
  exact guards.state i s list _ (fun _ => rfl) (fun _ => rfl) holds

theorem during (i : ι) (list : Nat) {body body' : TracedRun ℓ π κ σ α}
    (inStep : InStep (Both (good i)) Any body body') :
    InStep (Both (good i)) Any (duringTraced list body) (duringTraced list body') :=
  (inStep_both.2 (guards.count i list (· + 1))).bind fun _ _ => inStep.bind fun _ _ =>
    (inStep_both.2 (guards.count i list (· - 1))).bind fun _ _ => .pure trivial

section

variable {callbacks callbacks' : Callbacks (TracedRun ℓ π κ σ) ℓ π κ} {i : ι}
  (test : ∀ test value, InStep (Both (good i)) Any (callbacks.test test value)
    (callbacks'.test test value))
  (compare : ∀ order x y, InStep (Both (good i)) Any (callbacks.compare order x y)
    (callbacks'.compare order x y))
  (strike : ∀ list call stroke, call.Leads (known list) stroke → InStep (Both (good i)) Any
    (strikeTraced callbacks list call stroke) (strikeTraced callbacks' list call stroke))
include test compare strike

theorem answer_inStep (list : Nat) (call : Call ℓ π κ) : InStep (Both (good i)) Any
    ((partsTraced callbacks list call).answer call) ((partsTraced callbacks' list call).answer call) := by
  have parts : Parts.InStep (Both (good i)) (known list) (partsTraced callbacks list call)
      (partsTraced callbacks' list call) call := by
    refine ⟨?_, ?_, ?_, ?_, ?_, ?_, ?_⟩
    · exact looked_inStep fun s mounted holds there => guards.model i s list mounted holds there
    · exact looked_inStep fun _ _ _ _ => trivial
    · exact looked_inStep fun _ _ _ _ => trivial
    · exact fun asked _ value => test asked value
    · exact fun order _ x y => compare order x y
    · exact fun stroke leads => strike list call stroke leads
    · refine fun kinds listener _ => inStep_both.2 fun s holds id t ends => ?_
      obtain ⟨mounted, there, rfl⟩ := subscribeTraced_eq_some ends
      exact guards.subscribe i s list mounted kinds listener there holds
  exact Parts.answer_inStep parts

theorem serve_inStep (r : Request ℓ π κ) : InStep (Both (good i)) Any (serveTraced callbacks r)
    (serveTraced callbacks' r) := by
  cases r with
  | call list call =>
    have answered := guards.answer_inStep test compare strike list call
    refine InStep.bind (inStep_both.2 ?_) fun before _ => ?_
    · rintro s holds _ t ⟨⟩
      exact holds
    · cases before.page.held? list with
      | none => exact .pure trivial
      | some mounted => exact (guards.during i list answered).map some fun _ _ => trivial
  | unsubscribe list id => exact inStep_both.2 (guards.serve_unsubscribe i list id)
  | drop list =>
    refine inStep_both.2 ?_
    rintro s holds _ t ⟨⟩
    exact guards.state i s list _ (fun _ => rfl) (fun _ => rfl) holds
  | setInnerHtml id markup => exact inStep_both.2 (guards.editElement i id _)
  | setAttribute id name value => exact inStep_both.2 (guards.editElement i id _)
  | removeElement id => exact inStep_both.2 (guards.editElement i id _)

end

theorem act_inStep (i : ι) {ask ask' : (r : Request ℓ π κ) → TracedRun ℓ π κ σ r.Answer}
    (asks : ∀ r, InStep (Both (good i)) Any (ask r) (ask' r)) (action : Action ℓ π κ σ α) :
    InStep (Both (good i)) Any (actTraced ask action) (actTraced ask' action) := by
  refine script_inStep ?_ (fun f _ => inStep_both.2 ?_) (fun r _ => asks r) action action.minds_any
  · rintro s _ ⟨rfl, -⟩
    exact ⟨s.page, s.page, rfl, rfl, rfl⟩
  · rintro s holds _ t ⟨⟩
    exact guards.user i s _ holds

theorem act (i : ι) {ask : (r : Request ℓ π κ) → TracedRun ℓ π κ σ r.Answer}
    (asks : ∀ r, Preserves (good i) (ask r)) (action : Action ℓ π κ σ α) :
    Preserves (good i) (actTraced ask action) :=
  inStep_both.1 (guards.act_inStep i (fun r => inStep_both.2 (asks r)) action)

theorem trace (behaviour : Behaviour ℓ π κ σ) (i : ι) (depth : Nat) (r : Request ℓ π κ) :
    Preserves (good i) (trace behaviour depth r) := by
  induction depth generalizing i r with
  | zero => rintro s holds a t ⟨⟩
  | succ depth ih =>
    have acts {α : Type} (i : ι) (action : Action ℓ π κ σ α) := guards.act i (ih i) action
    exact inStep_both.1 <| guards.serve_inStep (fun _ _ => inStep_both.2 (acts i _))
      (fun _ _ _ => inStep_both.2 (acts i _)) (fun list call stroke leads => inStep_both.2 <|
        guards.strike _ (fun i _ _ => acts i _) i list call stroke leads) r

end Guards

end LiveList.Page
