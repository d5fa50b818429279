import LiveList.Proofs.Page.Sparing

namespace LiveList

open Event (ListenerId Notification)

structure Stage (ℓ π κ σ : Type) where
  found : Page ℓ σ
  exchange : Exchange ℓ π κ
  left : Page ℓ σ

/-- What there is to tell of a list after a run: the stages, all notifications that the list has sent,
and each as often as it was heard, with the listener that heard it. -/
structure Chronicle (ℓ π κ σ : Type) where
  stages : List (Stage ℓ π κ σ)
  sent : List Notification
  heard : List (ListenerId × Notification)

namespace Page

variable {ℓ π κ σ S : Type}

def stageEach {m : Type → Type} [Monad m] (look : m (Page ℓ σ))
    (ask : (r : Request ℓ π κ) → m r.Answer) (requests : List (Request ℓ π κ)) :
    m (List (Stage ℓ π κ σ)) :=
  requests.mapM fun r => do
    let found ← look
    let answer ← ask r
    return ⟨found, ⟨r, answer⟩, ← look⟩

def chronicle (behaviour : Behaviour ℓ π κ σ) (depth list : Nat) (requests : List (Request ℓ π κ))
    (page : Page ℓ σ) : Option (Chronicle ℓ π κ σ) := do
  let (stages, _) ← (stageEach get (perform behaviour depth) requests).run page
  let (_, traced) ← (askEach (trace behaviour depth) requests).run ⟨page, []⟩
  return ⟨stages, sent list traced.log, news list traced.log⟩

section

variable {look : StateT S Option (Page ℓ σ)} {see : S → Page ℓ σ}
  (looks : ∀ s, look.run s = some (see s, s)) (ask : (r : Request ℓ π κ) → StateT S Option r.Answer)
include looks

theorem stageEach_run_cons (r : Request ℓ π κ) (rest : List (Request ℓ π κ)) (s : S) :
    (stageEach look ask (r :: rest)).run s = ((ask r).run s).bind fun (answer, t) =>
      ((stageEach look ask rest).run t).map fun (stages, u) =>
        (⟨see s, ⟨r, answer⟩, see t⟩ :: stages, u) := by
  rw [stageEach, List.mapM_cons, ← stageEach]
  simp only [StateT.run_bind, looks, Option.bind_eq_bind, Option.bind_some, Option.bind_assoc,
    StateT.run_pure, Option.pure_def]
  congr 1
  funext ⟨answer, t⟩
  cases (stageEach look ask rest).run t <;> rfl

theorem askEach_run_eq (requests : List (Request ℓ π κ)) (s : S) :
    (askEach ask requests).run s = ((stageEach look ask requests).run s).map fun (stages, t) =>
      (stages.map Stage.exchange, t) := by
  induction requests generalizing s with
  | nil => rfl
  | cons r rest ih =>
    rw [askEach_run_cons, stageEach_run_cons looks]
    cases (ask r).run s with
    | none => rfl
    | some answered =>
      simp only [Option.bind_some, ih, Option.map_map]
      rfl

end

theorem unmarked_get_run (s : Traced ℓ π κ σ) :
    (unmarked get : TracedRun ℓ π κ σ (Page ℓ σ)).run s = some (s.page, s) := rfl

theorem stageEach_coupled {S' : Type} (coupling : Coupling (StateT S Option) (StateT S' Option))
    {look : StateT S Option (Page ℓ σ)} {look' : StateT S' Option (Page ℓ σ)}
    {ask : (r : Request ℓ π κ) → StateT S Option r.Answer}
    {ask' : (r : Request ℓ π κ) → StateT S' Option r.Answer}
    (looks : coupling.couples Any look look') (asks : ∀ r, coupling.couples Any (ask r) (ask' r))
    (requests : List (Request ℓ π κ)) :
    coupling.couples Any (stageEach look ask requests) (stageEach look' ask' requests) :=
  coupling.mapM requests fun r _ => coupling.bind looks fun _ _ => coupling.bind (asks r) fun _ _ =>
    coupling.map looks _ fun _ _ => trivial

variable {still : Prop} {behaviour : Behaviour ℓ π κ σ} {depth list : Nat}
  {requests : List (Request ℓ π κ)} {page : Page ℓ σ}

theorem exists_chronicle (undisturbed : Undisturbed still list behaviour depth requests page) :
    ∃ stages traced, (stageEach (unmarked get) (traceSparing still list behaviour depth) requests).run
        ⟨page, []⟩ = some (stages, traced) ∧
      chronicle behaviour depth list requests page =
        some ⟨stages, sent list traced.log, news list traced.log⟩ := by
  rw [Undisturbed, askEach_run_eq unmarked_get_run, Option.isSome_map] at undisturbed
  obtain ⟨⟨stages, traced⟩, sparing⟩ := Option.isSome_iff_exists.1 undisturbed
  obtain ⟨whole, -⟩ := stageEach_coupled (implied (Traced ℓ π κ σ)) (implied_self _)
    (traceSparing_implied behaviour depth) requests _ _ _ sparing
  have inStep : InStep Shows Any _ _ := stageEach_coupled (lockstep Shows) (unmarked_inStep get)
    (trace_inStep behaviour depth) requests
  obtain ⟨_, performed, -, rfl⟩ := inStep.exists_other rfl whole
  refine ⟨stages, traced, sparing, ?_⟩
  rw [chronicle, performed, askEach_run_eq unmarked_get_run, whole]
  rfl

end Page

end LiveList
