import LiveList.Proofs.Page.Effects
import LiveList.Proofs.Page.Sparing

namespace LiveList.Page

open Event (ListenerId Notification)

variable {ℓ π κ σ α : Type} {list : Nat} {P : List (Effect ℓ π κ) → ListView → Prop}

abbrev Check (ℓ π κ σ : Type) : Type :=
  (r : Request ℓ π κ) → Traced ℓ π κ σ → r.Answer → Prop

noncomputable def audited (check : Check ℓ π κ σ)
    (ask : (r : Request ℓ π κ) → TracedRun ℓ π κ σ r.Answer) (r : Request ℓ π κ) :
    TracedRun ℓ π κ σ r.Answer := do
  let before ← get
  let answer ← ask r
  insist fun _ => check r before answer
  return answer

/-- Answers a request as `trace` does, but there is no answer if the request, or one that a callback
makes meanwhile, does not pass the check. -/
noncomputable def traceAudited (check : Check ℓ π κ σ) (behaviour : Behaviour ℓ π κ σ) :
    (depth : Nat) → (r : Request ℓ π κ) → TracedRun ℓ π κ σ r.Answer
  | 0, _ => failure
  | depth + 1, r => audited check (serveTraced (behaviour.traced (traceAudited check behaviour depth))) r

theorem Holds.preserves_mark {mark : Mark ℓ π κ σ} (none : effects list [mark] = []) :
    Preserves (Holds list P) (Page.mark mark) := by
  rintro s holds _ t ⟨⟩
  exact holds.marked none

def strikeMarked (other : Nat) (call : Call ℓ π κ) (stroke : Stroke) :
    TracedRun ℓ π κ σ stroke.Result := do
  let result ← unmarked (change other stroke.change stroke.line)
  markTaken other call (stroke.said result) (stroke.line result)
  return result

def tellResult (callbacks : Callbacks (TracedRun ℓ π κ σ) ℓ π κ) (other : Nat) (stroke : Stroke)
    (result : stroke.Result) : TracedRun ℓ π κ σ stroke.Result :=
  match stroke.said result with
  | none => return result
  | some notification => do
    let _ ← notifyTraced callbacks other notification
    return result

theorem strikeTraced_eq_bind (callbacks : Callbacks (TracedRun ℓ π κ σ) ℓ π κ) (other : Nat)
    (call : Call ℓ π κ) (stroke : Stroke) :
    strikeTraced callbacks other call stroke =
      strikeMarked other call stroke >>= tellResult callbacks other stroke := by
  rw [strikeTraced, strikeMarked, bind_assoc]
  refine bind_congr fun result => ?_
  rw [bind_assoc]
  exact bind_congr fun _ => (pure_bind result (tellResult callbacks other stroke)).symm

theorem strikeMarked_preserves (kept : KeptByStrokes P) (other : Nat) {call : Call ℓ π κ}
    {stroke : Stroke} (leads : call.Leads (fun _ => True) stroke) :
    Preserves (Holds list P) (strikeMarked (σ := σ) other call stroke) := by
  intro s holds result t ends
  obtain ⟨⟨changed, mid⟩, began, ends⟩ := Option.bind_eq_some_iff.1 ends
  obtain ⟨⟨_, page⟩, changing, same⟩ := Option.map_eq_some_iff.1 began
  cases same
  obtain ⟨mounted, scene, there, run, rfl⟩ := change_eq_some changing
  obtain ⟨⟨_, last⟩, marked, ends⟩ := Option.bind_eq_some_iff.1 ends
  cases ends
  cases (markTaken_run ..).symm.trans marked
  exact holds.struck kept leads there run

section

variable {callbacks callbacks' : Callbacks (TracedRun ℓ π κ σ) ℓ π κ}
  (listen : ∀ listener notification, InStep (Both (Holds list P)) Any
    (callbacks.listen listener notification) (callbacks'.listen listener notification))
include listen

theorem notifyTraced_both (other : Nat) (notification : Notification) :
    InStep (Both (Holds list P)) Any (notifyTraced callbacks other notification)
      (notifyTraced callbacks' other notification) := by
  have heeds (entry : ListenerId × ℓ) : InStep (Both (Holds list P)) Any
      (heed callbacks other notification entry) (heed callbacks' other notification entry) := by
    have looks : Preserves (Holds list P) (get : TracedRun ℓ π κ σ (Traced ℓ π κ σ)) := by
      rintro s holds _ t ⟨⟩
      exact holds
    exact (inStep_both.2 looks).bind fun before _ =>
      (inStep_both.2 (Holds.preserves_mark rfl)).bind fun _ _ =>
        (listen entry.2 notification).bind fun _ _ => inStep_both.2 (Holds.preserves_mark rfl)
  have looks : Preserves (Holds list P) (unmarked (running other) : TracedRun ℓ π κ σ (Mounted ℓ)) :=
    unmarked_preserves fun s holds mounted page ends => (running_eq_some ends).1 ▸ holds
  have registers (id : ListenerId) : InStep (Both (Holds list P)) Any
      (unmarked (do return (← running other).hub.isRegistered id) : TracedRun ℓ π κ σ Bool)
      (unmarked (do return (← running other).hub.isRegistered id)) := looked_inStep fun _ _ _ _ => trivial
  refine (inStep_both.2 looks).bind fun mounted _ => ?_
  have delivered := deliver_inStep (heed callbacks other notification)
    (heed callbacks' other notification) id registers
    ((mounted.hub.listenersFor notification.kind).map fun entry => (entry.1, entry))
    fun _ entry _ => heeds entry
  simpa only [List.map_map, Function.comp_def, id] using delivered

theorem strikeTraced_both (kept : KeptByStrokes P) (other : Nat) {call : Call ℓ π κ} {stroke : Stroke}
    (leads : call.Leads (fun _ => True) stroke) :
    InStep (Both (Holds list P)) Any (strikeTraced callbacks other call stroke)
      (strikeTraced callbacks' other call stroke) := by
  rw [strikeTraced_eq_bind, strikeTraced_eq_bind]
  refine (inStep_both.2 (strikeMarked_preserves kept other leads)).bind fun result _ => ?_
  unfold tellResult
  cases stroke.said result with
  | none => exact .pure trivial
  | some notification =>
    exact (notifyTraced_both listen other notification).bind fun _ _ => .pure trivial

end

variable {check : Check ℓ π κ σ} {behaviour : Behaviour ℓ π κ σ}

theorem audited_both {good : Traced ℓ π κ σ → Prop} {r : Request ℓ π κ}
    {run : TracedRun ℓ π κ σ r.Answer} {ask : (r : Request ℓ π κ) → TracedRun ℓ π κ σ r.Answer}
    (inStep : InStep (Both good) Any run (ask r))
    (passes : ∀ s answer t, good s → run.run s = some (answer, t) → check r s answer) :
    InStep (Both good) Any run (audited check ask r) := by
  rintro s _ ⟨rfl, holds⟩
  have both := inStep s s ⟨rfl, holds⟩
  rw [audited, StateT.run_bind]
  simp only [StateT.run_get, Option.pure_def, Option.bind_eq_bind, Option.bind_some, StateT.run_bind]
  cases ends : run.run s with
  | none =>
    rw [ends] at both
    generalize (ask r).run s = other at both
    cases both
    exact .none
  | some ended =>
    obtain ⟨answer, t⟩ := ended
    obtain ⟨_, asked, -, rfl, later⟩ := inStep.exists_other ⟨rfl, holds⟩ ends
    have passed : (insist fun _ : Traced ℓ π κ σ => check r s answer).run t = some ((), t) :=
      insist_run (passes s answer t holds ends)
    rw [asked, Option.bind_some, passed]
    exact .some ⟨rfl, trivial, rfl, later⟩

/-- Requests that pass the check wherever something holds that strokes keep can all be audited. -/
theorem trace_audited (kept : KeptByStrokes P)
    (passes : ∀ depth r s answer t, Holds list P s →
      (trace behaviour depth r).run s = some (answer, t) → check r s answer)
    (depth : Nat) (r : Request ℓ π κ) :
    InStep (Both (Holds list P)) Any (trace behaviour depth r) (traceAudited check behaviour depth r) := by
  have guards := holds_guards (σ := σ) list kept
  induction depth generalizing r with
  | zero => exact .failure
  | succ depth ih =>
    have acts {α : Type} (action : Action ℓ π κ σ α) := guards.act_inStep () ih action
    refine audited_both ?_ (passes (depth + 1) r)
    exact guards.serve_inStep (i := ()) (fun _ _ => acts _) (fun _ _ _ => acts _)
      (fun other _ _ leads => strikeTraced_both (fun _ _ => acts _) kept other leads) r

theorem act_audited (kept : KeptByStrokes P)
    (passes : ∀ depth r s answer t, Holds list P s →
      (trace behaviour depth r).run s = some (answer, t) → check r s answer)
    {depth : Nat} {action : Action ℓ π κ σ α} {s t : Traced ℓ π κ σ} {a : α} (holds : Holds list P s)
    (run : (actTraced (trace behaviour depth) action).run s = some (a, t)) :
    (actTraced (traceAudited check behaviour depth) action).run s = some (a, t) ∧ Holds list P t := by
  obtain ⟨_, audits, -, rfl, later⟩ := ((holds_guards (σ := σ) list kept).act_inStep ()
    (trace_audited kept passes depth) action).exists_other ⟨rfl, holds⟩ run
  exact ⟨audits, later⟩

end LiveList.Page
