import LiveList.Proofs.Page.Coupling
import LiveList.Proofs.Page.Course
import Mathlib.Data.Option.Basic

namespace LiveList.Event.Script

variable {World State Request : Type} {Answer : Request → Type} {α : Type}

def Minds (alike : World → World → Prop) (fine : (State → State) → Prop)
    (allowed : Request → Prop) : Script World State Request Answer α → Prop
  | .done _ => True
  | .look next => (∀ world, (next world).Minds alike fine allowed) ∧
      ∀ world other, alike world other → next world = next other
  | .note change next => fine change ∧ next.Minds alike fine allowed
  | .ask request next => allowed request ∧ ∀ answer, (next answer).Minds alike fine allowed

theorem minds_any (script : Script World State Request Answer α) :
    script.Minds Eq (fun _ => True) fun _ => True := by
  induction script with
  | done result => trivial
  | look next ih => exact ⟨ih, fun _ _ same => congrArg next same⟩
  | note change next ih => exact ⟨trivial, ih⟩
  | ask request next ih => exact ⟨trivial, ih⟩

end LiveList.Event.Script

namespace LiveList.Page

open Event (ListenerId Notification Script)
open Json (Value)

variable {S S' : Type} {R : S → S' → Prop} {α β : Type} {expected : α → Prop}

def InStep (R : S → S' → Prop) (expected : α → Prop) (run : StateT S Option α)
    (other : StateT S' Option α) : Prop :=
  ∀ s s', R s s' → Option.Rel (fun ended ended' => ended.1 = ended'.1 ∧ expected ended.1 ∧
    R ended.2 ended'.2) (run.run s) (other.run s')

namespace InStep

variable {run : StateT S Option α} {other : StateT S' Option α}

theorem pure {a : α} (holds : expected a) : InStep R expected (pure a) (Pure.pure a) :=
  fun _ _ related => .some ⟨rfl, holds, related⟩

theorem failure : InStep R expected failure failure := fun _ _ _ => .none

theorem bind {next : α → StateT S Option β} {next' : α → StateT S' Option β} {final : β → Prop}
    (first : InStep R expected run other)
    (rest : ∀ a, expected a → InStep R final (next a) (next' a)) :
    InStep R final (run >>= next) (other >>= next') := by
  intro s s' related
  rw [StateT.run_bind, StateT.run_bind]
  have began := first s s' related
  generalize run.run s = ended, other.run s' = ended' at began
  cases began with
  | none => exact .none
  | @some left right same =>
    obtain ⟨a, t⟩ := left
    obtain ⟨b, t'⟩ := right
    obtain ⟨rfl, holds, later⟩ := same
    exact rest a holds t t' later

theorem map {final : β → Prop} (inStep : InStep R expected run other) (f : α → β)
    (gives : ∀ a, expected a → final (f a)) :
    InStep R final (do return f (← run)) (do return f (← other)) :=
  inStep.bind fun a holds => .pure (gives a holds)

theorem modify {f : S → S} {f' : S' → S'} (keeps : ∀ s s', R s s' → R (f s) (f' s')) :
    InStep R Any (modify f) (modify f') :=
  fun s s' related => .some ⟨rfl, trivial, keeps s s' related⟩

theorem exists_other (inStep : InStep R expected run other) {s : S} {s' : S'} (related : R s s')
    {a : α} {t : S} (ends : run.run s = some (a, t)) :
    ∃ t', other.run s' = some (a, t') ∧ expected a ∧ R t t' := by
  have both := inStep s s' related
  rw [ends] at both
  generalize other.run s' = ended' at both
  cases both with
  | @some _ right same =>
    obtain ⟨b, t'⟩ := right
    obtain ⟨rfl, holds, later⟩ := same
    exact ⟨t', rfl, holds, later⟩

theorem exists_run (inStep : InStep R expected run other) {s : S} {s' : S'} (related : R s s')
    {a : α} {t' : S'} (ends : other.run s' = some (a, t')) :
    ∃ t, run.run s = some (a, t) ∧ expected a ∧ R t t' := by
  have both := inStep s s' related
  rw [ends] at both
  generalize run.run s = ended at both
  cases both with
  | @some left _ same =>
    obtain ⟨b, t⟩ := left
    obtain ⟨rfl, holds, later⟩ := same
    exact ⟨t, rfl, holds, later⟩

end InStep

def Preserves (good : S → Prop) (run : StateT S Option α) : Prop :=
  ∀ s, good s → ∀ a t, run.run s = some (a, t) → good t

def Both (good : S → Prop) (s s' : S) : Prop := s = s' ∧ good s

theorem inStep_both {good : S → Prop} {run : StateT S Option α} :
    InStep (Both good) Any run run ↔ Preserves good run := by
  constructor
  · intro inStep s holds a t ends
    obtain ⟨t', -, -, same, later⟩ := inStep.exists_other ⟨rfl, holds⟩ ends
    exact later
  · rintro preserves s _ ⟨rfl, holds⟩
    cases ends : run.run s with
    | none => exact .none
    | some ended => exact .some ⟨rfl, trivial, rfl, preserves s holds _ _ ends⟩

def lockstep (R : S → S' → Prop) : Coupling (StateT S Option) (StateT S' Option) :=
  ⟨InStep R, .pure, .bind⟩

section

variable {R : S → S' → Prop}

theorem deliver_inStep {κ κ' : Type} {registered : ListenerId → StateT S Option Bool}
    {registered' : ListenerId → StateT S' Option Bool} (call : κ → StateT S Option Unit)
    (call' : κ' → StateT S' Option Unit) (as : κ → κ')
    (asks : ∀ id, InStep R Any (registered id) (registered' id))
    (snapshot : List (ListenerId × κ))
    (calls : ∀ id k, (id, k) ∈ snapshot → InStep R Any (call k) (call' (as k))) :
    InStep R Any (Event.deliver registered call snapshot)
      (Event.deliver registered' call' (snapshot.map fun entry => (entry.1, as entry.2))) :=
  (lockstep R).deliver call call' as asks snapshot calls

theorem script_inStep {World State Request : Type} {Answer : Request → Type}
    {look : StateT S Option World} {look' : StateT S' Option World}
    {note : (State → State) → StateT S Option Unit} {note' : (State → State) → StateT S' Option Unit}
    {ask : (r : Request) → StateT S Option (Answer r)}
    {ask' : (r : Request) → StateT S' Option (Answer r)} {alike : World → World → Prop}
    {fine : (State → State) → Prop} {allowed : Request → Prop}
    (looks : ∀ s s', R s s' → ∃ world other, look.run s = some (world, s) ∧
      look'.run s' = some (other, s') ∧ alike world other)
    (notes : ∀ change, fine change → InStep R Any (note change) (note' change))
    (asks : ∀ request, allowed request → InStep R Any (ask request) (ask' request))
    (script : Script World State Request Answer α) (minds : script.Minds alike fine allowed) :
    InStep R Any (script.run look note ask) (script.run look' note' ask') := by
  induction script with
  | done result => exact .pure trivial
  | look next ih =>
    intro s s' related
    obtain ⟨world, other, looked, looked', same⟩ := looks s s' related
    have later := ih world (minds.1 world) s s' related
    rw [Script.run, StateT.run_bind, looked, Script.run, StateT.run_bind, looked']
    simpa only [Option.bind_eq_bind, Option.bind_some, ← minds.2 world other same] using later
  | note change next ih => exact (notes change minds.1).bind fun _ _ => ih minds.2
  | ask request next ih => exact (asks request minds.1).bind fun answer _ => ih answer (minds.2 answer)

end

structure Parts.InStep {ℓ π κ : Type} (R : S → S' → Prop) (known : Model → Prop)
    (parts : Parts (StateT S Option) ℓ π κ) (other : Parts (StateT S' Option) ℓ π κ)
    (call : Call ℓ π κ) : Prop where
  model : Page.InStep R known parts.model other.model
  collection : Page.InStep R Any parts.collection other.collection
  lines : Page.InStep R Any parts.lines other.lines
  test : ∀ test, call = .filter test → ∀ value,
    Page.InStep R Any (parts.test test value) (other.test test value)
  compare : ∀ order, call = .sortBy order → ∀ x y,
    Page.InStep R Any (parts.compare order x y) (other.compare order x y)
  strike : ∀ stroke, call.Leads known stroke →
    Page.InStep R Any (parts.strike stroke) (other.strike stroke)
  subscribe : ∀ kinds listener, call = .subscribe kinds listener →
    Page.InStep R Any (parts.subscribe kinds listener) (other.subscribe kinds listener)

theorem Parts.answer_inStep {ℓ π κ : Type} {known : Model → Prop}
    {parts : Parts (StateT S Option) ℓ π κ} {other : Parts (StateT S' Option) ℓ π κ}
    {call : Call ℓ π κ} (inStep : Parts.InStep R known parts other call) :
    Page.InStep R Any (parts.answer call) (other.answer call) :=
  Parts.answer_coupled (⟨inStep.model, inStep.collection, fun _ _ => inStep.lines, inStep.test,
    inStep.compare, inStep.strike, inStep.subscribe⟩ : Parts.Coupled (lockstep R) known parts other call)

end LiveList.Page
