import LiveList.Event.Bus

namespace LiveList.Event.Bus

/-- What happens on a bus. A dispatch is named by the number of marks before its start. -/
inductive Mark (ℓ : Type) where
  | subscribed (registration : Registration ℓ)
  | unsubscribed (id : ListenerId) (removed : Bool)
  | started (kind : Kind)
  | called (dispatch : Nat) (registration : Registration ℓ)
  | returned (dispatch : Nat) (registration : Registration ℓ)
  | finished (dispatch : Nat) (count : Nat)

structure Traced (ℓ σ : Type) where
  bus : Bus ℓ σ
  log : List (Mark ℓ)

abbrev TracedRun (ℓ σ : Type) := StateT (Traced ℓ σ) Option

variable {ℓ σ α β : Type}

def mark (mark : Mark ℓ) : TracedRun ℓ σ Unit :=
  modify fun traced => { traced with log := traced.log ++ [mark] }

def unmarked (run : Run ℓ σ α) : TracedRun ℓ σ α := fun traced =>
  (run.run traced.bus).map fun (a, bus) => (a, { traced with bus })

def traceScript (ask : (r : Request ℓ) → TracedRun ℓ σ (Answer r)) (script : Script ℓ σ α) :
    TracedRun ℓ σ α :=
  script.run (unmarked get)
    (fun change => unmarked (modify fun bus => { bus with user := change bus.user })) ask

def callTraced (ask : (r : Request ℓ) → TracedRun ℓ σ (Answer r)) (dispatch : Nat)
    (registration : Registration ℓ) (script : Script ℓ σ Unit) : TracedRun ℓ σ Unit := do
  mark (.called dispatch registration)
  traceScript ask script
  mark (.returned dispatch registration)

def deliverTraced (ask : (r : Request ℓ) → TracedRun ℓ σ (Answer r)) (dispatch : Nat)
    (script : Registration ℓ → Script ℓ σ Unit) (pending : List (Registration ℓ)) :
    TracedRun ℓ σ Nat :=
  deliver (fun id => unmarked (return (← get).hub.isRegistered id))
    (fun registration => callTraced ask dispatch registration (script registration))
    (pending.map fun registration => (registration.id, registration))

/-- Answers a request as the bus does. Every mark is made when it happens, and the marks of an
answer hold what is answered. -/
def trace (listen : ℓ → Notification → Script ℓ σ Unit) :
    (depth : Nat) → (r : Request ℓ) → TracedRun ℓ σ (Answer r)
  | depth, .subscribe kinds listener => do
    let id ← unmarked (perform listen depth (.subscribe kinds listener))
    mark (.subscribed ⟨id, kinds.eraseDups, listener⟩)
    return id
  | depth, .unsubscribe id => do
    let removed ← unmarked (perform listen depth (.unsubscribe id))
    mark (.unsubscribed id removed)
    return removed
  | 0, .dispatch _ => failure
  | depth + 1, .dispatch notification => do
    let before ← get
    mark (.started notification.kind)
    let count ← deliverTraced (trace listen depth) before.log.length
      (fun registration => listen registration.listener notification)
      (before.bus.hub.registrations.filter (·.kinds.contains notification.kind))
    mark (.finished before.log.length count)
    return count

def Erases (traced : TracedRun ℓ σ α) (run : Run ℓ σ α) : Prop :=
  ∀ state, (traced.run state).map (fun (a, left) => (a, left.bus)) = run.run state.bus

namespace Erases

variable {traced : TracedRun ℓ σ α} {run : Run ℓ σ α}

theorem pure (a : α) : Erases (Pure.pure a : TracedRun ℓ σ α) (Pure.pure a) := fun _ => rfl

theorem unmarked (run : Run ℓ σ α) : Erases (Bus.unmarked run) run := fun state => by
  change ((run.run state.bus).map _).map _ = _
  rw [Option.map_map]
  exact Option.map_id'

theorem bind {next : α → TracedRun ℓ σ β} {next' : α → Run ℓ σ β} (first : Erases traced run)
    (rest : ∀ a, Erases (next a) (next' a)) : Erases (traced >>= next) (run >>= next') := by
  intro state
  rw [StateT.run_bind, StateT.run_bind, ← first state]
  cases traced.run state with
  | none => rfl
  | some ended => exact rest ended.1 ended.2

theorem mark_bind (first : Mark ℓ) (rest : Erases traced run) :
    Erases (mark first >>= fun _ => traced) run := fun _ => rest _

theorem bind_mark (first : Erases traced run) (last : α → Mark ℓ) :
    Erases (traced >>= fun a => mark (last a) >>= fun _ => Pure.pure a) run := by
  have same := first.bind fun a => (pure a).mark_bind (last a)
  rwa [bind_pure] at same

theorem deliver {registered : ListenerId → TracedRun ℓ σ Bool}
    {registered' : ListenerId → Run ℓ σ Bool} (asks : ∀ id, Erases (registered id) (registered' id))
    {κ : Type} {call : κ → TracedRun ℓ σ Unit} {listener : κ → ℓ} (call' : ℓ → Run ℓ σ Unit)
    (calls : ∀ k, Erases (call k) (call' (listener k))) (list : List (ListenerId × κ)) :
    Erases (Event.deliver registered call list)
      (Event.deliver registered' call' (list.map fun (id, k) => (id, listener k))) := by
  induction list with
  | nil => exact pure 0
  | cons first rest ih =>
    refine (asks first.1).bind fun present => ?_
    cases present with
    | true => exact (calls first.2).bind fun _ => ih.bind fun count => pure (count + 1)
    | false => exact ih

theorem script {ask : (r : Request ℓ) → TracedRun ℓ σ (Answer r)}
    {ask' : (r : Request ℓ) → Run ℓ σ (Answer r)} (asks : ∀ r, Erases (ask r) (ask' r))
    (script : Script ℓ σ α) : Erases (traceScript ask script) (runScript ask' script) := by
  induction script with
  | done result => exact pure result
  | look next ih => exact (unmarked get).bind ih
  | note change next ih => exact (unmarked _).bind fun _ => ih
  | ask request next ih => exact (asks request).bind ih

theorem call {ask : (r : Request ℓ) → TracedRun ℓ σ (Answer r)}
    {ask' : (r : Request ℓ) → Run ℓ σ (Answer r)} (asks : ∀ r, Erases (ask r) (ask' r))
    (dispatch : Nat) (registration : Registration ℓ) (script : Script ℓ σ Unit) :
    Erases (callTraced ask dispatch registration script) (runScript ask' script) :=
  ((Erases.script asks script).bind_mark fun _ => .returned dispatch registration).mark_bind
    (.called dispatch registration)

end Erases

theorem trace_erases (listen : ℓ → Notification → Script ℓ σ Unit) (depth : Nat) (r : Request ℓ) :
    Erases (trace listen depth r) (perform listen depth r) := by
  induction depth generalizing r with
  | zero =>
    cases r with
    | subscribe kinds listener => exact (Erases.unmarked _).bind_mark _
    | unsubscribe id => exact (Erases.unmarked _).bind_mark _
    | dispatch notification => exact fun _ => rfl
  | succ depth ih =>
    cases r with
    | subscribe kinds listener => exact (Erases.unmarked _).bind_mark _
    | unsubscribe id => exact (Erases.unmarked _).bind_mark _
    | dispatch notification =>
      -- Both sides look at what they start from, and this is the same but for the log.
      intro before
      have delivers := Erases.deliver
        (fun id => Erases.unmarked (do return (← get).hub.isRegistered id))
        (fun listener => runScript (perform listen depth) (listen listener notification))
        (fun registration => Erases.call ih before.log.length registration
          (listen registration.listener notification))
        ((before.bus.hub.registrations.filter (·.kinds.contains notification.kind)).map
          fun registration => (registration.id, registration))
      have whole := (delivers.bind_mark (.finished before.log.length)).mark_bind
        (.started notification.kind) before
      rw [List.map_map] at whole
      exact whole

end LiveList.Event.Bus
