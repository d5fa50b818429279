import LiveList.Proofs.Page.Stroke

/-!
# Coupled answers

A coupling relates runs in one monad to runs in another, so that runs which are put together from
coupled ones in the same way are coupled. Main statement: so are answers, if the strokes are that they
are put together from, the looks at the list and the callbacks.
-/

namespace LiveList.Page

open Event (ListenerId)
open Json (Value)

/-- Runs in two monads are related, with what is expected of the results. -/
structure Coupling (m m' : Type → Type) [Monad m] [Monad m'] where
  couples : {α : Type} → (α → Prop) → m α → m' α → Prop
  pure : ∀ {α : Type} {expected : α → Prop} {a : α}, expected a →
    couples expected (Pure.pure a) (Pure.pure a)
  bind : ∀ {α β : Type} {expected : α → Prop} {final : β → Prop} {run : m α} {other : m' α}
    {next : α → m β} {next' : α → m' β}, couples expected run other →
    (∀ a, expected a → couples final (next a) (next' a)) →
    couples final (run >>= next) (other >>= next')

def Any {α : Type} (_ : α) : Prop := True

namespace Coupling

variable {m m' : Type → Type} [Monad m] [Monad m'] (coupling : Coupling m m')

theorem map {α β : Type} {expected : α → Prop} {final : β → Prop} {run : m α} {other : m' α}
    (coupled : coupling.couples expected run other) (f : α → β)
    (gives : ∀ a, expected a → final (f a)) :
    coupling.couples final (do return f (← run)) (do return f (← other)) :=
  coupling.bind coupled fun a holds => coupling.pure (gives a holds)

theorem mapM [LawfulMonad m] [LawfulMonad m'] {α β : Type} {f : α → m β} {f' : α → m' β}
    (items : List α) (each : ∀ item ∈ items, coupling.couples Any (f item) (f' item)) :
    coupling.couples Any (items.mapM f) (items.mapM f') := by
  induction items with
  | nil =>
    rw [List.mapM_nil, List.mapM_nil]
    exact coupling.pure trivial
  | cons item rest ih =>
    have later := ih fun other inside => each other (List.mem_cons_of_mem _ inside)
    rw [List.mapM_cons, List.mapM_cons]
    exact coupling.bind (each item List.mem_cons_self) fun _ _ =>
      coupling.bind later fun _ _ => coupling.pure trivial

theorem select {test : Value → m Bool} {test' : Value → m' Bool}
    (tests : ∀ value, coupling.couples Any (test value) (test' value)) (values : List Value) :
    coupling.couples Any (select test values) (select test' values) := by
  induction values with
  | nil => exact coupling.pure trivial
  | cons value rest ih =>
    exact coupling.bind (tests value) fun passes _ => coupling.bind ih fun more _ =>
      coupling.pure trivial

section

variable {compare : Value → Value → m Ordering} {compare' : Value → Value → m' Ordering}
  (compares : ∀ x y, coupling.couples Any (compare x y) (compare' x y))
include compares

theorem insertSorted (value : Value) (values : List Value) :
    coupling.couples Any (insertSorted compare value values) (insertSorted compare' value values) := by
  induction values with
  | nil => exact coupling.pure trivial
  | cons next rest ih =>
    refine coupling.bind (compares value next) fun order _ => ?_
    split
    · exact coupling.bind ih fun sorted _ => coupling.pure trivial
    · exact coupling.pure trivial

theorem sortValues (values : List Value) :
    coupling.couples Any (sortValues compare values) (sortValues compare' values) := by
  induction values with
  | nil => exact coupling.pure trivial
  | cons value rest ih =>
    exact coupling.bind ih fun sorted _ => coupling.insertSorted compares value sorted

end

theorem deliver {κ κ' : Type} {registered : ListenerId → m Bool} {registered' : ListenerId → m' Bool}
    (call : κ → m Unit) (call' : κ' → m' Unit) (as : κ → κ')
    (asks : ∀ id, coupling.couples Any (registered id) (registered' id))
    (snapshot : List (ListenerId × κ))
    (calls : ∀ id k, (id, k) ∈ snapshot → coupling.couples Any (call k) (call' (as k))) :
    coupling.couples Any (Event.deliver registered call snapshot)
      (Event.deliver registered' call' (snapshot.map fun entry => (entry.1, as entry.2))) := by
  induction snapshot with
  | nil => exact coupling.pure trivial
  | cons entry rest ih =>
    have later := ih fun id k inside => calls id k (List.mem_cons_of_mem _ inside)
    refine coupling.bind (asks entry.1) fun present _ => ?_
    cases present with
    | true =>
      exact coupling.bind (calls entry.1 entry.2 List.mem_cons_self) fun _ _ =>
        coupling.bind later fun _ _ => coupling.pure trivial
    | false => exact later

end Coupling

structure Parts.Coupled {m m' : Type → Type} [Monad m] [Monad m'] {ℓ π κ : Type}
    (coupling : Coupling m m') (known : Model → Prop) (parts : Parts m ℓ π κ) (other : Parts m' ℓ π κ)
    (call : Call ℓ π κ) : Prop where
  model : coupling.couples known parts.model other.model
  collection : coupling.couples Any parts.collection other.collection
  lines : ∀ test, call = .filter test → coupling.couples Any parts.lines other.lines
  test : ∀ test, call = .filter test → ∀ value,
    coupling.couples Any (parts.test test value) (other.test test value)
  compare : ∀ order, call = .sortBy order → ∀ x y,
    coupling.couples Any (parts.compare order x y) (other.compare order x y)
  strike : ∀ stroke, call.Leads known stroke →
    coupling.couples Any (parts.strike stroke) (other.strike stroke)
  subscribe : ∀ kinds listener, call = .subscribe kinds listener →
    coupling.couples Any (parts.subscribe kinds listener) (other.subscribe kinds listener)

namespace Parts

variable {m m' : Type → Type} [Monad m] [Monad m'] {ℓ π κ : Type} {coupling : Coupling m m'}
  {known : Model → Prop} {parts : Parts m ℓ π κ} {other : Parts m' ℓ π κ} {call : Call ℓ π κ}

theorem insertData_coupled {place : Place} {data : Value}
    (model : coupling.couples known parts.model other.model)
    (strike : data.isTruthy → ∀ model record, known model → model.create data = .ok record →
      coupling.couples Any (parts.strike (.insert record place))
        (other.strike (.insert record place))) :
    coupling.couples Any (parts.insertData place data) (other.insertData place data) := by
  unfold insertData
  by_cases given : data.isTruthy = true
  · rw [if_neg (by simp [given]), if_neg (by simp [given])]
    refine coupling.bind model fun model known => ?_
    cases created : model.create data with
    | error cause => exact coupling.pure trivial
    | ok record => exact coupling.map (strike given model record known created) _ fun _ _ => trivial
  · rw [if_pos (by simp [given]), if_pos (by simp [given])]
    exact coupling.pure trivial

theorem removeEach_coupled
    (strike : ∀ index,
      coupling.couples Any (parts.strike (.remove index)) (other.strike (.remove index)))
    (indices : List Nat) :
    coupling.couples Any (parts.removeEach indices) (other.removeEach indices) := by
  induction indices with
  | nil => exact coupling.pure trivial
  | cons index rest ih =>
    exact coupling.bind (strike index) fun removed _ => coupling.map ih _ fun _ _ => trivial

theorem answer_coupled (coupled : Coupled coupling known parts other call) :
    coupling.couples Any (parts.answer call) (other.answer call) := by
  obtain ⟨model, collection, lines, test, compare, strike, subscribe⟩ := coupled
  cases call with
  | push data =>
    exact insertData_coupled model fun given _ _ isKnown created =>
      strike _ (.push given isKnown created)
  | unshift data =>
    exact insertData_coupled model fun given _ _ isKnown created =>
      strike _ (.unshift given isKnown created)
  | pushRecord record =>
    refine coupling.bind model fun model _ => ?_
    split
    · exact coupling.map (strike _ (.pushRecord record)) _ fun _ _ => trivial
    · exact coupling.pure trivial
  | pushAll items => exact coupling.map (strike _ (.pushAll items)) _ fun _ _ => trivial
  | remove index => exact strike _ (.remove index)
  | removeAll => exact strike _ .removeAll
  | edit index fields => exact strike _ (.edit index fields)
  | filter asked =>
    exact coupling.bind (lines asked rfl) fun since _ => coupling.bind collection fun c _ =>
      coupling.bind (coupling.select (test asked rfl) c.json) fun matched _ =>
        strike _ (.filter asked since matched)
  | sort => exact strike _ .sort
  | sortBy order =>
    exact coupling.bind collection fun c _ =>
      coupling.bind (coupling.sortValues (compare order rfl) c.json) fun sorted _ =>
        strike _ (.sortBy order _)
  | updateView => exact strike _ .updateView
  | removeByFields fields =>
    cases fields with
    | object fields =>
      exact coupling.bind collection fun c _ => coupling.map
        (removeEach_coupled (fun index => strike _ (.removeByFields _ index)) _) _ fun _ _ => trivial
    | _ => exact coupling.pure trivial
  | addFilter name filter => exact strike _ (.addFilter name filter)
  | subscribe kinds listener => exact subscribe kinds listener rfl

end Parts

end LiveList.Page
