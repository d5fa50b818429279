import Mathlib.Data.List.Forall2

namespace LiveList

section

variable {ε α β : Type} {outcome : Except ε α}

theorem map_eq_ok {f : α → β} {b : β} : outcome.map f = .ok b ↔ ∃ a, outcome = .ok a ∧ f a = b := by
  cases outcome <;> simp [Except.map]

theorem map_eq_error {f : α → β} {cause : ε} :
    outcome.map f = .error cause ↔ outcome = .error cause := by
  cases outcome <;> simp [Except.map]

theorem bind_eq_ok {next : α → Except ε β} {b : β} :
    (outcome >>= next) = .ok b ↔ ∃ a, outcome = .ok a ∧ next a = .ok b := by
  cases outcome <;> simp [bind, Except.bind]

theorem bind_eq_error {next : α → Except ε β} {cause : ε} : (outcome >>= next) = .error cause ↔
    outcome = .error cause ∨ ∃ a, outcome = .ok a ∧ next a = .error cause := by
  cases outcome <;> simp [bind, Except.bind]

theorem toOption_eq_some {a : α} : outcome.toOption = some a ↔ outcome = .ok a := by
  cases outcome <;> simp [Except.toOption]

theorem exists_error_iff : (∃ cause, outcome = .error cause) ↔ ¬ ∃ a, outcome = .ok a := by
  cases outcome <;> simp

end

theorem mapM_eq_ok {ε α β : Type} {f : α → Except ε β} {list : List α} {results : List β} :
    list.mapM f = .ok results ↔ List.Forall₂ (fun item result => f item = .ok result) list results := by
  induction list generalizing results with
  | nil => simp [pure, Except.pure, eq_comm]
  | cons first rest ih =>
    simp only [List.mapM_cons, bind_eq_ok, ih, List.forall₂_cons_left_iff]
    constructor
    · rintro ⟨value, made, values, others, same⟩
      cases same
      exact ⟨value, values, made, others, rfl⟩
    · rintro ⟨value, values, made, others, rfl⟩
      exact ⟨value, made, values, others, rfl⟩

end LiveList
