import LiveList.Proofs.Page.History

namespace LiveList

open Event (Notification)

structure Effect (ℓ π κ : Type) where
  call : Call ℓ π κ
  entry : Entry
  said : Option Notification

def Effect.deed {ℓ π κ : Type} (effect : Effect ℓ π κ) : Call ℓ π κ × Entry :=
  (effect.call, effect.entry)

def Stroke.effect {ℓ π κ : Type} (stroke : Stroke) (call : Call ℓ π κ) (result : stroke.Result) :
    Option (Effect ℓ π κ) :=
  (stroke.line result).map fun entry => ⟨call, entry, stroke.said result⟩

/-- The records are those of a collection that has been changed, under indices that are never given
again. -/
structure Collection.Succeeds (c c' : Collection) : Prop where
  sound : c'.Sound
  next : c.next ≤ c'.next
  gone : ∀ index < c.next, c.get? index = none → c'.get? index = none

namespace Collection

variable {c c' c'' : Collection}

theorem Succeeds.refl (sound : c.Sound) : c.Succeeds c := ⟨sound, Nat.le_refl _, fun _ _ => id⟩

theorem Succeeds.trans (first : c.Succeeds c') (second : c'.Succeeds c'') : c.Succeeds c'' where
  sound := second.sound
  next := first.next.trans second.next
  gone index below none :=
    second.gone index (Nat.lt_of_lt_of_le below first.next) (first.gone index below none)

theorem Gains.succeeds {records : List Record} (gains : c.Gains records c') : c.Succeeds c' where
  sound := gains.sound
  next := by
    rw [gains.next]
    exact Nat.le_add_right _ _
  gone index below none := by
    rw [gains.get?, if_neg (Nat.not_le.2 below), none]
    rfl

end Collection

def Entry.Idle : Entry → Prop
  | .filtered _ | .updated | .registered _ => True
  | _ => False

namespace Deed

variable {model : Model} {c c' : Collection} {stroke : Stroke} {entry : Entry}
  {said : Option Notification}

theorem succeeds (deed : Deed model c stroke entry said c') (sound : c.Sound) : c.Succeeds c' := by
  have sound' := deed.sound sound
  cases deed with
  | insert record place => exact (sound.gains_added place record).succeeds
  | insertAll created => exact (sound.gains_addedAll _).succeeds
  | @remove index record held =>
    refine ⟨sound', Nat.le_refl _, fun other _ none => ?_⟩
    rw [Collection.get?_remove]
    split
    · rfl
    · exact none
  | removeAll => exact ⟨sound', Nat.le_refl _, fun _ _ _ => rfl⟩
  | @edit index fields record updated held run =>
    refine ⟨sound', Nat.le_of_eq (Collection.next_replace ..).symm, fun other _ none => ?_⟩
    have inside := Collection.mem_indices.2 ⟨record, held⟩
    rw [Collection.get?_replace inside]
    split
    case isTrue same =>
      subst same
      cases held.symm.trans none
    case isFalse => exact none
  | showOnly | updateView | addFilter => exact .refl sound
  | arrange order brought | sort brought =>
    exact ⟨sound', Nat.le_refl _, fun index _ none =>
      (Collection.get?_reorder sound brought index).trans none⟩

theorem eq_of_idle (deed : Deed model c stroke entry said c') (idle : entry.Idle) : c' = c := by
  cases deed with
  | showOnly | updateView | addFilter => rfl
  | _ => exact idle.elim

end Deed

namespace Page

variable {ℓ π κ σ : Type} {list : Nat}

def effects (list : Nat) (log : List (Mark ℓ π κ σ)) : List (Effect ℓ π κ) :=
  log.filterMap fun
    | .took other call entry said => if other = list then some ⟨call, entry, said⟩ else none
    | _ => none

@[simp] theorem effects_append (log more : List (Mark ℓ π κ σ)) :
    effects list (log ++ more) = effects list log ++ effects list more := List.filterMap_append

theorem effects_marksOf (other : Nat) (call : Call ℓ π κ) (stroke : Stroke) (result : stroke.Result) :
    effects list (marksOf other call stroke result : List (Mark ℓ π κ σ)) =
      if other = list then (stroke.effect call result).toList else [] := by
  rw [marksOf, Stroke.effect]
  cases stroke.line result <;> by_cases same : other = list <;> simp [effects, same]

variable {P : List (Effect ℓ π κ) → ListView → Prop}

def KeptByStrokes (P : List (Effect ℓ π κ) → ListView → Prop) : Prop :=
  ∀ history (call : Call ℓ π κ) (stroke : Stroke) view d result left,
    call.Leads (fun _ => True) stroke → stroke.change.on ⟨view, d⟩ = (result, left) → P history view →
      P (history ++ (stroke.effect call result).toList) left.view

def Holds (list : Nat) (P : List (Effect ℓ π κ) → ListView → Prop) (s : Traced ℓ π κ σ) : Prop :=
  ∃ mounted, s.page.list? list = some mounted ∧ P (effects list s.log) mounted.view

variable {s : Traced ℓ π κ σ}

theorem Holds.modifyList (holds : Holds list P s) {other : Nat} {f : Mounted ℓ → Mounted ℓ}
    (view : ∀ mounted, (f mounted).view = mounted.view) :
    Holds list P { s with page := s.page.modifyList other f } := by
  obtain ⟨mounted, there, holds⟩ := holds
  by_cases same : other = list
  · subst same
    exact ⟨f mounted, list?_modifyList_self there f, (view mounted).symm ▸ holds⟩
  · exact ⟨mounted, (list?_modifyList_of_ne same f).trans there, holds⟩

theorem Holds.marked (holds : Holds list P s) {mark : Mark ℓ π κ σ}
    (none : effects list [mark] = []) : Holds list P { s with log := s.log ++ [mark] } := by
  obtain ⟨mounted, there, holds⟩ := holds
  refine ⟨mounted, there, ?_⟩
  rwa [effects_append, none, List.append_nil]

theorem Holds.struck (holds : Holds list P s) (kept : KeptByStrokes P) {other : Nat}
    {call : Call ℓ π κ} {stroke : Stroke} (leads : call.Leads (fun _ => True) stroke)
    {mounted : Mounted ℓ} {scene : Scene} {result : stroke.Result}
    (there : s.page.list? other = some mounted)
    (run : stroke.change.on ⟨mounted.view, s.page.document⟩ = (result, scene)) :
    Holds list P ⟨Page.struck s.page other stroke result scene,
      s.log ++ marksOf other call stroke result⟩ := by
  obtain ⟨own, there', holds⟩ := holds
  unfold Holds
  simp only [effects_append, effects_marksOf]
  by_cases same : other = list
  · subst same
    cases there.symm.trans there'
    rw [if_pos rfl]
    exact ⟨_, list?_modifyList_self there _, kept _ call stroke _ _ _ _ leads run holds⟩
  · rw [if_neg same, List.append_nil]
    exact ⟨own, (list?_modifyList_of_ne same _).trans there', holds⟩

theorem holds_guards (list : Nat) (kept : KeptByStrokes P) :
    Guards (ℓ := ℓ) (π := π) (κ := κ) (σ := σ) (fun _ _ => True) fun _ : Unit => Holds list P where
  model _ _ _ _ _ _ := trivial
  user _ _ _ holds := holds
  document _ _ _ holds := holds
  state _ _ _ _ view _ holds := holds.modifyList view
  subscribe _ s other mounted kinds listener _ holds := by
    have turned : Holds list P { s with page := s.page.modifyList other fun m =>
        { m with hub := (mounted.hub.subscribe kinds listener).1 } } := holds.modifyList fun _ => rfl
    exact turned.marked rfl
  unsubscribe _ _ _ _ _ _ holds := holds.modifyList fun _ => rfl
  strike _ listen _ _ _ _ leads :=
    strikeTraced_preserves (fun _ _ _ _ holds there run => holds.struck kept leads there run)
      (fun _ _ _ holds => holds.marked rfl) (fun _ _ _ holds => holds.marked rfl) (listen ())

def Grows (past : List (Mark ℓ π κ σ)) (log : List (Mark ℓ π κ σ)) : Prop :=
  ∃ part, log = past ++ part ∧ ∀ start, .returned start ∈ part → past.length ≤ start

variable {past log : List (Mark ℓ π κ σ)}

theorem Grows.length_le (grows : Grows past log) : past.length ≤ log.length := by
  obtain ⟨part, rfl, -⟩ := grows
  rw [List.length_append]
  exact Nat.le_add_right _ _

theorem Grows.append (grows : Grows past log) {more : List (Mark ℓ π κ σ)}
    (returns : ∀ start, .returned start ∈ more → past.length ≤ start) : Grows past (log ++ more) := by
  obtain ⟨part, rfl, before⟩ := grows
  refine ⟨part ++ more, List.append_assoc .., fun start inside => ?_⟩
  exact (List.mem_append.1 inside).elim (before start) (returns start)

theorem Grows.refl (log : List (Mark ℓ π κ σ)) : Grows log log :=
  ⟨[], (List.append_nil _).symm, fun _ => nofun⟩

theorem grows_guards : Guards (ℓ := ℓ) (π := π) (κ := κ) (σ := σ) (fun _ _ => True)
    fun past s => Grows past s.log where
  model _ _ _ _ _ _ := trivial
  user _ _ _ grows := grows
  document _ _ _ grows := grows
  state _ _ _ _ _ _ grows := grows
  subscribe _ _ _ _ _ _ _ grows := grows.append (by simp)
  unsubscribe _ _ _ _ _ _ grows := grows
  strike callbacks listen past list call stroke _ := by
    refine strikeTraced_preserves (fun s _ result _ grows _ _ => grows.append fun start inside => ?_)
      (fun _ _ _ grows => grows.append (by simp))
      (fun s mid before grows => grows.append fun start inside => ?_) (listen past)
    · exact absurd inside (returned_notMem_marksOf list call stroke result start)
    · cases List.mem_singleton.1 inside
      exact before.length_le

end Page

end LiveList
