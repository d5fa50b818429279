import LiveList.Proofs.Page.Failure
import LiveList.Proofs.Page.Stroke

namespace LiveList

open Event (Notification)
open Json (Value)

def Call.Idle {ℓ π κ : Type} (call : Call ℓ π κ) (answer : call.Answer) : Prop :=
  (∃ cause, call.failure? answer = some cause) ∨ match call, answer with
    | .push _, result | .unshift _, result => result = .ok none
    | .edit .., result => result = .ok none
    | .remove _, removed => removed = none
    | .removeByFields _, result => result = .ok []
    | _, _ => False

namespace Page

variable {ℓ π κ σ α β : Type}

def Agrees (answers : α → Prop) (run other : Run ℓ σ α) : Prop :=
  ∀ page a left, run.run page = some (a, left) → answers a → other.run page = some (a, left)

namespace Agrees

variable {answers : α → Prop} {run other : Run ℓ σ α}

theorem refl (run : Run ℓ σ α) : Agrees answers run run := fun _ _ _ ends _ => ends

theorem mono {more : α → Prop} (agrees : Agrees more run other) (only : ∀ a, answers a → more a) :
    Agrees answers run other :=
  fun page a left ends isOne => agrees page a left ends (only a isOne)

theorem bind {middle : β → Prop} {first first' : Run ℓ σ β} {next next' : β → Run ℓ σ α}
    (agrees : Agrees middle first first')
    (only : ∀ b page a left, (next b).run page = some (a, left) → answers a → middle b)
    (rest : ∀ b, middle b → Agrees answers (next b) (next' b)) :
    Agrees answers (first >>= next) (first' >>= next') := by
  intro page a left ends isOne
  rw [StateT.run_bind] at ends ⊢
  obtain ⟨⟨b, mid⟩, began, ends⟩ := Option.bind_eq_some_iff.1 ends
  have isMiddle := only b mid a left ends isOne
  exact Option.bind_eq_some_iff.2
    ⟨_, agrees page b mid began isMiddle, rest b isMiddle mid a left ends isOne⟩

theorem same {first : Run ℓ σ β} {next next' : β → Run ℓ σ α}
    (rest : ∀ b, Agrees answers (next b) (next' b)) :
    Agrees answers (first >>= next) (first >>= next') :=
  .bind (.refl first) (fun _ _ _ _ _ _ => trivial) fun b (_ : True) => rest b

theorem map {middle : β → Prop} {first first' : Run ℓ σ β} (agrees : Agrees middle first first')
    (f : β → α) (only : ∀ b, answers (f b) → middle b) :
    Agrees answers (do return f (← first)) (do return f (← first')) := by
  refine .bind agrees ?_ fun _ _ => .refl _
  rintro b page _ _ ⟨⟩ isOne
  exact only b isOne

end Agrees

section

variable (callbacks : Callbacks (Run ℓ σ) ℓ π κ) (listen : ℓ → Notification → Run ℓ σ Unit)
  (list : Nat)

theorem strike_agrees (stroke : Stroke) : Agrees (fun result => stroke.said result = none)
    (strike callbacks list stroke) (strike { callbacks with listen } list stroke) := by
  refine .bind (.refl _) ?_ fun result (silent : stroke.said result = none) => ?_
  · intro result page a left ends isSilent
    cases said : stroke.said result with
    | none => rfl
    | some notification =>
      rw [said] at ends
      obtain ⟨⟨_, _⟩, -, ends⟩ := Option.bind_eq_some_iff.1 ends
      cases ends
      exact said.symm.trans isSilent
  · rw [silent]
    exact .refl _

theorem insertData_agrees (place : Place) (data : Value) :
    Agrees (fun result : Except Error (Option Nat) => IsError result ∨ result = .ok none)
      ((parts callbacks list).insertData place data)
      ((parts { callbacks with listen } list).insertData place data) := by
  unfold Parts.insertData
  split
  · exact .refl _
  · refine .same fun model => ?_
    cases model.create data with
    | error cause => exact .refl _
    | ok record =>
      refine (strike_agrees callbacks listen list (.insert record place)).map _ fun result answered => ?_
      cases result with
      | error cause => rfl
      | ok added =>
        rcases answered with (isError | ⟨⟨⟩⟩)
        exact absurd isError (not_isError_ok _)

theorem removeEach_agrees (indices : List Nat) : Agrees (· = [])
    ((parts callbacks list).removeEach indices)
    ((parts { callbacks with listen } list).removeEach indices) := by
  induction indices with
  | nil => exact .refl _
  | cons index rest ih =>
    refine .bind (strike_agrees callbacks listen list (.remove index)) ?_ fun removed _ =>
      ih.map _ fun _ none => (List.append_eq_nil_iff.1 none).2
    intro removed page values left ends none
    rw [StateT.run_bind] at ends
    obtain ⟨⟨others, _⟩, -, ends⟩ := Option.bind_eq_some_iff.1 ends
    cases ends
    cases removed with
    | none => rfl
    | some value => cases none

theorem answer_agrees (call : Call ℓ π κ) : Agrees call.Idle
    (answer callbacks list call) (answer { callbacks with listen } list call) := by
  rw [answer_eq, answer_eq]
  have strikes := strike_agrees callbacks listen list
  cases call with
  | push data | unshift data => exact insertData_agrees callbacks listen list _ data
  | pushRecord record =>
    refine .same fun model => ?_
    split
    · refine (strikes (.insert record .back)).map _ fun result idle => ?_
      rcases result with cause | added
      · rfl
      · exact absurd (idle.resolve_right nofun) (not_isError_ok added.1)
    · exact .refl _
  | pushAll items =>
    refine (strikes (.insertAll items)).map _ fun result idle => ?_
    rcases result with cause | added
    · rfl
    · exact absurd (idle.resolve_right nofun) (not_isError_ok added.1)
  | remove index =>
    refine (strikes (.remove index)).mono fun removed idle => ?_
    rcases idle with (⟨_, failed⟩ | rfl)
    · exact nomatch failed
    · rfl
  | edit index fields =>
    refine (strikes (.edit index fields)).mono fun result idle => ?_
    rcases result with cause | _ | updated
    · rfl
    · rfl
    · exact absurd (idle.resolve_right nofun) (not_isError_ok (some updated))
  | filter test =>
    refine .same fun since => .same fun c => .same fun matched =>
      (strikes (.showOnly since matched)).mono fun result idle => ?_
    rcases result with cause | values
    · rfl
    · exact absurd (idle.resolve_right nofun) (not_isError_ok values)
  | sort =>
    refine (strikes .sort).mono fun result idle => ?_
    rcases result with cause | values
    · rfl
    · exact absurd (idle.resolve_right nofun) (not_isError_ok values)
  | sortBy order =>
    refine .same fun c => .same fun sorted => (strikes (.arrange _)).mono fun result idle => ?_
    rcases result with cause | values
    · rfl
    · exact absurd (idle.resolve_right nofun) (not_isError_ok values)
  | updateView => exact (strikes .updateView).mono fun result idle => rfl
  | removeByFields fields =>
    cases fields with
    | object fields =>
      refine .same fun c => (removeEach_agrees callbacks listen list _).map _ fun values idle => ?_
      rcases idle with (failed | idle)
      · exact absurd failed (not_isError_ok values)
      · exact Except.ok.inj idle
    | _ => exact .refl _
  | addFilter name filter => exact (strikes (.addFilter name filter)).mono fun result idle => rfl
  | removeAll => exact fun _ _ _ _ idle => nomatch idle
  | subscribe kinds listener => exact fun _ _ _ _ idle => nomatch idle

theorem serve_agrees (call : Call ℓ π κ) : Agrees (fun a => ∃ answer, a = some answer ∧ call.Idle answer)
    (serve callbacks (.call list call)) (serve { callbacks with listen } (.call list call)) := by
  refine .same fun page => ?_
  cases page.held? list with
  | none => exact .refl _
  | some mounted =>
    refine Agrees.map (?_ : Agrees call.Idle _ _) _ ?_
    · refine .same fun _ => .bind (answer_agrees callbacks listen list call) ?_ fun a _ => .refl _
      intro a page b left ends idle
      rw [StateT.run_bind] at ends
      obtain ⟨⟨_, _⟩, -, ends⟩ := Option.bind_eq_some_iff.1 ends
      cases ends
      exact idle
    · rintro answer ⟨_, same, idle⟩
      cases same
      exact idle

end

end Page

end LiveList
