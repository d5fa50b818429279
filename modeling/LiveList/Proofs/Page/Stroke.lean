import LiveList.Page.Run

namespace LiveList

open Event (Notification)
open Json (Value)

inductive Stroke where
  | insert (record : Record) (place : Place)
  | insertAll (items : List Value)
  | remove (index : Nat)
  | removeAll
  | edit (index : Nat) (fields : Value)
  | showOnly (since : Nat) (matched : List Value)
  | arrange (order : List Nat)
  | sort
  | updateView
  | addFilter (name : String) (filter : Template.Filter)

namespace Stroke

@[reducible]
def Result : Stroke → Type
  | .insert .. => Except Error (Nat × Value)
  | .insertAll _ => Except Error (List Nat × Value)
  | .remove _ => Option Value
  | .removeAll => Unit
  | .edit .. => Except Error (Option Value)
  | .showOnly .. | .arrange _ | .sort => Except Error (List Value)
  | .updateView => Except Error Unit
  | .addFilter .. => Bool

def change : (stroke : Stroke) → Change stroke.Result
  | .insert record place => (Patch.insert record place).run
  | .insertAll items => (Patch.insertAll items).run
  | .remove index => Change.remove index
  | .removeAll => Change.removeAll
  | .edit index fields => (Patch.edit index fields).run
  | .showOnly _ matched => (Patch.showOnly matched).run
  | .arrange order => (Patch.arrange order).run
  | .sort => Patch.sort.run
  | .updateView => Patch.updateView.run
  | .addFilter name filter => Change.addFilter name filter

/-- What is written in the journal. A stroke without a line has changed nothing. -/
def line : (stroke : Stroke) → stroke.Result → Option Entry
  | .insert .., result => result.toOption.bind fun added => some (.inserted [added.1])
  | .insertAll _, result => result.toOption.bind fun added => some (.inserted added.1)
  | .remove index, removed => removed.map fun _ => .removed index
  | .removeAll, _ => some .cleared
  | .edit index _, result => result.toOption.bind fun edited => edited.map fun _ => .edited index
  | .showOnly since _, result => result.toOption.bind fun _ => some (.filtered since)
  | .arrange _, result | .sort, result => result.toOption.bind fun _ => some .sorted
  | .updateView, result => result.toOption.bind fun _ => some .updated
  | .addFilter name _, _ => some (.registered name)

def said : (stroke : Stroke) → stroke.Result → Option Notification
  | .insert .., .ok added => some ⟨.push, added.2⟩
  | .insertAll _, .ok added => some ⟨.pushAll, added.2⟩
  | .remove _, some removed => some ⟨.remove, removed⟩
  | .removeAll, _ => some ⟨.removeAll, .null⟩
  | .edit .., .ok (some updated) => some ⟨.edit, updated⟩
  | .showOnly .., .ok values => some ⟨.filter, .array values⟩
  | .arrange _, .ok values | .sort, .ok values => some ⟨.sort, .array values⟩
  | _, _ => none

end Stroke

/-- The strokes that a call on a list may lead to, of whose model something is known. -/
inductive Call.Leads {ℓ π κ : Type} (known : Model → Prop) : Call ℓ π κ → Stroke → Prop
  | push {data : Value} {model : Model} {record : Record} (given : data.isTruthy)
      (isKnown : known model) (created : model.create data = .ok record) :
      Leads known (.push data) (.insert record .back)
  | unshift {data : Value} {model : Model} {record : Record} (given : data.isTruthy)
      (isKnown : known model) (created : model.create data = .ok record) :
      Leads known (.unshift data) (.insert record .front)
  | pushAll (items : List Value) : Leads known (.pushAll items) (.insertAll items)
  | pushRecord (record : Record) : Leads known (.pushRecord record) (.insert record .back)
  | remove (index : Nat) : Leads known (.remove index) (.remove index)
  | removeAll : Leads known .removeAll .removeAll
  | edit (index : Nat) (fields : Value) : Leads known (.edit index fields) (.edit index fields)
  | filter (test : π) (since : Nat) (matched : List Value) :
      Leads known (.filter test) (.showOnly since matched)
  | sort : Leads known .sort .sort
  | sortBy (order : κ) (sorted : List Nat) : Leads known (.sortBy order) (.arrange sorted)
  | updateView : Leads known .updateView .updateView
  | removeByFields (fields : Value) (index : Nat) :
      Leads known (.removeByFields fields) (.remove index)
  | addFilter (name : String) (filter : Template.Filter) :
      Leads known (.addFilter name filter) (.addFilter name filter)

theorem Call.Leads.mono {ℓ π κ : Type} {known known' : Model → Prop} {call : Call ℓ π κ}
    {stroke : Stroke} (leads : call.Leads known stroke) (weaker : ∀ model, known model → known' model) :
    call.Leads known' stroke := by
  cases leads with
  | push given isKnown created => exact .push given (weaker _ isKnown) created
  | unshift given isKnown created => exact .unshift given (weaker _ isKnown) created
  | pushAll items => exact .pushAll items
  | pushRecord record => exact .pushRecord record
  | remove index => exact .remove index
  | removeAll => exact .removeAll
  | edit index fields => exact .edit index fields
  | filter test since matched => exact .filter test since matched
  | sort => exact .sort
  | sortBy order sorted => exact .sortBy order sorted
  | updateView => exact .updateView
  | removeByFields fields index => exact .removeByFields fields index
  | addFilter name filter => exact .addFilter name filter

namespace Page

variable {ℓ π κ σ : Type} {m : Type → Type} [Monad m]

structure Parts (m : Type → Type) (ℓ π κ : Type) where
  model : m Model
  collection : m Collection
  lines : m Nat
  test : π → Value → m Bool
  compare : κ → Value → Value → m Ordering
  strike : (stroke : Stroke) → m stroke.Result
  subscribe : List Event.Kind → ℓ → m Event.ListenerId

namespace Parts

def insertData (parts : Parts m ℓ π κ) (place : Place) (data : Value) :
    m (Except Error (Option Nat)) := do
  if !data.isTruthy then return .ok none
  match (← parts.model).create data with
  | .error cause => return .error cause
  | .ok record => return (← parts.strike (.insert record place)).map fun added => some added.1

def removeEach (parts : Parts m ℓ π κ) : List Nat → m (List Value)
  | [] => pure []
  | index :: rest => do
    let removed ← parts.strike (.remove index)
    return removed.toList ++ (← parts.removeEach rest)

def answer (parts : Parts m ℓ π κ) : (call : Call ℓ π κ) → m call.Answer
  | .push data => parts.insertData .back data
  | .unshift data => parts.insertData .front data
  | .pushRecord record => do
    if record.model.same (← parts.model) then
      return (← parts.strike (.insert record .back)).map Prod.fst
    else return .error .foreignRecord
  | .pushAll items => return (← parts.strike (.insertAll items)).map Prod.fst
  | .remove index => parts.strike (.remove index)
  | .removeAll => parts.strike .removeAll
  | .edit index fields => parts.strike (.edit index fields)
  | .filter test => do
    let since ← parts.lines
    let matched ← select (parts.test test) (← parts.collection).json
    parts.strike (.showOnly since matched)
  | .sort => parts.strike .sort
  | .sortBy order => do
    let sorted ← sortValues (parts.compare order) (← parts.collection).json
    parts.strike (.arrange (sorted.filterMap Patch.indexOf))
  | .updateView => parts.strike .updateView
  | .removeByFields fields => do
    match fields with
    | .object fields => return .ok (← parts.removeEach ((← parts.collection).matching fields))
    | found => return .error (.fieldsNotObject found)
  | .addFilter name filter => parts.strike (.addFilter name filter)
  | .subscribe kinds listener => parts.subscribe kinds listener

end Parts

def strike (callbacks : Callbacks (Run ℓ σ) ℓ π κ) (list : Nat) (stroke : Stroke) :
    Run ℓ σ stroke.Result := do
  let result ← change list stroke.change stroke.line
  match stroke.said result with
  | none => return result
  | some notification =>
    let _ ← notify callbacks list notification.kind notification.payload
    return result

def parts (callbacks : Callbacks (Run ℓ σ) ℓ π κ) (list : Nat) : Parts (Run ℓ σ) ℓ π κ where
  model := return (← running list).view.model
  collection := return (← running list).view.collection
  lines := return (← running list).journal.length
  test := callbacks.test
  compare := callbacks.compare
  strike := strike callbacks list
  subscribe kinds listener := answer callbacks list (.subscribe kinds listener)

variable {callbacks : Callbacks (Run ℓ σ) ℓ π κ} {list : Nat}

theorem insert_eq_strike (place : Place) (record : Record) :
    insert callbacks list place record =
      (return (← strike callbacks list (.insert record place)).map Prod.fst) := by
  simp only [insert, strike, bind_assoc]
  refine bind_congr fun result => ?_
  cases result with
  | error cause => simp [Stroke.said, Except.map]
  | ok added => simp [Stroke.said, Except.map]

theorem remove_eq_strike (index : Nat) :
    remove callbacks list index = strike callbacks list (.remove index) := by
  refine bind_congr fun removed => ?_
  cases removed <;> rfl

theorem removeEach_eq (indices : List Nat) :
    removeEach callbacks list indices = (parts callbacks list).removeEach indices := by
  induction indices with
  | nil => rfl
  | cons index rest ih => rw [removeEach, remove_eq_strike, ih]; rfl

theorem insertData_eq (place : Place) (data : Value) :
    insertData callbacks list place data = (parts callbacks list).insertData place data := by
  unfold insertData Parts.insertData
  split
  · rfl
  · simp only [parts, bind_assoc, pure_bind]
    refine bind_congr fun mounted => ?_
    cases mounted.view.model.create data with
    | error cause => rfl
    | ok record =>
      simp only [insert_eq_strike, bind_assoc, pure_bind]
      refine bind_congr fun result => ?_
      cases result <;> rfl

theorem answer_eq (call : Call ℓ π κ) :
    answer callbacks list call = (parts callbacks list).answer call := by
  cases call with
  | push data | unshift data => exact insertData_eq _ data
  | pushRecord record =>
    simp only [answer, Parts.answer, parts, bind_assoc, pure_bind]
    refine bind_congr fun mounted => ?_
    split
    · exact insert_eq_strike .back record
    · rfl
  | pushAll items =>
    simp only [answer, Parts.answer, parts, strike, bind_assoc]
    refine bind_congr fun result => ?_
    cases result with
    | error cause => simp [Stroke.said, Except.map]
    | ok added => simp [Stroke.said, Except.map]
  | remove index => exact remove_eq_strike index
  | removeAll => rfl
  | edit index fields =>
    refine bind_congr fun result => ?_
    rcases result with cause | _ | updated <;> rfl
  | filter test =>
    simp only [answer, Parts.answer, parts, models, strike, bind_assoc, pure_bind]
    refine bind_congr fun earlier => bind_congr fun mounted => bind_congr fun matched =>
      bind_congr fun result => ?_
    cases result <;> rfl
  | sort =>
    refine bind_congr fun result => ?_
    cases result <;> rfl
  | sortBy order =>
    simp only [answer, Parts.answer, parts, models, strike, bind_assoc, pure_bind]
    refine bind_congr fun mounted => bind_congr fun sorted => bind_congr fun result => ?_
    cases result <;> rfl
  | updateView =>
    refine (bind_pure _).symm.trans (bind_congr fun result => ?_)
    cases result <;> rfl
  | removeByFields fields =>
    cases fields with
    | object fields =>
      simp only [answer, Parts.answer, removeEach_eq]
      simp only [parts, bind_assoc, pure_bind]
    | _ => rfl
  | addFilter name filter => exact (bind_pure _).symm
  | subscribe kinds listener => rfl

end Page

end LiveList
