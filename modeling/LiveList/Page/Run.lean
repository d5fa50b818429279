import LiveList.Page.Basic

/-!
# Running pages

How a page answers requests. A list changes first and then notifies its listeners, so a listener
finds the change done; predicates and comparisons see the records as they were when the call began.
All of these callbacks may make requests of their own, on the same list too. Each request runs to
its end before the callback that made it goes on.
-/

namespace LiveList.Page

open Event (Hub Kind ListenerId Notification Script)
open Json (Value)

variable {ℓ π κ σ : Type}

abbrev Run (ℓ σ : Type) := StateT (Page ℓ σ) Option

structure Callbacks (m : Type → Type) (ℓ π κ : Type) where
  listen : ℓ → Notification → m Unit
  test : π → Value → m Bool
  compare : κ → Value → Value → m Ordering

def running (list : Nat) : Run ℓ σ (Mounted ℓ) := do
  match (← get).list? list with
  | some mounted => pure mounted
  | none => failure

def change {α : Type} (list : Nat) (change : Change α) (line : α → Option Entry) : Run ℓ σ α := do
  let mounted ← running list
  let page ← get
  let (result, scene) := change.run ⟨mounted.view, page.document⟩
  set ({ page with document := scene.document }.modifyList list fun mounted =>
    { mounted with view := scene.view, journal := (line result).toList ++ mounted.journal })
  return result

/-- Changes a list and its document in a way that may fail. A failure is not written down. -/
def patch {α : Type} (list : Nat) (patch : Patch α) (line : α → Option Entry) :
    Run ℓ σ (Except Error α) :=
  change list patch.run fun result => result.toOption.bind line

def notify (callbacks : Callbacks (Run ℓ σ) ℓ π κ) (list : Nat) (kind : Kind) (payload : Value) :
    Run ℓ σ Nat := do
  let mounted ← running list
  Event.deliver (fun id => return (← running list).hub.isRegistered id)
    (fun listener => callbacks.listen listener ⟨kind, payload⟩) (mounted.hub.listenersFor kind)

def select {m : Type → Type} [Monad m] (test : Value → m Bool) : List Value → m (List Value)
  | [] => pure []
  | value :: rest => do
    let passes ← test value
    let more ← select test rest
    return if passes then value :: more else more

def insertSorted {m : Type → Type} [Monad m] (compare : Value → Value → m Ordering)
    (value : Value) : List Value → m (List Value)
  | [] => pure [value]
  | next :: rest => do
    if (← compare value next) == .gt then return next :: (← insertSorted compare value rest)
    else return value :: next :: rest

def sortValues {m : Type → Type} [Monad m] (compare : Value → Value → m Ordering) :
    List Value → m (List Value)
  | [] => pure []
  | value :: rest => do insertSorted compare value (← sortValues compare rest)

def models (list : Nat) : Run ℓ σ (List Value) := return (← running list).view.collection.json

def insert (callbacks : Callbacks (Run ℓ σ) ℓ π κ) (list : Nat) (place : Place)
    (record : Record) : Run ℓ σ (Except Error Nat) := do
  match ← patch list (Patch.insert record place) fun added => some (.inserted [added.1]) with
  | .error cause => return .error cause
  | .ok (index, payload) =>
    let _ ← notify callbacks list .push payload
    return .ok index

def insertData (callbacks : Callbacks (Run ℓ σ) ℓ π κ) (list : Nat) (place : Place)
    (data : Value) : Run ℓ σ (Except Error (Option Nat)) := do
  if !data.isTruthy then return .ok none
  match (← running list).view.model.create data with
  | .error cause => return .error cause
  | .ok record => return (← insert callbacks list place record).map some

def remove (callbacks : Callbacks (Run ℓ σ) ℓ π κ) (list index : Nat) :
    Run ℓ σ (Option Value) := do
  match ← change list (Change.remove index) fun removed => removed.map fun _ => .removed index with
  | none => return none
  | some removed =>
    let _ ← notify callbacks list .remove removed
    return some removed

def removeEach (callbacks : Callbacks (Run ℓ σ) ℓ π κ) (list : Nat) :
    List Nat → Run ℓ σ (List Value)
  | [] => pure []
  | index :: rest => do
    let removed ← remove callbacks list index
    return removed.toList ++ (← removeEach callbacks list rest)

def announce (callbacks : Callbacks (Run ℓ σ) ℓ π κ) (list : Nat) (kind : Kind)
    (result : Except Error (List Value)) : Run ℓ σ (Except Error (List Value)) := do
  match result with
  | .error cause => return .error cause
  | .ok values =>
    let _ ← notify callbacks list kind (.array values)
    return .ok values

def answer (callbacks : Callbacks (Run ℓ σ) ℓ π κ) (list : Nat) :
    (call : Call ℓ π κ) → Run ℓ σ call.Answer
  | .push data => insertData callbacks list .back data
  | .unshift data => insertData callbacks list .front data
  | .pushRecord record => do
    if record.model.same (← running list).view.model then insert callbacks list .back record
    else return .error .foreignRecord
  | .pushAll items => do
    match ← patch list (Patch.insertAll items) fun added => some (.inserted added.1) with
    | .error cause => return .error cause
    | .ok (indices, payload) =>
      let _ ← notify callbacks list .pushAll payload
      return .ok indices
  | .remove index => remove callbacks list index
  | .removeAll => do
    change list Change.removeAll fun _ => some .cleared
    let _ ← notify callbacks list .removeAll .null
  | .edit index fields => do
    match ← patch list (Patch.edit index fields) fun edited => edited.map fun _ => .edited index with
    | .ok (some updated) =>
      let _ ← notify callbacks list .edit updated
      return .ok (some updated)
    | result => return result
  | .filter test => do
    let since := (← running list).journal.length
    let matched ← select (callbacks.test test) (← models list)
    announce callbacks list .filter
      (← patch list (Patch.showOnly matched) fun _ => some (.filtered since))
  | .sort => do announce callbacks list .sort (← patch list Patch.sort fun _ => some .sorted)
  | .sortBy order => do
    let sorted ← sortValues (callbacks.compare order) (← models list)
    announce callbacks list .sort
      (← patch list (Patch.arrange (sorted.filterMap Patch.indexOf)) fun _ => some .sorted)
  | .updateView => patch list Patch.updateView fun _ => some .updated
  | .removeByFields fields => do
    match fields with
    | .object fields =>
      let indices := (← running list).view.collection.matching fields
      return .ok (← removeEach callbacks list indices)
    | found => return .error (.fieldsNotObject found)
  | .addFilter name filter => change list (Change.addFilter name filter) fun _ => some (.registered name)
  | .subscribe kinds listener => do
    let (hub, id) := (← running list).hub.subscribe kinds listener
    modify fun page => page.modifyList list fun mounted => { mounted with hub }
    return id

def during {α : Type} (list : Nat) (body : Run ℓ σ α) : Run ℓ σ α := do
  -- While it is running a list is alive, even if its handle is dropped.
  modify fun page => page.modifyList list fun m => { m with running := m.running + 1 }
  let result ← body
  modify fun page => page.modifyList list fun m => { m with running := m.running - 1 }
  return result

def serve (callbacks : Callbacks (Run ℓ σ) ℓ π κ) : (r : Request ℓ π κ) → Run ℓ σ r.Answer
  | .call list call => do
    match (← get).held? list with
    | none => return none
    | some _ => return some (← during list (answer callbacks list call))
  | .unsubscribe list id => do
    if (← get).alive list then
      let (hub, removed) := (← running list).hub.unsubscribe id
      modify fun page => page.modifyList list fun mounted => { mounted with hub }
      return removed
    else return false
  | .drop list => modify fun page => page.modifyList list fun m => { m with owned := false }
  | .setInnerHtml id markup =>
    modifyGet fun page => page.editElement id fun d element => d.setInnerHtml element markup
  | .setAttribute id name value =>
    modifyGet fun page => page.editElement id fun d element => d.setAttribute element name value
  | .removeElement id => modifyGet fun page => page.editElement id Document.removeNode

abbrev Action (ℓ π κ σ : Type) := Script (Page ℓ σ) σ (Request ℓ π κ) Request.Answer

structure Behaviour (ℓ π κ σ : Type) where
  listen : ℓ → Notification → Action ℓ π κ σ Unit
  test : π → Value → Action ℓ π κ σ Bool
  compare : κ → Value → Value → Action ℓ π κ σ Ordering

def runAction {α : Type} (ask : (r : Request ℓ π κ) → Run ℓ σ r.Answer)
    (action : Action ℓ π κ σ α) : Run ℓ σ α :=
  action.run get (fun change => modify fun page => { page with user := change page.user }) ask

def Behaviour.callbacks (behaviour : Behaviour ℓ π κ σ)
    (ask : (r : Request ℓ π κ) → Run ℓ σ r.Answer) : Callbacks (Run ℓ σ) ℓ π κ where
  listen listener notification := runAction ask (behaviour.listen listener notification)
  test test value := runAction ask (behaviour.test test value)
  compare order x y := runAction ask (behaviour.compare order x y)

/-- Answers a request, with requests made inside callbacks at most `depth` deep. There is no answer
if they go deeper. -/
def perform (behaviour : Behaviour ℓ π κ σ) :
    (depth : Nat) → (r : Request ℓ π κ) → Run ℓ σ r.Answer
  | 0, _ => failure
  | depth + 1, r => serve (behaviour.callbacks (perform behaviour depth)) r

end LiveList.Page
