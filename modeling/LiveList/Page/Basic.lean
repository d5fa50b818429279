import LiveList.Event.Hub
import LiveList.Event.Script
import LiveList.View.Builder
import LiveList.View.Change

namespace LiveList

open Event (Hub Kind ListenerId Notification Script)
open Json (Value)

inductive Entry where
  | inserted (indices : List Nat)
  | removed (index : Nat)
  | cleared
  | edited (index : Nat)
  /-- A filter, whose predicate was first asked when the journal had `since` lines. -/
  | filtered (since : Nat)
  | sorted
  | updated
  | registered (filter : String)
deriving DecidableEq, Repr

structure Mounted (ℓ : Type) where
  view : ListView
  hub : Hub ℓ
  journal : List Entry
  owned : Bool
  running : Nat

def Mounted.alive {ℓ : Type} (list : Mounted ℓ) : Bool := list.owned || 0 < list.running

def Mounted.inspectWeak {ℓ : Type} (list : Mounted ℓ) : String :=
  "WeakList \x7b alive: " ++ (if list.alive then "true" else "false") ++ " \x7d"

/-- A document, the lists on it by number, and the state of those who use the page. A list that
could not be built leaves its number empty. -/
structure Page (ℓ σ : Type) where
  document : Document
  lists : List (Option (Mounted ℓ))
  user : σ

inductive Call (ℓ π κ : Type) where
  | push (data : Value)
  | unshift (data : Value)
  | pushAll (items : List Value)
  | pushRecord (record : Record)
  | remove (index : Nat)
  | removeAll
  | edit (index : Nat) (fields : Value)
  | filter (test : π)
  | sort
  | sortBy (order : κ)
  | updateView
  | removeByFields (fields : Value)
  | addFilter (name : String) (filter : Template.Filter)
  | subscribe (kinds : List Kind) (listener : ℓ)

@[reducible]
def Call.Answer {ℓ π κ : Type} : Call ℓ π κ → Type
  | .push _ | .unshift _ => Except Error (Option Nat)
  | .pushAll _ => Except Error (List Nat)
  | .pushRecord _ => Except Error Nat
  | .remove _ => Option Value
  | .removeAll => Unit
  | .edit .. => Except Error (Option Value)
  | .filter _ | .sort | .sortBy _ | .removeByFields _ => Except Error (List Value)
  | .updateView => Except Error Unit
  | .addFilter .. => Bool
  | .subscribe .. => ListenerId

inductive Request (ℓ π κ : Type) where
  | call (list : Nat) (call : Call ℓ π κ)
  | unsubscribe (list : Nat) (id : ListenerId)
  | drop (list : Nat)
  | setInnerHtml (id markup : String)
  | setAttribute (id name value : String)
  | removeElement (id : String)

/-- The answers of a page. A call on a list whose handle is not held has none. Changes of the
document tell whether there is such an element. -/
@[reducible]
def Request.Answer {ℓ π κ : Type} : Request ℓ π κ → Type
  | .call _ c => Option c.Answer
  | .unsubscribe .. => Bool
  | .drop _ => Unit
  | .setInnerHtml .. | .setAttribute .. | .removeElement _ => Bool

namespace Page

variable {ℓ σ : Type}

def list? (page : Page ℓ σ) (list : Nat) : Option (Mounted ℓ) := page.lists[list]?.join

def held? (page : Page ℓ σ) (list : Nat) : Option (Mounted ℓ) :=
  (page.list? list).filter Mounted.owned

def alive (page : Page ℓ σ) (list : Nat) : Bool := (page.list? list).any Mounted.alive

def modifyList (page : Page ℓ σ) (list : Nat) (f : Mounted ℓ → Mounted ℓ) : Page ℓ σ :=
  { page with lists := page.lists.modify list (Option.map f) }

def editElement (page : Page ℓ σ) (id : String) (edit : Document → NodeId → Document) :
    Bool × Page ℓ σ :=
  match page.document.elementById id with
  | none => (false, page)
  | some element => (true, { page with document := edit page.document element })

def mount (page : Page ℓ σ) (view : Option ListView) : Page ℓ σ :=
  { page with lists := page.lists ++ [view.map fun view => ⟨view, Hub.empty, [], true, 0⟩] }

end Page

end LiveList
