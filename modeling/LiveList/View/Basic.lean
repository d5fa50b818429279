import LiveList.Record.Collection
import LiveList.Template.Render

/-!
# List views

A list view shows a collection in a container element of a document: every record is rendered by
one template, and the elements at the top of a rendering carry the index of their record. The view
remembers the nodes of every rendered record. A change of a view and its document may fail; what
happened before the failure stays, so every change renders before it touches what is there.
-/

namespace LiveList

open Json (Value)
open Template (Filters Setting)

def dataIdAttribute : String := "data-id"

structure ListView where
  model : Model
  container : NodeId
  template : Template
  rawHtml : Bool
  collection : Collection
  nodes : OrderedMap Nat (List NodeId)
  filters : Filters

structure Scene where
  view : ListView
  document : Document

abbrev Change := StateM Scene

/-- A change of a scene that may fail. What was changed before the failure stays. -/
abbrev Patch := ExceptT Error Change

namespace ListView

def setting (view : ListView) : Setting := ⟨view.filters, view.rawHtml⟩

def size (view : ListView) : Nat := view.collection.size

def html (view : ListView) (d : Document) : String := d.innerHtml view.container

def indexOfText (text : String) : Option Nat :=
  (Json.position? text).filter (· < Number.twoTo 64)

def renderedIndices (view : ListView) (d : Document) : List Nat :=
  (d.elementChildren view.container).filterMap fun id =>
    (d.attribute? id dataIdAttribute).bind indexOfText

def inspect (view : ListView) : String :=
  "List \x7b container: NodeId(" ++ toString view.container ++ "), template: " ++
    Text.quoted view.template.source ++ ", size: Some(" ++ toString view.size ++ ") \x7d"

def stamp (d : Document) (roots : List NodeId) (index : Nat) : Document :=
  roots.foldl (fun d root =>
    if d.isElement root then d.setAttribute root dataIdAttribute (toString index) else d) d

def renderRecord (view : ListView) (record : Record) (d : Document) :
    Document × Except Error (List NodeId) :=
  match view.template.renderInto view.setting record.json d with
  | (d, .error cause) => (d, .error (.template cause))
  | (d, .ok roots) =>
    match record.index with
    | none => (d, .ok roots)
    | some index => (stamp d roots index, .ok roots)

end ListView

namespace Change

def view : Change ListView := return (← get).view

def modifyView (f : ListView → ListView) : Change Unit :=
  modify fun scene => { scene with view := f scene.view }

def modifyDocument (f : Document → Document) : Change Unit :=
  modify fun scene => { scene with document := f scene.document }

def modifyCollection (f : Collection → Collection) : Change Unit :=
  modifyView fun view => { view with collection := f view.collection }

def remember (index : Nat) (roots : List NodeId) : Change Unit :=
  modifyView fun view => { view with nodes := OrderedMap.put view.nodes index roots }

def free (nodes : List NodeId) : Change Unit := modifyDocument fun d => d.removeNodes nodes

def appendRoots (roots : List NodeId) : Change Unit := do
  let container := (← view).container
  modifyDocument fun d => roots.foldl (fun d root => d.appendChild container root) d

def prependRoots (roots : List NodeId) : Change Unit := do
  let container := (← view).container
  modifyDocument fun d => roots.reverse.foldl (fun d root => d.prependChild container root) d

def clearContainer : Change Unit := do
  let container := (← view).container
  modifyDocument fun d => d.clearChildren container

def showAll : List (Nat × List NodeId) → Change Unit
  | [] => pure ()
  | (index, roots) :: rest => do
    appendRoots roots
    remember index roots
    showAll rest

end Change

namespace Patch

open Change

def ofResult {α : Type} (result : Except Error α) : Patch α := ExceptT.mk (pure result)

def render (record : Record) : Patch (List NodeId) := do
  let scene ← get
  let (document, result) := scene.view.renderRecord record scene.document
  set { scene with document }
  ofResult result

/-- Renders records, each with its key. If one fails the nodes of those before it are freed. -/
def renderAll {κ : Type} : List (κ × Record) → List (κ × List NodeId) →
    Patch (List (κ × List NodeId))
  | [], done => pure done
  | (key, record) :: rest, done => do
    let roots ← tryCatch (render record) fun cause => do
      free (done.flatMap Prod.snd)
      throw cause
    renderAll rest (done ++ [(key, roots)])

/-- Replaces the content of the container by the records of an order. All of them are rendered
before the container is touched. -/
def rerender (order : List Nat) : Patch Unit := do
  let collection := (← view).collection
  let records := order.filterMap fun index => (collection.get? index).map (index, ·)
  let rendered ← renderAll records []
  clearContainer
  modifyView fun view => { view with nodes := [] }
  showAll rendered

end Patch

end LiveList
