import LiveList.View.Basic

namespace LiveList

open Json (Value)

inductive Place where
  | back
  | front
deriving DecidableEq, Repr

namespace Change

def addAll : List (Record × List NodeId) → Change (List Nat)
  | [] => pure []
  | (record, roots) :: rest => do
    appendRoots roots
    let (collection, index) := (← view).collection.insertBack record
    modifyCollection fun _ => collection
    remember index roots
    return index :: (← addAll rest)

def remove (index : Nat) : Change (Option Value) := do
  let (collection, removed) := (← view).collection.remove index
  match removed with
  | none => return none
  | some record =>
    modifyCollection fun _ => collection
    match OrderedMap.get? (← view).nodes index with
    | none => pure ()
    | some roots =>
      modifyView fun view => { view with nodes := OrderedMap.remove view.nodes index }
      free roots
    return some record.json

def removeAll : Change Unit := do
  modifyView fun view => { view with collection := view.collection.clear, nodes := [] }
  clearContainer

def addFilter (name : String) (filter : Template.Filter) : Change Bool := do
  let (filters, replaced) := (← view).filters.register name filter
  modifyView fun view => { view with filters }
  return replaced

end Change

namespace Patch

open Change

def insert (record : Record) (place : Place) : Patch (Nat × Value) := do
  let roots ← render (record.withIndex (← view).collection.next)
  match place with
  | .back => appendRoots roots
  | .front => prependRoots roots
  let collection := (← view).collection
  let (collection, index) := match place with
    | .back => collection.insertBack record
    | .front => collection.insertFront record
  modifyCollection fun _ => collection
  remember index roots
  return (index, ((collection.get? index).map fun r => r.json).getD .null)

def createAll (items : List Value) : Patch (List Record) := do
  let model := (← view).model
  ofResult (items.mapM model.create)

def insertAll (items : List Value) : Patch (List Nat × Value) := do
  let records ← createAll items
  let first := (← view).collection.next
  let numbered := records.mapIdx fun offset record => record.withIndex (first + offset)
  let rendered ← renderAll (numbered.map fun record => (record, record)) []
  let indices ← addAll rendered
  return (indices, .array (← view).collection.json)

/-- Writes fields to a record and renders it again in its place: its JSON, if there is such a
record. What counts as false is no fields at all. A record that is not shown cannot be edited. -/
def edit (index : Nat) (fields : Value) : Patch (Option Value) := do
  if !fields.isTruthy then return none
  let before ← view
  match before.collection.get? index with
  | none => return none
  | some record =>
    match (OrderedMap.get? before.nodes index).bind List.head? with
    | none => throw (.missingDataId index)
    | some anchor =>
      let record ← ofResult (record.update fields)
      let roots ← render record
      modifyDocument fun d => roots.foldl (fun d root => (d.insertBefore anchor root).1) d
      remember index roots
      free ((OrderedMap.get? before.nodes index).getD [])
      modifyCollection fun c => c.replace index record
      return some record.json

def indexOf (value : Value) : Option Nat := (value.field? indexField).bind Value.nat?

def showOnly (matched : List Value) : Patch (List Value) := do
  let collection := (← view).collection
  let order := (matched.filterMap indexOf).filter collection.contains
  rerender order
  return order.filterMap fun index => (collection.get? index).map fun r => r.json

/-- Brings the records into an order and shows all of them: their JSON in the new order. Records
that the order does not list follow in their old order. -/
def arrange (order : List Nat) : Patch (List Value) := do
  let collection := (← view).collection
  let listed := order.filter collection.contains
  let order := listed ++ collection.indices.filter (!listed.contains ·)
  rerender order
  modifyCollection fun c => c.reorder order
  return (← view).collection.json

def sort : Patch (List Value) := do
  arrange ((← view).collection.sortedIndices fun a b => compare a.index b.index)

def updateView : Patch Unit := do rerender (← view).collection.indices

end Patch

end LiveList
