import LiveList.Document.Basic

namespace LiveList.Document

open Markup (Attributes)

def createElement (d : Document) (tag : String) : Document × NodeId :=
  d.create (.element (String.ofList (Markup.lowerName tag.toList)) [])

def createText (d : Document) (content : String) : Document × NodeId := d.create (.text content)

def createComment (d : Document) (body : String) : Document × NodeId := d.create (.comment body)

def modifyChildren (d : Document) (id : NodeId) (f : List NodeId → List NodeId) : Document :=
  d.modify id fun node => { node with children := f node.children }

def setParent (d : Document) (id : NodeId) (parent : Option NodeId) : Document :=
  d.modify id fun node => { node with parent }

def detach (d : Document) (id : NodeId) : Document :=
  match d.parent? id with
  | none => d
  | some parent => (d.modifyChildren parent (·.filter (· ≠ id))).setParent id none

def attach (d : Document) (parent child : NodeId) (place : List NodeId → List NodeId) : Document :=
  ((d.detach child).modifyChildren parent place).setParent child (some parent)

def appendChild (d : Document) (parent child : NodeId) : Document :=
  if parent = child || !d.contains parent || !d.contains child then d
  else d.attach parent child (· ++ [child])

def prependChild (d : Document) (parent child : NodeId) : Document :=
  if parent = child || !d.contains parent || !d.contains child then d
  else d.attach parent child (child :: ·)

def insertBeforeIn (reference child : NodeId) : List NodeId → List NodeId
  | [] => [child]
  | id :: rest =>
    if id = reference then child :: id :: rest else id :: insertBeforeIn reference child rest

/-- Moves a node in front of another one. Tells whether that one has a parent to move it to. -/
def insertBefore (d : Document) (reference child : NodeId) : Document × Bool :=
  if reference = child || !d.contains child then (d, false)
  else match d.parent? reference with
    | none => (d, false)
    | some parent =>
      let detached := d.detach child
      if detached.contains parent then
        (d.attach parent child (insertBeforeIn reference child), true)
      else (detached, false)

/-- Takes a node out of its parent and frees it with all below it. The root stays. -/
def removeNode (d : Document) (id : NodeId) : Document :=
  if id = root || !d.contains id then d
  else
    let d := d.detach id
    (d.subtree id).foldl release d

def removeNodes (d : Document) (ids : List NodeId) : Document := ids.foldl removeNode d

def clearChildren (d : Document) (id : NodeId) : Document := d.removeNodes (d.children id)

def modifyAttributes (d : Document) (id : NodeId) (f : Attributes → Attributes) : Document :=
  d.modify id fun node =>
    match node.kind with
    | .element tag attributes => { node with kind := .element tag (f attributes) }
    | _ => node

def setAttribute (d : Document) (id : NodeId) (name value : String) : Document :=
  d.modifyAttributes id (·.put name value)

def removeAttribute (d : Document) (id : NodeId) (name : String) : Document × Bool :=
  (d.modifyAttributes id (·.remove name), (d.attributes id).contains name)

end LiveList.Document
