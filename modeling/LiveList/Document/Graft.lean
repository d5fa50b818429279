import LiveList.Document.Edit
import LiveList.Markup.Forest

namespace LiveList.Document

open Markup (Tree)

mutual

def graft (d : Document) (parent : NodeId) : Tree → Document
  | .text content =>
    let (d, id) := d.create (.text content)
    d.appendChild parent id
  | .comment body =>
    let (d, id) := d.create (.comment body)
    d.appendChild parent id
  | .element tag attributes children =>
    let (d, id) := d.create (.element tag attributes)
    graftForest (d.appendChild parent id) id children

def graftForest (d : Document) (parent : NodeId) : List Tree → Document
  | [] => d
  | tree :: rest => graftForest (graft d parent tree) parent rest

end

def parseInto (d : Document) (parent : NodeId) (markup : String) : Document :=
  d.graftForest parent (Markup.parse markup)

def setInnerHtml (d : Document) (id : NodeId) (markup : String) : Document :=
  (d.clearChildren id).parseInto id markup

def ofHtml (markup : String) : Document := empty.setInnerHtml root markup

def holderTag : String := "template"

/-- Reads markup into detached nodes. An element holds them while they are read and is freed
afterwards. -/
def parseFragment (d : Document) (markup : String) : Document × List NodeId :=
  let (d, holder) := d.createElement holderTag
  let d := d.parseInto holder markup
  let roots := d.children holder
  ((roots.foldl detach d).removeNode holder, roots)

end LiveList.Document
