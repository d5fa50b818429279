import LiveList.Markup.Tree

/-!
# Documents

A document keeps its nodes in numbered slots. A node is named by its slot; a freed slot is taken by
the next node that is created, the slot freed last first, so an old name may come to mean a new
node. Slot 0 holds the root at the start. Main statements: what a slot holds after a node was
modified or released.
-/

namespace LiveList

open Markup (Attributes Tree)

abbrev NodeId := Nat

namespace Document

inductive Kind where
  | element (tag : String) (attributes : Attributes)
  | text (content : String)
  | comment (body : String)
deriving Repr, Inhabited, DecidableEq

structure Node where
  kind : Kind
  parent : Option NodeId
  children : List NodeId
deriving Repr, Inhabited, DecidableEq

end Document

/-- A document: its slots, and the free ones with the slot freed last in front. -/
structure Document where
  slots : Array (Option Document.Node)
  free : List NodeId
deriving Repr, DecidableEq

namespace Document

def root : NodeId := 0

def rootTag : String := "#document"

def empty : Document := ⟨#[some ⟨.element rootTag [], none, []⟩], []⟩

instance : Inhabited Document := ⟨empty⟩

def node? (d : Document) (id : NodeId) : Option Node := d.slots[id]?.join

def contains (d : Document) (id : NodeId) : Bool := (d.node? id).isSome

def kind? (d : Document) (id : NodeId) : Option Kind := (d.node? id).map Node.kind

def parent? (d : Document) (id : NodeId) : Option NodeId := (d.node? id).bind Node.parent

def children (d : Document) (id : NodeId) : List NodeId :=
  match d.node? id with
  | some node => node.children
  | none => []

def tag? (d : Document) (id : NodeId) : Option String :=
  match d.kind? id with
  | some (.element tag _) => some tag
  | _ => none

def text? (d : Document) (id : NodeId) : Option String :=
  match d.kind? id with
  | some (.text content) => some content
  | _ => none

def attributes (d : Document) (id : NodeId) : Attributes :=
  match d.kind? id with
  | some (.element _ attributes) => attributes
  | _ => []

def attribute? (d : Document) (id : NodeId) (name : String) : Option String :=
  (d.attributes id).get? name

/-- Tells whether a node is an element other than the root. -/
def isElement (d : Document) (id : NodeId) : Bool := id != root && (d.tag? id).isSome

def elementChildren (d : Document) (id : NodeId) : List NodeId :=
  (d.children id).filter d.isElement

def size (d : Document) : Nat := d.slots.size - d.free.length

def isEmpty (d : Document) : Bool := d.size == 1

/-! ## Walking down -/

def subtreeWithin (d : Document) : Nat → NodeId → List NodeId
  | 0, _ => []
  | depth + 1, id =>
    match d.node? id with
    | none => []
    | some node => id :: node.children.flatMap (d.subtreeWithin depth)

-- No way down is longer than there are slots, unless it goes in circles.
def subtree (d : Document) (id : NodeId) : List NodeId := d.subtreeWithin d.slots.size id

def treeWithin (d : Document) : Nat → NodeId → Option Tree
  | 0, _ => none
  | depth + 1, id =>
    (d.node? id).map fun node =>
      match node.kind with
      | .element tag attributes =>
        .element tag attributes (node.children.filterMap (d.treeWithin depth))
      | .text content => .text content
      | .comment body => .comment body

def tree? (d : Document) (id : NodeId) : Option Tree := d.treeWithin d.slots.size id

def forest (d : Document) (ids : List NodeId) : List Tree := ids.filterMap d.tree?

def holdsRawText (d : Document) (id : NodeId) : Bool :=
  match d.tag? id with
  | some tag => Markup.isRawText tag
  | none => false

def innerHtml (d : Document) (id : NodeId) : String :=
  String.ofList (Tree.forestMarkup (d.holdsRawText id) (d.forest (d.children id)))

def outerHtml (d : Document) (id : NodeId) : String :=
  if id = root then d.innerHtml id
  else
    let raw := match d.parent? id with
      | some parent => d.holdsRawText parent
      | none => false
    String.ofList (Tree.forestMarkup raw (d.forest [id]))

def attachedElements (d : Document) : List NodeId := (d.subtree root).filter d.isElement

def withAttribute (d : Document) (name value : String) : List NodeId :=
  d.attachedElements.filter fun id => d.attribute? id name == some value

def elementById (d : Document) (value : String) : Option NodeId :=
  (d.withAttribute "id" value).head?

/-! ## Primitive edits -/

def modify (d : Document) (id : NodeId) (f : Node → Node) : Document :=
  { d with slots := d.slots.modify id (Option.map f) }

/-- Puts a new node without parent and children into the slot freed last, else into a new one. -/
def create (d : Document) (kind : Kind) : Document × NodeId :=
  let node : Option Node := some ⟨kind, none, []⟩
  match d.free with
  | slot :: free => (⟨d.slots.setIfInBounds slot node, free⟩, slot)
  | [] => (⟨d.slots.push node, []⟩, d.slots.size)

def release (d : Document) (id : NodeId) : Document :=
  ⟨d.slots.setIfInBounds id none, id :: d.free⟩

theorem node?_modify (d : Document) (id other : NodeId) (f : Node → Node) :
    (d.modify id f).node? other =
      if id = other then (d.node? other).map f else d.node? other := by
  simp only [node?, modify, Array.getElem?_modify]
  split
  · cases d.slots[other]? <;> rfl
  · rfl

theorem node?_release (d : Document) (id other : NodeId) :
    (d.release id).node? other = if id = other then none else d.node? other := by
  simp only [node?, release, Array.getElem?_setIfInBounds]
  split
  · split <;> rfl
  · rfl

end Document

end LiveList
