import LiveList.Document.Graft
import LiveList.Proofs.Document.Moving
import LiveList.Proofs.Markup.Trees
import Mathlib.Data.Set.Card
import Mathlib.Logic.Relation

namespace LiveList.Document

open Markup (Tree)

inductive Operation where
  | createElement (tag : String)
  | createText (content : String)
  | createComment (body : String)
  | appendChild (parent child : NodeId)
  | prependChild (parent child : NodeId)
  | insertBefore (reference child : NodeId)
  | detach (id : NodeId)
  | removeNode (id : NodeId)
  | clearChildren (id : NodeId)
  | setInnerHtml (id : NodeId) (markup : String)
  | parseFragment (markup : String)
  | setAttribute (id : NodeId) (name value : String)
  | removeAttribute (id : NodeId) (name : String)
deriving Repr, DecidableEq

namespace Operation

def apply (d : Document) : Operation → Document
  | .createElement tag => (d.createElement tag).1
  | .createText content => (d.createText content).1
  | .createComment body => (d.createComment body).1
  | .appendChild parent child => d.appendChild parent child
  | .prependChild parent child => d.prependChild parent child
  | .insertBefore reference child => (d.insertBefore reference child).1
  | .detach id => d.detach id
  | .removeNode id => d.removeNode id
  | .clearChildren id => d.clearChildren id
  | .setInnerHtml id markup => d.setInnerHtml id markup
  | .parseFragment markup => (d.parseFragment markup).1
  | .setAttribute id name value => d.setAttribute id name value
  | .removeAttribute id name => (d.removeAttribute id name).1

/-- The parent and the child of a call that attaches. A call that names a dead node attaches
nothing, and neither does one that names one node twice. -/
def attached? (d : Document) : Operation → Option (NodeId × NodeId)
  | .appendChild parent child | .prependChild parent child =>
    if parent ≠ child ∧ d.contains parent ∧ d.contains child then some (parent, child) else none
  | .insertBefore reference child =>
    if reference ≠ child ∧ d.contains child then (d.parent? reference).map (·, child) else none
  | _ => none

def Acyclic (d : Document) (operation : Operation) : Prop :=
  ∀ parent child, operation.attached? d = some (parent, child) → ¬ d.Below child parent

def applyAll (d : Document) (operations : List Operation) : Document := operations.foldl apply d

def AllAcyclic (d : Document) : List Operation → Prop
  | [] => True
  | operation :: rest => operation.Acyclic d ∧ AllAcyclic (operation.apply d) rest

end Operation

structure Intact (d : Document) : Prop where
  free_nodup : d.free.Nodup
  mem_free : ∀ id, id ∈ d.free ↔ d.slots[id]? = some none
  parent_iff : ∀ child parent, d.contains child →
    (d.parent? child = some parent ↔ d.contains parent ∧ child ∈ d.children parent)
  count_child : ∀ child parent, d.parent? child = some parent →
    (d.children parent).count child = 1
  alone : ∀ child, d.parent? child = none → ∀ parent, child ∉ d.children parent
  acyclic : ∀ id, ¬ Relation.TransGen (fun child parent => d.parent? child = some parent) id id
  size_eq : d.size = Set.ncard {id | d.contains id}

variable {d : Document} {id parent : NodeId}

namespace Coherent

/-- The parent may be dead, and then become the node that is created: it is not attached to itself,
and what comes later is attached to it. -/
theorem create_below (coherent : d.Coherent) (kind : Kind) (parent : NodeId) :
    ((d.create kind).1.appendChild parent (d.create kind).2).Coherent := by
  refine (coherent.create kind).appendChild fun differ _ _ => ?_
  refine (coherent.create kind).not_below_of_childless ?_ differ
  rw [children_eq, node?_create coherent.tidy, if_pos rfl]
  rfl

theorem graftForest (coherent : d.Coherent) (parent : NodeId) (forest : List Tree) :
    (d.graftForest parent forest).Coherent := by
  induction forest using Tree.forest_induction generalizing d parent with
  | nil => exact coherent
  | text content rest ih => exact ih (coherent.create_below (.text content) parent) parent
  | comment body rest ih => exact ih (coherent.create_below (.comment body) parent) parent
  | element tag attributes children rest below beside =>
    exact beside (below (coherent.create_below (.element tag attributes) parent) _) parent

theorem setInnerHtml (coherent : d.Coherent) (id : NodeId) (markup : String) :
    (d.setInnerHtml id markup).Coherent :=
  (coherent.clearChildren id).graftForest id (Markup.parse markup)

theorem foldl_detach (coherent : d.Coherent) (list : List NodeId) :
    (list.foldl Document.detach d).Coherent := by
  induction list generalizing d with
  | nil => exact coherent
  | cons first rest ih => exact ih (coherent.detach first)

theorem parseFragment (coherent : d.Coherent) (markup : String) :
    (d.parseFragment markup).1.Coherent :=
  (((coherent.create _).graftForest _ _).foldl_detach _).removeNode _

end Coherent

theorem Coherent.apply (coherent : d.Coherent) {operation : Operation}
    (acyclic : operation.Acyclic d) : (operation.apply d).Coherent := by
  cases operation with
  | createElement tag => exact coherent.create _
  | createText content => exact coherent.create _
  | createComment body => exact coherent.create _
  | appendChild parent child =>
    exact coherent.appendChild fun differ parentLive childLive =>
      acyclic parent child (if_pos ⟨differ, parentLive, childLive⟩)
  | prependChild parent child =>
    exact coherent.prependChild fun differ parentLive childLive =>
      acyclic parent child (if_pos ⟨differ, parentLive, childLive⟩)
  | insertBefore reference child =>
    exact coherent.insertBefore fun differ childLive parent up =>
      acyclic parent child (by simp [Operation.attached?, differ, childLive, up])
  | detach id => exact coherent.detach id
  | removeNode id => exact coherent.removeNode id
  | clearChildren id => exact coherent.clearChildren id
  | setInnerHtml id markup => exact coherent.setInnerHtml id markup
  | parseFragment markup => exact coherent.parseFragment markup
  | setAttribute id name value => exact coherent.modifyAttributes id _
  | removeAttribute id name => exact coherent.modifyAttributes id _

theorem Coherent.applyAll (coherent : d.Coherent) {operations : List Operation}
    (acyclic : Operation.AllAcyclic d operations) :
    (Operation.applyAll d operations).Coherent := by
  induction operations generalizing d with
  | nil => exact coherent
  | cons operation rest ih => exact ih (coherent.apply acyclic.1) acyclic.2

def live (d : Document) : List NodeId := (List.range d.slots.size).filter d.contains

theorem mem_live : id ∈ d.live ↔ d.contains id := by
  rw [live, List.mem_filter, List.mem_range, and_iff_right_iff_imp]
  intro live
  obtain ⟨node, held⟩ := contains_iff.1 live
  exact lt_size_of_node? held

theorem nodup_live (d : Document) : d.live.Nodup := List.nodup_range.filter _

theorem setOf_contains (d : Document) : {id | d.contains id} = (d.live.toFinset : Set NodeId) := by
  ext id
  simp [mem_live]

namespace Tidy

theorem mem_free_iff (tidy : d.Tidy) : id ∈ d.free ↔ d.slots[id]? = some none := by
  rw [tidy.mem_free, node?]
  by_cases inside : id < d.slots.size
  · simp [inside]
  · simp [inside]

theorem live_append_free (tidy : d.Tidy) : (d.live ++ d.free).Perm (List.range d.slots.size) := by
  rw [List.perm_ext_iff_of_nodup _ List.nodup_range]
  · intro id
    rw [List.mem_append, live, List.mem_filter, tidy.mem_free, List.mem_range, contains]
    cases d.node? id <;> simp
  · rw [List.nodup_append]
    refine ⟨d.nodup_live, tidy.nodup, ?_⟩
    rintro id isLive _ isFree rfl
    rw [mem_live, contains, ((tidy.mem_free id).1 isFree).2] at isLive
    cases isLive

theorem size_eq (tidy : d.Tidy) : d.size = Set.ncard {id | d.contains id} := by
  have slots := tidy.live_append_free.length_eq
  rw [List.length_append, List.length_range] at slots
  rw [setOf_contains, Set.ncard_coe_finset, List.toFinset_card_of_nodup d.nodup_live, size]
  omega

end Tidy

theorem Below.of_transGen
    (above : Relation.TransGen (fun child parent => d.parent? child = some parent) id parent) :
    ∃ up, d.parent? id = some up ∧ d.Below parent up := by
  induction above using Relation.TransGen.head_induction_on with
  | single up => exact ⟨_, up, .self⟩
  | head up _ ih =>
    obtain ⟨higher, next, below⟩ := ih
    exact ⟨_, up, .step next below⟩

theorem Coherent.intact (coherent : d.Coherent) : d.Intact where
  free_nodup := coherent.tidy.nodup
  mem_free := fun _ => coherent.tidy.mem_free_iff
  parent_iff := fun child parent _ => by
    rw [coherent.linked]
    exact ⟨fun up => ⟨coherent.contains_parent up, up⟩, fun both => both.2⟩
  count_child := fun child parent up =>
    List.count_eq_one_of_mem (coherent.nodup parent) ((coherent.linked parent child).2 up)
  alone := fun child alone parent listed => by
    rw [(coherent.linked parent child).1 listed] at alone
    cases alone
  acyclic := fun id cycle => coherent.untangled id (Below.of_transGen cycle)
  size_eq := coherent.tidy.size_eq

/-- However a document is edited, it is intact as long as no node is attached below itself. -/
theorem intact_applyAll {operations : List Operation}
    (acyclic : Operation.AllAcyclic empty operations) :
    (Operation.applyAll empty operations).Intact :=
  (empty_coherent.applyAll acyclic).intact

theorem Operation.acyclic_of_alone {operation : Operation} (parent child : NodeId)
    (attached : operation.attached? d = some (parent, child)) (differ : child ≠ parent)
    (alone : d.parent? parent = none) : operation.Acyclic d := by
  intro top bottom same below
  rw [attached, Option.some.injEq, Prod.mk.injEq] at same
  obtain ⟨rfl, rfl⟩ := same
  exact differ (below.eq_of_parent?_none alone)

def reusing : List Operation :=
  [.setInnerHtml root "<ul><li>a</li></ul>", .removeNode 1, .setInnerHtml 3 "<b>x</b>",
    .appendChild root 3, .createElement "p", .appendChild 1 root, .removeNode 1,
    .parseFragment "y<i>z</i>"]

theorem intact_applyAll_reusing :
    Operation.AllAcyclic empty reusing ∧ (Operation.applyAll empty reusing).Intact := by
  have acyclic : Operation.AllAcyclic empty reusing := by
    refine ⟨nofun, nofun, nofun, ?_, nofun, ?_, nofun, nofun, trivial⟩
    · exact Operation.acyclic_of_alone root 3 (by decide +kernel) (by decide) (by decide +kernel)
    · exact Operation.acyclic_of_alone 1 root (by decide +kernel) (by decide) (by decide +kernel)
  exact ⟨acyclic, intact_applyAll acyclic⟩

end LiveList.Document
