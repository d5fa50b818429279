import LiveList.Proofs.Outcome
import LiveList.Proofs.Document.Operations
import LiveList.Proofs.Template.Rendering

namespace LiveList.Template

open Document (Plant Grows)
open Json (Value)
open Markup (Tree)

/-- The roots stand beside the nodes that were there, and the subtrees of the roots share no node
with these or with each other. -/
structure Delivered (d d' : Document) (roots : List NodeId) : Prop where
  distinct : roots.Nodup
  new : ∀ root ∈ roots, ¬ d.contains root
  alone : ∀ root ∈ roots, d'.contains root ∧ d'.parent? root = none
  apart : (roots.flatMap d'.subtree).Nodup
  outside : ∀ id ∈ roots.flatMap d'.subtree, ¬ d.contains id
  contains_iff : ∀ id, d'.contains id ↔ d.contains id ∨ id ∈ roots.flatMap d'.subtree

structure Transacted (d d' : Document) (outcome : Except TemplateError (List NodeId)) : Prop where
  grounded : d'.Grounded
  untouched : ∀ id, d.contains id → d'.node? id = d.node? id
  undone : ∀ cause, outcome = .error cause → ∀ id, d'.contains id = d.contains id
  delivered : ∀ roots, outcome = .ok roots → Delivered d d' roots

def treesMade (made : Document × Except TemplateError (List NodeId)) :
    Except TemplateError (List Tree) :=
  made.2.map made.1.forest

variable {d d' other : Document} {plants : List Plant}

theorem Delivered.of_grows (grows : Grows d none plants d') :
    Delivered d d' (plants.map Plant.root) := by
  have inside : ∀ root ∈ plants.map Plant.root, root ∈ Plant.ids plants :=
    fun _ => (Plant.map_root_sublist plants).mem
  have subtrees : (plants.map Plant.root).flatMap d'.subtree = Plant.ids plants :=
    Document.subtree_of_holds grows.holds grows.nodup
  have fresh : ∀ id ∈ Plant.ids plants, ¬ d.contains id :=
    fun id new live => grows.not_mem_of_contains live new
  refine ⟨(Plant.map_root_sublist plants).nodup grows.nodup,
    fun root made => fresh root (inside root made),
    fun root made => ⟨Document.contains_iff.2 (grows.holds.live (inside root made)), ?_⟩,
    ?_, ?_, ?_⟩
  · obtain ⟨plant, isPlant, rfl⟩ := List.mem_map.1 made
    exact grows.holds.parent?_root isPlant
  · rw [subtrees]
    exact grows.nodup
  · rw [subtrees]
    exact fresh
  · intro id
    rw [subtrees]
    by_cases new : id ∈ Plant.ids plants
    · simp [new, Document.contains_iff.2 (grows.holds.live new)]
    · simp [new, Document.contains, grows.node?_of_roots new]

theorem Transacted.of_grows (grows : Grows d none plants d') :
    Transacted d d' (.ok (plants.map Plant.root)) where
  grounded := grows.grounded
  untouched := fun _ live => grows.node?_of_roots (grows.not_mem_of_contains live)
  undone := nofun
  delivered := by
    rintro _ ⟨⟩
    exact .of_grows grows

theorem Transacted.of_sameNodes (grounded : d'.Grounded) (same : d.SameNodes d')
    (cause : TemplateError) : Transacted d d' (.error cause) where
  grounded := grounded
  untouched := fun id _ => same id
  undone := fun _ _ id => by rw [Document.contains, same, Document.contains]
  delivered := nofun

theorem transacted_renderInto (grounded : d.Grounded) (template : Template) (setting : Setting)
    (record : Value) : Transacted d (template.renderInto setting record d).1
      (template.renderInto setting record d).2 := by
  cases given : template.trees setting record with
  | error cause =>
    obtain ⟨d', run, grounded', same⟩ := renderInto_error grounded given
    rw [run]
    exact .of_sameNodes grounded' same cause
  | ok forest =>
    obtain ⟨d', plants, run, grows, -⟩ := renderInto_ok grounded given
    rw [run]
    exact .of_grows grows

theorem treesMade_renderInto (grounded : d.Grounded) (template : Template) (setting : Setting)
    (record : Value) :
    treesMade (template.renderInto setting record d) = template.trees setting record := by
  cases given : template.trees setting record with
  | error cause =>
    obtain ⟨d', run, -, -⟩ := renderInto_error grounded given
    rw [run]
    rfl
  | ok forest =>
    obtain ⟨d', plants, run, grows, same⟩ := renderInto_ok grounded given
    rw [run, treesMade, Except.map, Document.forest_of_holds grows.holds grows.nodup, same]

/-- The two documents need have nothing in common: neither their nodes nor their free slots. -/
theorem renderInto_transacted (grounded : d.Grounded) (groundedOther : other.Grounded)
    (template : Template) (setting : Setting) (record : Value) :
    Transacted d (template.renderInto setting record d).1 (template.renderInto setting record d).2 ∧
      treesMade (template.renderInto setting record d) =
        treesMade (template.renderInto setting record other) :=
  ⟨transacted_renderInto grounded template setting record,
    (treesMade_renderInto grounded template setting record).trans
      (treesMade_renderInto groundedOther template setting record).symm⟩

/-- The markings of an item are read as the last thing in a rendering. -/
def markingSource : String :=
  "<i>\x7b\x7b t \x7d\x7d</i><p data-loop=\"items\">\x7b\x7b # name \x7d\x7d" ++
    "<b data-class=\"\x7b\x7b # marks \x7d\x7d\"></b></p>"

def objectOfTexts : String := "\x7b\"on\":\"t\"\x7d"

def objectOfNumbers : String := "\x7b\"on\":1\x7d"

def markedRecord (marks : String) : Value :=
  .object [("t", .string "<u>c</u>"), ("items", .array [
    .object [("name", .string "<u>a</u>"), ("marks", .string objectOfTexts)],
    .object [("name", .string "b"), ("marks", .string marks)]])]

def renderMarked (template : Template) (marks : String) (d : Document) :
    Document × Except TemplateError (List NodeId) :=
  template.renderInto ⟨Filters.builtin, true⟩ (markedRecord marks) d

def freeing : List Document.Operation :=
  [.setInnerHtml Document.root "<ul><li>a</li>b</ul><p></p>", .removeNode 5, .removeNode 2]

def reusedDocument : Document := Document.Operation.applyAll Document.empty freeing

theorem reusedDocument_grounded : reusedDocument.Grounded := by
  have acyclic : Document.Operation.AllAcyclic Document.empty freeing :=
    ⟨nofun, nofun, nofun, trivial⟩
  exact ⟨(Document.empty_coherent.applyAll acyclic).toConsistent, by decide +kernel⟩

theorem renderMarked_outcomes : (compile markingSource).toOption.any fun template =>
    (renderMarked template objectOfNumbers reusedDocument).2.toOption = none ∧
    (renderMarked template objectOfTexts reusedDocument).2.toOption = some [3, 2, 10] := by
  decide +kernel

theorem renderInto_transacted_marked : ∃ template cause,
    compile markingSource = .ok template ∧ reusedDocument.Grounded ∧ Document.empty.Grounded ∧
    ((renderMarked template objectOfNumbers reusedDocument).2 = .error cause ∧
      Transacted reusedDocument (renderMarked template objectOfNumbers reusedDocument).1
        (.error cause) ∧
      treesMade (renderMarked template objectOfNumbers reusedDocument) =
        treesMade (renderMarked template objectOfNumbers Document.empty)) ∧
    (renderMarked template objectOfTexts reusedDocument).2 = .ok [3, 2, 10] ∧
      Transacted reusedDocument (renderMarked template objectOfTexts reusedDocument).1
        (.ok [3, 2, 10]) ∧
      Delivered reusedDocument (renderMarked template objectOfTexts reusedDocument).1 [3, 2, 10] ∧
      treesMade (renderMarked template objectOfTexts reusedDocument) =
        treesMade (renderMarked template objectOfTexts Document.empty) := by
  have groundedEmpty := Document.empty_wellFormed.grounded
  obtain ⟨template, compiled, outcomes⟩ := (Option.any_eq_true _ _).1 renderMarked_outcomes
  obtain ⟨fails, renders⟩ := of_decide_eq_true outcomes
  rw [toOption_eq_some] at compiled renders
  obtain ⟨failed, same⟩ := renderInto_transacted reusedDocument_grounded groundedEmpty template
    ⟨Filters.builtin, true⟩ (markedRecord objectOfNumbers)
  obtain ⟨rendered, same'⟩ := renderInto_transacted reusedDocument_grounded groundedEmpty template
    ⟨Filters.builtin, true⟩ (markedRecord objectOfTexts)
  rw [← renderMarked] at failed rendered
  rw [renders] at rendered
  cases outcome : (renderMarked template objectOfNumbers reusedDocument).2 with
  | ok roots => simp [outcome, Except.toOption] at fails
  | error cause =>
    rw [outcome] at failed
    exact ⟨template, cause, compiled, reusedDocument_grounded, groundedEmpty, ⟨outcome, failed, same⟩,
      renders, rendered, rendered.delivered _ rfl, same'⟩

end LiveList.Template
