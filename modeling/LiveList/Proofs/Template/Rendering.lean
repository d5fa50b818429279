import LiveList.Proofs.Document.Growth
import LiveList.Template.Render

/-!
# Rendering in a document

A rendering is defined twice: by the trees that a template gives for a record, and by what it does
in a document. Main statement: in every grounded document a rendering grows plants with exactly
these trees, and where there are no trees it fails with the same error and leaves every node as it
was.
-/

namespace LiveList

open Json (Value)
open Markup (Tree Attributes)
open Template (Sprout Setting)

theorem Template.Sprout.forest_induction {motive : List Sprout → Prop} (nil : motive [])
    (text : ∀ content rest, motive rest → motive (.text content :: rest))
    (comment : ∀ body rest, motive rest → motive (.comment body :: rest))
    (fragment : ∀ markup rest, motive rest → motive (.fragment markup :: rest))
    (element : ∀ tag attributes children rest, motive children → motive rest →
      motive (.element tag attributes children :: rest)) :
    ∀ sprouts, motive sprouts
  | [] => nil
  | .text content :: rest =>
    text content rest (forest_induction nil text comment fragment element rest)
  | .comment body :: rest =>
    comment body rest (forest_induction nil text comment fragment element rest)
  | .fragment markup :: rest =>
    fragment markup rest (forest_induction nil text comment fragment element rest)
  | .element tag attributes children :: rest =>
    element tag attributes children rest
      (forest_induction nil text comment fragment element children)
      (forest_induction nil text comment fragment element rest)

namespace Document

open Plant (Leafy ids trees elements grow)

variable {d d' d'' : Document} {plants plants' plants'' : List Plant} {parent : Option NodeId}

/-! ## Planting -/

def newRoots (parent : Option NodeId) (plants : List Plant) : List NodeId :=
  match parent with
  | some _ => []
  | none => plants.map Plant.root

theorem newRoots_append (parent : Option NodeId) (plants rest : List Plant) :
    newRoots parent (plants ++ rest) = newRoots parent plants ++ newRoots parent rest := by
  cases parent <;> simp [newRoots]

theorem Grows.hang_parent (grows : Grows d none plants d') (rooted : d.Rooted parent) :
    Grows d parent plants (d'.hang parent (plants.map Plant.root)).1 ∧
      (d'.hang parent (plants.map Plant.root)).2 = newRoots parent plants := by
  cases parent with
  | none => exact ⟨grows, rfl⟩
  | some above => exact ⟨grows.hang (rooted above rfl), rfl⟩

def Plants (d : Document) (parent : Option NodeId) (sprouts : List Sprout) : Prop :=
  ∃ plants, Grows d parent plants (d.plantAll parent sprouts).1 ∧
    (d.plantAll parent sprouts).2 = newRoots parent plants ∧
    trees plants = Sprout.forestTrees sprouts

theorem Plants.cons {sprout : Sprout} {rest : List Sprout} (rooted : d.Rooted parent)
    (grows : Grows d parent plants (d.plant parent sprout).1)
    (roots : (d.plant parent sprout).2 = newRoots parent plants)
    (same : trees plants = sprout.trees)
    (beside : Plants (d.plant parent sprout).1 parent rest) : Plants d parent (sprout :: rest) := by
  obtain ⟨more, grown, moreRoots, moreSame⟩ := beside
  refine ⟨plants ++ more, grows.append grown rooted, ?_, ?_⟩
  · rw [newRoots_append, ← roots, ← moreRoots]
    rfl
  · rw [Plant.trees_append, same, moreSame, Sprout.forestTrees]

theorem plants_of_grounded (grounded : d.Grounded) (rooted : d.Rooted parent)
    (sprouts : List Sprout) : Plants d parent sprouts := by
  induction sprouts using Sprout.forest_induction generalizing d parent with
  | nil =>
    exact ⟨[], .refl grounded _, by cases parent <;> rfl, by simp [trees, Sprout.forestTrees]⟩
  | text content rest ih =>
    obtain ⟨grows, roots⟩ := (Grows.create grounded (.text content)).hang_parent rooted
    exact .cons rooted grows roots (by simp [trees, grow, Sprout.trees])
      (ih grows.grounded (grows.rooted rooted))
  | comment body rest ih =>
    obtain ⟨grows, roots⟩ := (Grows.create grounded (.comment body)).hang_parent rooted
    exact .cons rooted grows roots (by simp [trees, grow, Sprout.trees])
      (ih grows.grounded (grows.rooted rooted))
  | fragment markup rest ih =>
    obtain ⟨first, grown, ids, same⟩ := exists_grows_parseFragment grounded markup
    obtain ⟨grows, roots⟩ := grown.hang_parent rooted
    rw [← ids] at grows roots
    exact .cons rooted grows roots (by rw [same, Sprout.trees])
      (ih grows.grounded (grows.rooted rooted))
  | element tag attributes children rest below ih =>
    obtain ⟨top, roots⟩ := (Grows.create grounded (.element tag attributes)).hang_parent rooted
    obtain ⟨held, -, -⟩ := Holds.cons_iff.1 top.holds
    obtain ⟨inner, grown, -, same⟩ := below top.grounded (.some (contains_iff.2 ⟨_, held⟩))
    have grows := top.below grown rfl
    exact .cons rooted grows (roots.trans (by cases parent <;> rfl))
      (by simp [trees, grow, same, Sprout.trees]) (ih grows.grounded (grows.rooted rooted))

/-! ## Directives -/

/-- The second document holds plants on the same nodes in place of the first one's; nothing else has
changed. -/
structure Redrawn (d : Document) (parent : Option NodeId) (plants : List Plant) (d' : Document)
    (plants' : List Plant) : Prop where
  grounded : d'.Grounded
  holds : d'.Holds parent plants'
  leafy : Leafy plants'
  ids : ids plants' = ids plants
  elements : elements plants' = elements plants
  roots : plants'.map Plant.root = plants.map Plant.root
  elsewhere : ∀ id, id ∉ Plant.ids plants → d'.node? id = d.node? id

theorem Redrawn.refl (grounded : d.Grounded) (holds : d.Holds parent plants)
    (leafy : Leafy plants) :
    Redrawn d parent plants d plants :=
  ⟨grounded, holds, leafy, rfl, rfl, rfl, fun _ _ => rfl⟩

theorem Redrawn.trans (first : Redrawn d parent plants d' plants')
    (second : Redrawn d' parent plants' d'' plants'') : Redrawn d parent plants d'' plants'' :=
  ⟨second.grounded, second.holds, second.leafy, second.ids.trans first.ids,
    second.elements.trans first.elements, second.roots.trans first.roots, fun id outside =>
      (second.elsewhere id (first.ids ▸ outside)).trans (first.elsewhere id outside)⟩

theorem Grows.redrawn (grows : Grows d none plants d')
    (redrawn : Redrawn d' none plants d'' plants') : Grows d none plants' d'' where
  grounded := redrawn.grounded
  fresh := redrawn.ids ▸ grows.fresh
  nodup := redrawn.ids ▸ grows.nodup
  leafy := redrawn.leafy
  holds := redrawn.holds
  elsewhere := fun id outside => by
    rw [redrawn.ids] at outside
    rw [redrawn.elsewhere id outside, grows.node?_of_roots outside]
    simp

theorem Redrawn.append {rest rest' : List Plant} (first : Redrawn d parent plants d' plants')
    (nodup : (Plant.ids (plants ++ rest)).Nodup) (second : Redrawn d' parent rest d'' rest') :
    Redrawn d parent (plants ++ rest) d'' (plants' ++ rest') := by
  rw [Plant.ids_append] at nodup
  have apart := (List.nodup_append.1 nodup).2.2
  refine ⟨second.grounded, Holds.append_iff.2 ⟨first.holds.congr ?_, second.holds⟩,
    Plant.leafy_append.2 ⟨first.leafy, second.leafy⟩, by simp [first.ids, second.ids], ?_,
    by simp [first.roots, second.roots], ?_⟩
  · intro id inside
    rw [first.ids] at inside
    exact second.elsewhere id fun inRest => apart id inside id inRest rfl
  · rw [Plant.elements_append, Plant.elements_append, first.elements, second.elements]
  · intro id outside
    rw [Plant.ids_append, List.mem_append, not_or] at outside
    rw [second.elsewhere id outside.2, first.elsewhere id outside.1]

theorem Redrawn.below {id : NodeId} {kind kind' : Kind}
    (nodup : (Plant.ids [.node id kind plants]).Nodup) (isElement : kind.isElement)
    (isElement' : kind'.isElement)
    (top : d'.node? id = some ⟨kind', parent, plants.map Plant.root⟩)
    (elsewhere : ∀ other, other ≠ id → d'.node? other = d.node? other)
    (inner : Redrawn d' (some id) plants d'' plants') :
    Redrawn d parent [.node id kind plants] d'' [.node id kind' plants'] := by
  simp only [Plant.ids, List.append_nil, List.nodup_cons] at nodup
  refine ⟨inner.grounded, Holds.cons_iff.2 ⟨?_, inner.holds, .nil⟩, ?_, ?_, ?_, rfl, ?_⟩
  · rw [inner.elsewhere id nodup.1, top, inner.roots]
  · simp [Leafy, isElement', inner.leafy]
  · simp [Plant.ids, inner.ids]
  · simp [Plant.elements, isElement, isElement', inner.elements]
  · intro other outside
    simp only [Plant.ids, List.append_nil, List.mem_cons, not_or] at outside
    rw [inner.elsewhere other outside.2, elsewhere other outside.1]

open Template.Directive (Step overForest overTree overSteps)

/-- A step over the elements of plants changes their trees as the step over trees does. -/
def Applies (step : Step) (record : Value) (d : Document) (parent : Option NodeId)
    (plants : List Plant) : Prop :=
  ∃ d' plants', Redrawn d parent plants d' plants' ∧
    trees plants' = (overForest step record (trees plants)).1 ∧
    ∀ more, d.applyStep step record (elements plants ++ more) =
      match (overForest step record (trees plants)).2 with
      | some failure => (d', some failure)
      | none => d'.applyStep step record more

theorem attributes_of_node? {id : NodeId} {tag : String} {attributes : Attributes}
    {children : List NodeId} (held : d.node? id = some ⟨.element tag attributes, parent, children⟩) :
    d.attributes id = attributes := by
  simp [Document.attributes, kind?, held]

theorem node?_modifyAttributes {id : NodeId} {tag : String} {attributes : Attributes}
    {children : List NodeId} (held : d.node? id = some ⟨.element tag attributes, parent, children⟩)
    (f : Attributes → Attributes) (other : NodeId) :
    (d.modifyAttributes id f).node? other =
      if other = id then some ⟨.element tag (f attributes), parent, children⟩
      else d.node? other := by
  rw [modifyAttributes, node?_modify]
  by_cases same : other = id
  · subst same
    simp [held]
  · simp [same, Ne.symm same]

section

variable {step : Step} {record : Value} {id : NodeId} {tag : String} {attributes changed : Attributes}
  {children : List NodeId} (held : d.node? id = some ⟨.element tag attributes, parent, children⟩)
include held

theorem applyStep_stopped {failure : TemplateError}
    (stopped : step record attributes = (changed, some failure)) (more : List NodeId) :
    d.applyStep step record (id :: more) =
      (d.modifyAttributes id fun _ => changed, some failure) := by
  simp only [applyStep, attributes_of_node? held, stopped]

theorem applyStep_changed (went : step record attributes = (changed, none)) (more : List NodeId) :
    d.applyStep step record (id :: more) =
      (d.modifyAttributes id fun _ => changed).applyStep step record more := by
  simp only [applyStep, attributes_of_node? held, went]

end

theorem Applies.beside {step : Step} {record : Value} {id : NodeId} {kind : Kind}
    {rest : List Plant} (grounded : d.Grounded) (holds : d.Holds parent (.node id kind [] :: rest))
    (nodup : (ids (.node id kind [] :: rest)).Nodup) (isLeaf : kind.isElement = false)
    (applies : Applies step record d parent rest) :
    Applies step record d parent (.node id kind [] :: rest) := by
  obtain ⟨d', rest', redrawn, same, runs⟩ := applies
  obtain ⟨top, -, -⟩ := Holds.cons_iff.1 holds
  have swept : overTree step record (grow kind []) = (grow kind [], none) := by
    cases kind with
    | element tag attributes => simp [Kind.isElement] at isLeaf
    | text content => rfl
    | comment body => rfl
  have leaf : Redrawn d parent [.node id kind []] d [.node id kind []] :=
    .refl grounded (Holds.cons_iff.2 ⟨top, .nil, .nil⟩) (by simp [Leafy])
  refine ⟨d', .node id kind [] :: rest', .append leaf nodup redrawn, ?_, ?_⟩
  · simp [trees, overForest, swept, same]
  · intro more
    simpa [trees, overForest, swept, elements, isLeaf] using runs more

theorem Applies.element {step : Step} {record : Value} {id : NodeId} {tag : String}
    {attributes : Attributes} {children rest : List Plant} (grounded : d.Grounded)
    (holds : d.Holds parent (.node id (.element tag attributes) children :: rest))
    (nodup : (ids (.node id (.element tag attributes) children :: rest)).Nodup)
    (leafy : Leafy (.node id (.element tag attributes) children :: rest))
    (below : ∀ {d : Document}, d.Grounded → d.Holds (some id) children →
      Applies step record d (some id) children)
    (beside : ∀ {d : Document}, d.Grounded → d.Holds parent rest →
      Applies step record d parent rest) :
    Applies step record d parent (.node id (.element tag attributes) children :: rest) := by
  obtain ⟨top, heldBelow, heldBeside⟩ := Holds.cons_iff.1 holds
  obtain ⟨-, leafyBelow, leafyBeside⟩ := by simpa only [Leafy] using leafy
  have topNodup := nodup
  rw [Plant.ids_cons] at topNodup
  obtain ⟨⟨notBelow, notBeside⟩, -, -, apart⟩ := by
    simpa only [ids, List.cons_append, List.nodup_cons, List.mem_append, not_or,
      List.nodup_append] using nodup
  generalize stepEq : step record attributes = outcome
  obtain ⟨changed, stopped⟩ := outcome
  generalize changeEq : d.modifyAttributes id (fun _ => changed) = d₁
  have grounded₁ : d₁.Grounded := changeEq ▸ grounded.modifyAttributes id _
  have slots : ∀ other, d₁.node? other = _ := changeEq ▸ node?_modifyAttributes top fun _ => changed
  have elsewhere : ∀ other, other ≠ id → d₁.node? other = d.node? other := fun other differ => by
    rw [slots, if_neg differ]
  have top₁ : d₁.node? id = some ⟨.element tag changed, parent, children.map Plant.root⟩ := by
    rw [slots, if_pos rfl]
  have above {d₂ : Document} {children' : List Plant}
      (inner : Redrawn d₁ (some id) children d₂ children') :
      Redrawn d parent [.node id (.element tag attributes) children] d₂
        [.node id (.element tag changed) children'] :=
    .below (List.nodup_append.1 topNodup).1 rfl rfl top₁ elsewhere inner
  have below₁ : d₁.Holds (some id) children := heldBelow.congr fun other inside =>
    elsewhere other fun same => notBelow (same ▸ inside)
  have beside₁ : d₁.Holds parent rest := heldBeside.congr fun other inside =>
    elsewhere other fun same => notBeside (same ▸ inside)
  have listed : ∀ more, elements (.node id (.element tag attributes) children :: rest) ++ more =
      id :: (elements children ++ (elements rest ++ more)) := by
    simp [elements, Kind.isElement]
  -- The step is made at the top, then below and then beside it, as far as nothing fails.
  cases stopped with
  | some failure =>
    refine ⟨d₁, .node id (.element tag changed) children :: rest,
      (above (.refl grounded₁ below₁ leafyBelow)).append nodup
        (.refl grounded₁ beside₁ leafyBeside), ?_, ?_⟩
    · simp [trees, grow, overForest, overTree, stepEq]
    · intro more
      rw [listed, applyStep_stopped top stepEq, changeEq]
      simp [trees, grow, overForest, overTree, stepEq]
  | none =>
    obtain ⟨d₂, children', redrawn, same, runs⟩ := below grounded₁ below₁
    have beside₂ : d₂.Holds parent rest := beside₁.congr fun other inside =>
      redrawn.elsewhere other fun both => apart other both other inside rfl
    generalize sweptEq : overForest step record (trees children) = swept at same runs
    obtain ⟨inner, stopped⟩ := swept
    cases stopped with
    | some failure =>
      refine ⟨d₂, .node id (.element tag changed) children' :: rest,
        (above redrawn).append nodup (.refl redrawn.grounded beside₂ leafyBeside), ?_, ?_⟩
      · simp [trees, grow, overForest, overTree, stepEq, sweptEq, same]
      · intro more
        rw [listed, applyStep_changed top stepEq, changeEq, runs]
        simp [trees, grow, overForest, overTree, stepEq, sweptEq]
    | none =>
      obtain ⟨d₃, rest', redrawn', same', runs'⟩ := beside redrawn.grounded beside₂
      refine ⟨d₃, .node id (.element tag changed) children' :: rest',
        (above redrawn).append nodup redrawn', ?_, ?_⟩
      · simp [trees, grow, overForest, overTree, stepEq, sweptEq, same, same']
      · intro more
        rw [listed, applyStep_changed top stepEq, changeEq, runs, runs']
        simp [trees, grow, overForest, overTree, stepEq, sweptEq]

theorem applies_of_holds (step : Step) (record : Value) (grounded : d.Grounded)
    (holds : d.Holds parent plants) (nodup : (ids plants).Nodup) (leafy : Leafy plants) :
    Applies step record d parent plants := by
  induction plants using Plant.forest_induction generalizing d parent with
  | nil =>
    exact ⟨d, [], .refl grounded holds leafy, by simp [trees, overForest],
      by simp [trees, overForest, elements]⟩
  | cons id kind children rest below beside =>
    obtain ⟨leaf, leafyBelow, leafyBeside⟩ := by simpa only [Leafy] using leafy
    obtain ⟨-, belowNodup, besideNodup, -⟩ := by
      simpa only [ids, List.cons_append, List.nodup_cons, List.nodup_append] using nodup
    cases kind with
    | element tag attributes =>
      exact .element grounded holds nodup leafy
        (fun grounded held => below grounded held belowNodup leafyBelow)
        fun grounded held => beside grounded held besideNodup leafyBeside
    | text content =>
      obtain rfl : children = [] := by simpa [Kind.isElement] using leaf
      exact .beside grounded holds nodup rfl
        (beside grounded (Holds.cons_iff.1 holds).2.2 besideNodup leafyBeside)
    | comment body =>
      obtain rfl : children = [] := by simpa [Kind.isElement] using leaf
      exact .beside grounded holds nodup rfl
        (beside grounded (Holds.cons_iff.1 holds).2.2 besideNodup leafyBeside)

theorem exists_redrawn_applySteps (record : Value) (steps : List Step) (grounded : d.Grounded)
    (holds : d.Holds parent plants) (nodup : (ids plants).Nodup) (leafy : Leafy plants) :
    ∃ d' plants', Redrawn d parent plants d' plants' ∧
      overSteps record steps (trees plants) =
        (trees plants', (d.applySteps record (elements plants) steps).2) ∧
      (d.applySteps record (elements plants) steps).1 = d' := by
  induction steps generalizing d plants with
  | nil => exact ⟨d, plants, .refl grounded holds leafy, rfl, rfl⟩
  | cons step rest ih =>
    obtain ⟨d₁, plants₁, redrawn, same, runs⟩ :=
      applies_of_holds step record grounded holds nodup leafy
    have run := runs []
    rw [List.append_nil] at run
    generalize sweptEq : overForest step record (trees plants) = swept at same run
    obtain ⟨forest, stopped⟩ := swept
    cases stopped with
    | some failure =>
      exact ⟨d₁, plants₁, redrawn, by simp [overSteps, sweptEq, applySteps, run, same],
        by simp [applySteps, run]⟩
    | none =>
      obtain ⟨d₂, plants₂, redrawn', same', last⟩ :=
        ih redrawn.grounded redrawn.holds (redrawn.ids ▸ nodup) redrawn.leafy
      rw [redrawn.elements] at same' last
      simp only [applyStep] at run
      refine ⟨d₂, plants₂, redrawn.trans redrawn', ?_, by simp [applySteps, run, last]⟩
      simp [overSteps, sweptEq, applySteps, run, ← same', same]

theorem Grows.removable (grows : Grows d none plants d') (grounded : d.Grounded) :
    d'.Removable none plants :=
  .of_root_not_mem grows.holds grows.nodup (.none _) (grows.root_not_mem grounded)

theorem Grows.sameNodes_removeNodes (grows : Grows d none plants d') (grounded : d.Grounded) :
    d.SameNodes (d'.removeNodes (plants.map Plant.root)) := by
  intro id
  rw [(grows.removable grounded).node?_removeNodes]
  by_cases inside : id ∈ ids plants
  · rw [if_pos inside, grows.fresh id inside]
  · rw [if_neg inside, if_neg (by simp), grows.node?_of_roots inside]

theorem Grows.outerHtml (grows : Grows d none plants d') (grounded : d.Grounded) {plant : Plant}
    (inside : plant ∈ plants) :
    d'.outerHtml plant.root = String.ofList (Tree.forestMarkup false (trees [plant])) := by
  obtain ⟨before, behind, rfl⟩ := List.append_of_mem inside
  have holds := ((Holds.cons plant).1 (Holds.append_iff.1 grows.holds).2).1
  have nodup := grows.nodup
  have notRoot := grows.root_not_mem grounded
  rw [Plant.ids_append, Plant.ids_cons plant behind] at nodup notRoot
  have topNodup := (List.nodup_append.1 (List.nodup_append.1 nodup).2.1).1
  refine outerHtml_of_holds holds topNodup fun same => notRoot ?_
  have atTop : plant.root ∈ ids [plant] := Plant.root_mem_ids List.mem_cons_self
  simp [← same, atTop]

theorem Grows.join_outerHtml (grows : Grows d none plants d') (grounded : d.Grounded) :
    String.join ((plants.map Plant.root).map d'.outerHtml) = Tree.printForest (trees plants) := by
  have printed (some : List Plant) (inside : some ⊆ plants) :
      String.join ((some.map Plant.root).map d'.outerHtml) = Tree.printForest (trees some) := by
    induction some with
    | nil => simp [trees, Tree.printForest, Tree.forestMarkup]
    | cons plant rest ih =>
      rw [List.map_cons, List.map_cons, String.join_cons,
        grows.outerHtml grounded (inside List.mem_cons_self),
        ih fun _ later => inside (List.mem_cons_of_mem _ later), Plant.trees_cons plant rest]
      simp [Tree.printForest]
  exact printed plants (List.Subset.refl _)

end Document

namespace Template

open Document (Plant Grows SameNodes)

variable {d : Document} {template : Template} {setting : Setting} {record : Value}

theorem exists_grows_renderInto (grounded : d.Grounded) (template : Template) (setting : Setting)
    (record : Value) :
    ∃ d' plants failure, Grows d none plants d' ∧
      template.trees setting record =
        (match failure with
        | some cause => .error cause
        | none => .ok (Plant.trees plants)) ∧
      template.renderInto setting record d =
        match failure with
        | some cause => (d'.removeNodes (plants.map Plant.root), .error cause)
        | none => (d', .ok (plants.map Plant.root)) := by
  obtain ⟨plants, grows, roots, same⟩ :=
    Document.plants_of_grounded grounded (.none d) (template.sprouts setting record).1
  generalize sproutsEq : template.sprouts setting record = made at grows roots same
  obtain ⟨sprouts, failure⟩ := made
  generalize plantedEq : d.plantAll none sprouts = planted at grows roots
  obtain ⟨d₁, newRoots⟩ := planted
  change newRoots = plants.map Plant.root at roots
  subst roots
  cases failure with
  | some cause =>
    exact ⟨d₁, plants, some cause, grows, by simp [Template.trees, sproutsEq],
      by simp [renderInto, sproutsEq, plantedEq]⟩
  | none =>
    obtain ⟨d₂, plants', redrawn, steps, last⟩ := Document.exists_redrawn_applySteps record
      Directive.steps grows.grounded grows.holds grows.nodup grows.leafy
    have listed : ((plants.map Plant.root).flatMap d₁.subtree).filter d₁.isElement =
        Plant.elements plants := by
      rw [Document.subtree_of_holds grows.holds grows.nodup,
        grows.holds.filter_isElement (grows.root_not_mem grounded)]
    have applied : d₁.applySteps record (Plant.elements plants) Directive.steps =
        (d₂, (d₁.applySteps record (Plant.elements plants) Directive.steps).2) :=
      Prod.ext last rfl
    generalize (d₁.applySteps record (Plant.elements plants) Directive.steps).2 = failure
      at steps applied
    -- Directives write attributes only, so what they leave has the roots that were planted.
    refine ⟨d₂, plants', failure, grows.redrawn redrawn, ?_, ?_⟩
    · simp only [Template.trees, sproutsEq, Directive.applyToForest, ← same, steps]
      cases failure <;> rfl
    · simp only [renderInto, sproutsEq, plantedEq, Document.applyDirectives, listed, applied,
        redrawn.roots]
      cases failure <;> rfl

theorem renderInto_ok (grounded : d.Grounded) {forest : List Tree}
    (given : template.trees setting record = .ok forest) :
    ∃ d' plants, template.renderInto setting record d = (d', .ok (plants.map Plant.root)) ∧
      Grows d none plants d' ∧ Plant.trees plants = forest := by
  obtain ⟨d', plants, failure, grows, same, run⟩ :=
    exists_grows_renderInto grounded template setting record
  cases failure with
  | some cause => simp [same] at given
  | none =>
    rw [given, Except.ok.injEq] at same
    exact ⟨d', plants, run, grows, same.symm⟩

theorem renderInto_error (grounded : d.Grounded) {cause : TemplateError}
    (given : template.trees setting record = .error cause) :
    ∃ d', template.renderInto setting record d = (d', .error cause) ∧ d'.Grounded ∧
      d.SameNodes d' := by
  obtain ⟨d', plants, failure, grows, same, run⟩ :=
    exists_grows_renderInto grounded template setting record
  cases failure with
  | none => simp [same] at given
  | some other =>
    rw [given, Except.error.injEq] at same
    exact ⟨_, same ▸ run, (grows.removable grounded).grounded_removeNodes grows.grounded
      (grows.root_not_mem grounded), grows.sameNodes_removeNodes grounded⟩

theorem render_eq (template : Template) (setting : Setting) (record : Value) :
    template.render setting record = (template.trees setting record).map Tree.printForest := by
  obtain ⟨d', plants, failure, grows, same, run⟩ :=
    exists_grows_renderInto Document.empty_wellFormed.grounded template setting record
  rw [render, same, run]
  cases failure with
  | some cause => rfl
  | none =>
    simp only [Except.map]
    rw [← grows.join_outerHtml Document.empty_wellFormed.grounded]

end Template

end LiveList
