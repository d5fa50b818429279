import LiveList.Proofs.Document.Reparsing
import LiveList.Proofs.Template.Alike
import LiveList.Proofs.Template.Directives
import LiveList.Proofs.Template.Rendering
import LiveList.Proofs.Template.Segments

namespace LiveList.Template

open Json (Value)
open Markup (Attributes ReadForest Tree)

def reserved : List String := loopAttribute :: Directive.rules.map Directive.Rule.directive

example : reserved =
    ["data-loop", "data-checked", "data-hide", "data-show", "data-style", "data-class"] := by
  decide

def StaticAttributes (attributes : Attributes) : Prop :=
  ∀ pair ∈ attributes, pair.1 ∉ reserved ∧ ¬ opening <:+: pair.2.toList

structure Static (forest : List Tree) : Prop where
  texts : ∀ content ∈ Tree.forestTexts forest, ¬ opening <:+: content.toList
  elements : Tree.EachForest (fun _ attributes _ => StaticAttributes attributes) (fun _ => True) forest

instance (attributes : Attributes) : Decidable (StaticAttributes attributes) :=
  inferInstanceAs (Decidable (∀ pair ∈ attributes, _))

instance (forest : List Tree) : Decidable (Static forest) :=
  decidable_of_iff (_ ∧ _) ⟨fun ⟨texts, elements⟩ => ⟨texts, elements⟩,
    fun ⟨texts, elements⟩ => ⟨texts, elements⟩⟩

variable {attributes : Attributes}

theorem StaticAttributes.get? (static : StaticAttributes attributes) {name : String}
    (isReserved : name ∈ reserved) : attributes.get? name = none := by
  rw [OrderedMap.get?_eq_none_iff]
  intro inside
  obtain ⟨pair, listed, rfl⟩ := List.mem_map.1 inside
  exact (static pair listed).1 isReserved

theorem segments_of_static {text : String} (static : ¬ opening <:+: text.toList) :
    segments text = .ok (literalSegment text.toList) :=
  segmentsFrom_literal static

theorem evalSegments_literal (filters : Filters) (scope : Scope) (text : String) :
    evalSegments filters scope false (literalSegment text.toList) = .ok text := by
  unfold literalSegment
  split
  case isTrue empty => rw [evalSegments, String.toList_eq_nil_iff.1 empty]
  case isFalse =>
    rw [String.ofList_toList]
    exact congrArg Except.ok (String.append_empty)

theorem textSprout_literal (setting : Setting) (scope : Scope) (text : String) :
    textSprout setting scope (literalSegment text.toList) = ([.text text], none) := by
  have fixed : (literalSegment text.toList).any Segment.isDynamic = false := by
    unfold literalSegment
    split <;> rfl
  simp only [textSprout, fixed, Bool.and_false, evalSegments_literal, Bool.false_eq_true, if_false]

theorem compileAttributes_static (static : StaticAttributes attributes) :
    compileAttributes attributes =
      .ok (attributes.map fun pair => (pair.1, literalSegment pair.2.toList)) := by
  induction attributes with
  | nil => rfl
  | cons pair rest ih =>
    obtain ⟨notReserved, fixed⟩ := static pair List.mem_cons_self
    have notLoop : pair.1 ≠ loopAttribute := fun same =>
      notReserved (same ▸ List.mem_cons_self)
    rw [compileAttributes, if_neg notLoop, segments_of_static fixed,
      ih fun other inside => static other (List.mem_cons_of_mem _ inside)]
    rfl

theorem evalAttributes_literal (filters : Filters) (scope : Scope) (attributes made : Attributes) :
    evalAttributes filters scope
      (attributes.map fun pair => (pair.1, literalSegment pair.2.toList)) made =
      (OrderedMap.putAll made attributes, none) := by
  induction attributes generalizing made with
  | nil => rfl
  | cons pair rest ih =>
    rw [List.map_cons, evalAttributes, evalSegments_literal]
    exact ih (made.put pair.1 pair.2)

def Reproduces (nodes : List Node) (forest : List Tree) : Prop :=
  ∀ setting scope, ∃ sprouts, forestSprouts setting scope nodes = (sprouts, none) ∧
    Sprout.forestTrees sprouts = forest

theorem Reproduces.cons {node : Node} {rest : List Node} {tree : Tree} {forest : List Tree}
    (here : ∀ setting scope, ∃ sprout, nodeSprouts setting scope node = ([sprout], none) ∧
      sprout.trees = [tree])
    (beside : Reproduces rest forest) : Reproduces (node :: rest) (tree :: forest) := by
  intro setting scope
  obtain ⟨sprout, made, grown⟩ := here setting scope
  obtain ⟨sprouts, madeBeside, grownBeside⟩ := beside setting scope
  refine ⟨sprout :: sprouts, ?_, ?_⟩
  · rw [forestSprouts_cons, made, madeBeside]
    rfl
  · rw [Sprout.forestTrees, grown, grownBeside]
    rfl

theorem Reproduces.element {nodes : List Node} {children : List Tree}
    (inside : Reproduces nodes children) (distinct : (OrderedMap.keys attributes).Nodup)
    (tag : String) (setting : Setting) (scope : Scope) :
    ∃ sprout, nodeSprouts setting scope
        (.element tag (attributes.map fun pair => (pair.1, literalSegment pair.2.toList)) nodes) =
      ([sprout], none) ∧ sprout.trees = [.element tag attributes children] := by
  obtain ⟨sprouts, made, grown⟩ := inside setting scope
  have once : (OrderedMap.keys ([] ++ attributes)).Nodup := distinct
  refine ⟨.element tag attributes sprouts, ?_, ?_⟩
  · rw [nodeSprouts, elementSprout, evalAttributes_literal, OrderedMap.putAll_of_nodup once, made]
    rfl
  · rw [Sprout.trees, grown]

theorem exists_compileForest_static {forest : List Tree} (read : ReadForest forest)
    (static : Static forest) :
    ∃ nodes, compileForest forest = .ok nodes ∧ Reproduces nodes forest := by
  obtain ⟨texts, elements⟩ := static
  induction forest using Tree.forest_induction with
  | nil => exact ⟨[], rfl, fun _ _ => ⟨[], rfl, rfl⟩⟩
  | text content rest ih =>
    obtain ⟨fixed, texts⟩ := List.forall_mem_cons.1 texts
    obtain ⟨nodes, compiled, reproduces⟩ := ih read.2 texts elements.2
    refine ⟨.text (literalSegment content.toList) :: nodes, ?_, .cons ?_ reproduces⟩
    · rw [compileForest, compileTree, segments_of_static fixed, compiled]
      rfl
    · exact fun setting scope => ⟨.text content, textSprout_literal setting scope content, rfl⟩
  | comment body rest ih =>
    obtain ⟨nodes, compiled, reproduces⟩ := ih read.2 texts elements.2
    refine ⟨.comment body :: nodes, ?_, .cons ?_ reproduces⟩
    · rw [compileForest, compileTree, compiled]
      rfl
    · exact fun setting scope => ⟨.comment body, rfl, rfl⟩
  | element tag attributes children rest below beside =>
    obtain ⟨⟨element, readBelow⟩, readBeside⟩ := read
    obtain ⟨⟨bare, inside⟩, further⟩ := elements
    obtain ⟨textsBelow, textsBeside⟩ := List.forall_mem_append.1 texts
    obtain ⟨inner, compiledInner, reproducesInner⟩ := below readBelow textsBelow inside
    obtain ⟨nodes, compiled, reproduces⟩ := beside readBeside textsBeside further
    have noLoop : loopField? attributes = none := by
      rw [loopField?, bare.get? List.mem_cons_self, Option.map_none]
    refine ⟨_ :: nodes, ?_, .cons
      (reproducesInner.element element.attributes.distinct tag) reproduces⟩
    rw [compileForest, compileTree, compileAttributes_static bare, compiledInner, compiled]
    simp [elementNode, noLoop, bind, Except.bind, pure, Except.pure]

namespace Directive

theorem overForest_of_absent {step : Step} {directive target : String}
    (obeys : Obeys directive target step) (record : Value) {forest : List Tree}
    (absent : Tree.EachForest (fun _ attributes _ => OrderedMap.get? attributes directive = none)
      (fun _ => True) forest) : overForest step record forest = (forest, none) := by
  induction forest using Tree.forest_induction with
  | nil => rfl
  | text content rest ih => simp [overForest, overTree, ih absent.2]
  | comment body rest ih => simp [overForest, overTree, ih absent.2]
  | element tag attributes children rest below beside =>
    obtain ⟨⟨here, inside⟩, further⟩ := absent
    simp [overForest, overTree, obeys.absent record attributes here, below inside, beside further]

theorem applyToForest_static (record : Value) {forest : List Tree} (static : Static forest) :
    applyToForest record forest = (forest, none) := by
  have each : ∀ rule ∈ rules, overForest rule.step record forest = (forest, none) := by
    intro rule listed
    refine overForest_of_absent (sound_rules.obeys rule listed) record
      (static.elements.imp (fun _ _ _ bare => bare.get? ?_) fun _ _ => trivial)
    exact List.mem_cons_of_mem _ (List.mem_map_of_mem listed)
  rw [applyToForest, steps_eq]
  generalize rules = listed at each
  induction listed with
  | nil => rfl
  | cons rule rest ih =>
    rw [List.map_cons, overSteps, each rule List.mem_cons_self]
    exact ih fun other inside => each other (List.mem_cons_of_mem _ inside)

end Directive

/-- Static markup renders as itself, whatever the record, the filters and the setting. -/
theorem render_static {source : String}
    (static : Static ((Document.ofHtml source).forest
      ((Document.ofHtml source).children Document.root))) :
    ∃ template, compile source = .ok template ∧ ∀ setting record,
      template.render setting record = .ok ((Document.ofHtml source).innerHtml Document.root) := by
  rw [Document.forest_ofHtml] at static
  obtain ⟨nodes, compiled, reproduces⟩ :=
    exists_compileForest_static (Markup.readForest_parse source) static
  refine ⟨⟨source, nodes⟩, by rw [compile, compiled]; rfl, fun setting record => ?_⟩
  obtain ⟨made, sprouted, grown⟩ := reproduces setting ⟨record, none⟩
  have trees : Template.trees ⟨source, nodes⟩ setting record = .ok (Markup.parse source) := by
    rw [Template.trees, sprouts, sprouted]
    simp only [grown, Directive.applyToForest_static record static]
  rw [render_eq, trees, Document.innerHtml_ofHtml]
  rfl

def strayMarkup : String :=
  "<ul CLASS='a\x22' \x7b\x7bx\x7d\x7d><li>1 &lt; 2<li data-shown=c>\x7d\x7d&amp;lt;<br/></ul>" ++
    "<script>a < b \x7b</scripts><i hidden>c &gt; \x7b</i><!-- \x7b\x7b d -->"

theorem render_static_stray :
    Static ((Document.ofHtml strayMarkup).forest
      ((Document.ofHtml strayMarkup).children Document.root)) ∧
    ∃ template, compile strayMarkup = .ok template ∧ ∀ setting record,
      template.render setting record =
        .ok ((Document.ofHtml strayMarkup).innerHtml Document.root) := by
  have static : Static ((Document.ofHtml strayMarkup).forest
      ((Document.ofHtml strayMarkup).children Document.root)) := by
    decide +kernel
  exact ⟨static, render_static static⟩

end LiveList.Template
