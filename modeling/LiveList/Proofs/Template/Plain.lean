import LiveList.Proofs.Markup.Merging
import LiveList.Proofs.Markup.Read
import LiveList.Proofs.Template.Rendering
import LiveList.Proofs.Template.Roots

namespace LiveList.Template

open Json (Value)
open Markup (Attributes Tree PlainTag PlainName NamedBy PlainElement PlainComment PlainForest
  ReadElement isVoid isRawText braces)

structure PlainHead (tag : String) (names : List String) : Prop where
  plainTag : PlainTag tag
  notRaw : isRawText tag = false
  names : ∀ name ∈ names, PlainName name

mutual

def PlainNode : Node → Prop
  | .text _ => True
  | .comment body => PlainComment body
  | .element tag attributes children | .loop _ tag attributes children =>
    PlainHead tag (attributes.map Prod.fst) ∧ (isVoid tag → children = []) ∧ PlainNodes children

def PlainNodes : List Node → Prop
  | [] => True
  | node :: rest => PlainNode node ∧ PlainNodes rest

end

/-! ## Compiling -/

theorem names_compileAttributes {attributes : Attributes} {compiled : List (String × List Segment)}
    (run : compileAttributes attributes = .ok compiled) :
    compiled.map Prod.fst ⊆ OrderedMap.keys attributes := by
  induction attributes generalizing compiled with
  | nil =>
    cases run
    simp
  | cons first rest ih =>
    obtain ⟨name, value⟩ := first
    rw [compileAttributes] at run
    split at run
    · exact List.Subset.trans (ih run) (List.subset_cons_self _ _)
    · obtain ⟨parts, -, run⟩ := bind_eq_ok.1 run
      obtain ⟨more, compiledMore, run⟩ := bind_eq_ok.1 run
      cases run
      exact List.cons_subset_cons _ (ih compiledMore)

inductive Compiles : List Tree → List Node → Prop where
  | nil : Compiles [] []
  | text (content : String) {parts : List Segment} {rest : List Tree} {more : List Node}
      (beside : Compiles rest more) : Compiles (.text content :: rest) (.text parts :: more)
  | comment (body : String) {rest : List Tree} {more : List Node} (beside : Compiles rest more) :
      Compiles (.comment body :: rest) (.comment body :: more)
  | element {tag : String} {attributes : Attributes} {compiled : List (String × List Segment)}
      {children rest : List Tree} {inner more : List Node}
      (attributesRun : compileAttributes attributes = .ok compiled) (below : Compiles children inner)
      (beside : Compiles rest more) :
      Compiles (.element tag attributes children :: rest) (.element tag compiled inner :: more)
  | loop {field tag : String} {attributes : Attributes} {compiled : List (String × List Segment)}
      {children rest : List Tree} {inner more : List Node}
      (attributesRun : compileAttributes attributes = .ok compiled)
      (named : loopField? attributes = some field) (below : Compiles children inner)
      (beside : Compiles rest more) :
      Compiles (.element tag attributes children :: rest) (.loop field tag compiled inner :: more)

theorem compiles_of_ok {forest : List Tree} {nodes : List Node}
    (run : compileForest forest = .ok nodes) : Compiles forest nodes := by
  induction forest using Tree.forest_induction generalizing nodes with
  | nil =>
    cases run
    exact .nil
  | text content rest ih =>
    obtain ⟨node, first, run⟩ := bind_eq_ok.1 run
    obtain ⟨more, others, run⟩ := bind_eq_ok.1 run
    obtain ⟨parts, -, made⟩ := bind_eq_ok.1 first
    cases made
    cases run
    exact .text content (ih others)
  | comment body rest ih =>
    obtain ⟨node, first, run⟩ := bind_eq_ok.1 run
    obtain ⟨more, others, run⟩ := bind_eq_ok.1 run
    cases first
    cases run
    exact .comment body (ih others)
  | element tag attributes children rest below beside =>
    obtain ⟨node, first, run⟩ := bind_eq_ok.1 run
    obtain ⟨more, others, run⟩ := bind_eq_ok.1 run
    obtain ⟨compiled, attributesRun, first⟩ := bind_eq_ok.1 first
    obtain ⟨inner, innerRun, first⟩ := bind_eq_ok.1 first
    cases run
    unfold elementNode at first
    split at first
    · cases first
      exact .element attributesRun (below innerRun) (beside others)
    case h_2 field named =>
      split at first <;> cases first
      exact .loop attributesRun named (below innerRun) (beside others)

theorem Compiles.eq_nil {nodes : List Node} (compiles : Compiles [] nodes) : nodes = [] := by
  cases compiles
  rfl

theorem plainHead_of_compiled {tag : String} {attributes : Attributes} {children : List Tree}
    {compiled : List (String × List Segment)} (element : PlainElement tag attributes children)
    (notRaw : isRawText tag = false) (attributesRun : compileAttributes attributes = .ok compiled) :
    PlainHead tag (compiled.map Prod.fst) :=
  ⟨element.plainTag, notRaw,
    fun name inside => element.attributes.names name (names_compileAttributes attributesRun inside)⟩

theorem Compiles.plainNodes {forest : List Tree} {nodes : List Node}
    (compiles : Compiles forest nodes) (plain : PlainForest forest) : PlainNodes nodes := by
  induction compiles with
  | nil => trivial
  | text content _ ih => exact ⟨trivial, ih plain.2⟩
  | comment body _ ih => exact ⟨plain.1, ih plain.2⟩
  | element attributesRun inner _ below beside | loop attributesRun named inner _ below beside =>
    obtain ⟨⟨⟨element, notRaw⟩, inside⟩, plain⟩ := plain
    refine ⟨⟨plainHead_of_compiled element notRaw attributesRun, fun void => ?_, below inside⟩,
      beside plain⟩
    obtain rfl := element.leaf void
    exact inner.eq_nil

/-! ## Sprouts -/

mutual

def PlainSprout : Sprout → Prop
  | .text _ => True
  | .comment body => PlainComment body
  | .element tag attributes children =>
    PlainHead tag (OrderedMap.keys attributes) ∧ (OrderedMap.keys attributes).Nodup ∧
      (isVoid tag → children = []) ∧ PlainSprouts children
  | .fragment _ => False

def PlainSprouts : List Sprout → Prop
  | [] => True
  | sprout :: rest => PlainSprout sprout ∧ PlainSprouts rest

end

theorem plainSprouts_append {left right : List Sprout} :
    PlainSprouts (left ++ right) ↔ PlainSprouts left ∧ PlainSprouts right := by
  induction left with
  | nil => simp [PlainSprouts]
  | cons sprout rest ih => simp [PlainSprouts, ih, and_assoc]

theorem keys_evalAttributes (filters : Filters) (scope : Scope)
    (attributes : List (String × List Segment)) (made : Attributes)
    (distinct : (OrderedMap.keys made).Nodup) :
    (OrderedMap.keys (evalAttributes filters scope attributes made).1).Nodup ∧
      OrderedMap.keys (evalAttributes filters scope attributes made).1 ⊆
        OrderedMap.keys made ++ attributes.map Prod.fst := by
  induction attributes generalizing made with
  | nil => simpa [evalAttributes] using distinct
  | cons first rest ih =>
    obtain ⟨name, segments⟩ := first
    rw [evalAttributes]
    split
    · exact ⟨distinct, List.subset_append_left _ _⟩
    · case h_2 value _ =>
      obtain ⟨nodup, known⟩ := ih _ (OrderedMap.nodup_keys_put made name value distinct)
      refine ⟨nodup, List.Subset.trans known ?_⟩
      rw [OrderedMap.keys_put]
      intro other inside
      split at inside <;> simp at inside ⊢ <;> tauto

theorem plainSprouts_elementSprout (setting : Setting) (scope : Scope) {tag : String}
    {attributes : List (String × List Segment)} {children : Yield}
    (head : PlainHead tag (attributes.map Prod.fst)) (leaf : isVoid tag → children.1 = [])
    (plain : PlainSprouts children.1) :
    PlainSprouts (elementSprout setting scope tag attributes children).1 := by
  have made := keys_evalAttributes setting.filters scope attributes [] List.nodup_nil
  unfold elementSprout
  generalize evalAttributes setting.filters scope attributes [] = outcome at made
  obtain ⟨evaluated, failure⟩ := outcome
  obtain ⟨distinct, known⟩ := made
  have head : PlainHead tag (OrderedMap.keys evaluated) :=
    ⟨head.plainTag, head.notRaw, fun name inside => head.names name (known inside)⟩
  cases failure with
  | some failure => exact ⟨⟨head, distinct, fun _ => rfl, trivial⟩, trivial⟩
  | none => exact ⟨⟨head, distinct, leaf, plain⟩, trivial⟩

theorem plainSprouts_inTurn {α : Type} {make : α → Yield} (plain : ∀ a, PlainSprouts (make a).1)
    (items : List α) : PlainSprouts (inTurn make items).1 := by
  induction items with
  | nil => trivial
  | cons first rest ih =>
    have here := plain first
    rw [inTurn]
    generalize make first = outcome at here
    obtain ⟨made, failure⟩ := outcome
    cases failure with
    | some failure => exact here
    | none => exact plainSprouts_append.2 ⟨here, ih⟩

theorem Node.forest_induction {motive : List Node → Prop} (nil : motive [])
    (text : ∀ segments rest, motive rest → motive (.text segments :: rest))
    (comment : ∀ body rest, motive rest → motive (.comment body :: rest))
    (element : ∀ tag attributes children rest, motive children → motive rest →
      motive (.element tag attributes children :: rest))
    (loop : ∀ field tag attributes children rest, motive children → motive rest →
      motive (.loop field tag attributes children :: rest)) :
    ∀ nodes, motive nodes
  | [] => nil
  | .text segments :: rest =>
    text segments rest (forest_induction nil text comment element loop rest)
  | .comment body :: rest => comment body rest (forest_induction nil text comment element loop rest)
  | .element tag attributes children :: rest =>
    element tag attributes children rest (forest_induction nil text comment element loop children)
      (forest_induction nil text comment element loop rest)
  | .loop field tag attributes children :: rest =>
    loop field tag attributes children rest (forest_induction nil text comment element loop children)
      (forest_induction nil text comment element loop rest)

theorem plainSprouts_cons {setting : Setting} {scope : Scope} {node : Node} {rest : List Node}
    (first : PlainSprouts (nodeSprouts setting scope node).1)
    (others : PlainSprouts (forestSprouts setting scope rest).1) :
    PlainSprouts (forestSprouts setting scope (node :: rest)).1 := by
  rw [forestSprouts]
  generalize nodeSprouts setting scope node = outcome at first
  obtain ⟨made, failure⟩ := outcome
  cases failure with
  | some failure => exact first
  | none => exact plainSprouts_append.2 ⟨first, others⟩

theorem plainSprouts_forestSprouts {setting : Setting} (escaped : setting.rawHtml = false)
    {nodes : List Node} (plain : PlainNodes nodes) (scope : Scope) :
    PlainSprouts (forestSprouts setting scope nodes).1 := by
  induction nodes using Node.forest_induction generalizing scope with
  | nil => trivial
  | text segments rest ih =>
    refine plainSprouts_cons ?_ (ih plain.2 scope)
    simp only [nodeSprouts, textSprout, escaped, Bool.false_and]
    split
    · trivial
    · exact ⟨trivial, trivial⟩
  | comment body rest ih => exact plainSprouts_cons ⟨plain.1, trivial⟩ (ih plain.2 scope)
  | element tag attributes children rest below beside =>
    obtain ⟨⟨head, leaf, inside⟩, plain⟩ := plain
    refine plainSprouts_cons ?_ (beside plain scope)
    rw [nodeSprouts]
    refine plainSprouts_elementSprout setting scope head (fun void => ?_) (below inside scope)
    rw [leaf void]
    rfl
  | loop field tag attributes children rest below beside =>
    obtain ⟨⟨head, leaf, inside⟩, plain⟩ := plain
    refine plainSprouts_cons ?_ (beside plain scope)
    rw [nodeSprouts]
    split
    · trivial
    · refine plainSprouts_inTurn (fun item => ?_) _
      refine plainSprouts_elementSprout setting _ head (fun void => ?_) (below inside _)
      rw [leaf void]
      rfl

theorem plainForest_forestTrees {sprouts : List Sprout} (plain : PlainSprouts sprouts) :
    PlainForest (Sprout.forestTrees sprouts) := by
  induction sprouts using Sprout.forest_induction with
  | nil => trivial
  | text content rest ih => exact ⟨trivial, ih plain.2⟩
  | comment body rest ih => exact ⟨plain.1, ih plain.2⟩
  | fragment markup rest => exact plain.1.elim
  | element tag attributes children rest below beside =>
    obtain ⟨⟨head, distinct, leaf, inside⟩, plain⟩ := plain
    refine ⟨⟨⟨⟨head.plainTag, ⟨head.names, distinct⟩, fun void => ?_⟩, head.notRaw⟩,
      below inside⟩, beside plain⟩
    rw [leaf void]
    rfl

/-! ## Directives -/

namespace Directive

def Tame (step : Step) : Prop :=
  ∀ record attributes, NamedBy PlainName attributes → NamedBy PlainName (step record attributes).1

theorem plainName_checked : PlainName "checked" := Markup.plainName_of_all (by decide) rfl rfl

theorem plainName_style : PlainName "style" := Markup.plainName_of_all (by decide) rfl rfl

theorem plainName_class : PlainName "class" := Markup.plainName_of_all (by decide) rfl rfl

variable {attributes : Attributes}

theorem named_setStyle (named : NamedBy PlainName attributes) (property value : String) :
    NamedBy PlainName (setStyle property value attributes) := by
  unfold setStyle writeStyle
  split
  · exact named.remove _
  · exact named.put plainName_style _

theorem named_writeClasses (named : NamedBy PlainName attributes) (names : List String) :
    NamedBy PlainName (writeClasses attributes names) := by
  unfold writeClasses
  split
  · exact named.remove _
  · exact named.put plainName_class _

theorem named_toggleClass (named : NamedBy PlainName attributes) (name : String) (on : Bool) :
    NamedBy PlainName (toggleClass name on attributes) := by
  unfold toggleClass
  dsimp only
  split
  · exact named_writeClasses named _
  · split
    · exact named_writeClasses named _
    · exact named

theorem tame_onAttribute (name : String) {act : Value → String → Attributes → Outcome}
    (acts : ∀ record spec attributes, NamedBy PlainName attributes →
      NamedBy PlainName (act record spec attributes).1) : Tame (onAttribute name act) := by
  intro record attributes named
  unfold onAttribute
  split
  · exact named
  · exact acts _ _ _ named

theorem named_onEntries (directive : ObjectDirective)
    {act : String → String → Attributes → Except TemplateError Attributes}
    (acts : ∀ key text attributes changed, NamedBy PlainName attributes →
      act key text attributes = .ok changed → NamedBy PlainName changed)
    (fields : Json.Fields) (named : NamedBy PlainName attributes) :
    NamedBy PlainName (onEntries directive act fields attributes).1 := by
  induction fields generalizing attributes with
  | nil => exact named
  | cons first rest ih =>
    obtain ⟨key, value⟩ := first
    unfold onEntries
    split
    · exact named
    · split
      · exact named
      · case h_2 changed run => exact ih (acts _ _ _ _ named run)

theorem tame_objectStep (directive : ObjectDirective)
    {act : Value → String → String → Attributes → Except TemplateError Attributes}
    (acts : ∀ record key text attributes changed, NamedBy PlainName attributes →
      act record key text attributes = .ok changed → NamedBy PlainName changed) :
    Tame (objectStep directive act) := by
  refine tame_onAttribute _ fun record spec attributes named => ?_
  split
  · exact named
  · exact named_onEntries directive (acts record) _ named

theorem tame_of_mem_steps {step : Step} (listed : step ∈ steps) : Tame step := by
  simp only [steps, List.mem_cons, List.not_mem_nil, or_false] at listed
  rcases listed with rfl | rfl | rfl | rfl | rfl
  · refine tame_onAttribute _ fun record field attributes named => ?_
    split
    · exact named.put plainName_checked _
    · exact named.remove _
  · exact tame_onAttribute _ fun record field attributes named => named_setStyle named _ _
  · exact tame_onAttribute _ fun record field attributes named => named_setStyle named _ _
  · refine tame_objectStep _ fun record key text attributes changed named run => ?_
    split at run
    · cases run
    · cases run
      exact named_setStyle named _ _
  · refine tame_objectStep _ fun record key text attributes changed named run => ?_
    cases run
    exact named_toggleClass named _ _

theorem plainForest_overForest {step : Step} (tame : Tame step) (record : Value) {forest : List Tree}
    (plain : PlainForest forest) : PlainForest (overForest step record forest).1 := by
  induction forest using Tree.forest_induction with
  | nil => trivial
  | text content rest ih => exact ⟨trivial, ih plain.2⟩
  | comment body rest ih => exact ⟨plain.1, ih plain.2⟩
  | element tag attributes children rest below beside =>
    obtain ⟨⟨⟨element, notRaw⟩, inside⟩, plain⟩ := plain
    have named := tame record attributes element.attributes
    have below := below inside
    have leaf : isVoid tag → (overForest step record children).1 = [] := fun void => by
      rw [element.leaf void]
      rfl
    rw [overForest, overTree]
    generalize step record attributes = outcome at named
    generalize overForest step record children = inner at below leaf
    obtain ⟨changed, failure⟩ := outcome
    obtain ⟨grown, failure'⟩ := inner
    cases failure with
    | some failure => exact ⟨⟨⟨⟨element.plainTag, named, element.leaf⟩, notRaw⟩, inside⟩, plain⟩
    | none =>
      have first : PlainForest [.element tag changed grown] :=
        ⟨⟨⟨⟨element.plainTag, named, leaf⟩, notRaw⟩, below⟩, trivial⟩
      cases failure' with
      | some failure => exact ⟨first.1, plain⟩
      | none => exact ⟨first.1, beside plain⟩

theorem plainForest_overSteps (record : Value) {steps : List Step} (tame : ∀ step ∈ steps, Tame step)
    {forest : List Tree} (plain : PlainForest forest) :
    PlainForest (overSteps record steps forest).1 := by
  induction steps generalizing forest with
  | nil => exact plain
  | cons step rest ih =>
    have changed := plainForest_overForest (tame step List.mem_cons_self) record plain
    rw [overSteps]
    generalize overForest step record forest = outcome at changed
    obtain ⟨grown, failure⟩ := outcome
    cases failure with
    | some failure => exact changed
    | none => exact ih (fun other inside => tame other (List.mem_cons_of_mem _ inside)) changed

end Directive

/-! ## Rendering -/

/-- Markup without raw text and without interpolations in the names of attributes. -/
def PlainSource (source : String) : Prop :=
  Tree.EachForest (fun tag attributes _ => isRawText tag = false ∧
    ∀ name ∈ OrderedMap.keys attributes, ¬ braces <:+: name.toList) (fun _ => True)
    (Markup.parse source)

instance (source : String) : Decidable (PlainSource source) :=
  inferInstanceAs (Decidable (Tree.EachForest _ _ _))

variable {source : String} {template : Template} {setting : Setting} {record : Value}

theorem plainForest_parse (plain : PlainSource source) : PlainForest (Markup.parse source) :=
  (Markup.readForest_parse source).and plain fun _ _ _ read ⟨notRaw, bare⟩ =>
    ⟨⟨read.plainTag, ⟨fun name inside =>
        Markup.Lexer.plainName_of_read (read.attributes.names name inside) (bare name inside),
      read.attributes.distinct⟩, read.leaf⟩, notRaw⟩

theorem plainForest_trees (compiled : compile source = .ok template) (plain : PlainSource source)
    (escaped : setting.rawHtml = false) {forest : List Tree}
    (given : template.trees setting record = .ok forest) : PlainForest forest := by
  obtain ⟨nodes, run, made⟩ := bind_eq_ok.1 compiled
  cases made
  have nodes := (compiles_of_ok run).plainNodes (plainForest_parse plain)
  have sown := plainSprouts_forestSprouts escaped nodes ⟨record, none⟩
  unfold Template.trees sprouts at given
  generalize forestSprouts setting ⟨record, none⟩ _ = outcome at sown given
  obtain ⟨made, failure⟩ := outcome
  have grown := Directive.plainForest_overSteps record (fun _ => Directive.tame_of_mem_steps)
    (plainForest_forestTrees sown)
  cases failure with
  | some failure => cases given
  | none =>
    dsimp only [Directive.applyToForest] at given
    generalize Directive.overSteps record Directive.steps _ = outcome at grown given
    obtain ⟨changed, failure⟩ := outcome
    cases failure with
    | some failure => cases given
    | none =>
      cases given
      exact grown

/-- What a record and its filters give never becomes markup: reading the markup of a rendering gives
the trees that the rendering builds in a document, once empty texts are dropped and adjacent ones
merged. -/
theorem forest_ofHtml_render (compiled : compile source = .ok template) (plain : PlainSource source)
    (escaped : setting.rawHtml = false) {html : String}
    (rendered : template.render setting record = .ok html) {scratch : Document}
    (wf : scratch.WellFormed) :
    ∃ d roots, template.renderInto setting record scratch = (d, .ok roots) ∧
      (Document.ofHtml html).forest ((Document.ofHtml html).children Document.root) =
        Tree.merged (d.forest roots) := by
  rw [render_eq] at rendered
  cases given : template.trees setting record with
  | error cause =>
    rw [given] at rendered
    cases rendered
  | ok forest =>
    rw [given] at rendered
    cases rendered
    obtain ⟨d, plants, run, grows, same⟩ := renderInto_ok wf.grounded given
    refine ⟨d, _, run, ?_⟩
    rw [Document.forest_ofHtml, Document.forest_of_holds grows.holds grows.nodup, same,
      Markup.parse_printForest_of_plain (plainForest_trees compiled plain escaped given)]

def quotingSource : String :=
  "<p title=\"\x7b\x7b t \x7d\x7d\"><i data-loop=\"items\">\x7b\x7b # this \x7d\x7d</i> </p>"

def quotedRecord : Value :=
  .object [("t", .string "\"><b>&lt;"), ("items", .array [.string "</i>", .string "<!--"])]

theorem quoted_rendered : ((compile quotingSource).toOption.bind fun template =>
    (template.render ⟨Filters.builtin, false⟩ quotedRecord).toOption) =
      some "<p title=\"&quot;&gt;&lt;b&gt;&amp;lt;\"><i>&lt;/i&gt;</i><i>&lt;!--</i> </p>" := by
  decide +kernel

theorem forest_ofHtml_render_quoted : ∃ template html d roots,
    compile quotingSource = .ok template ∧ PlainSource quotingSource ∧
    template.render ⟨Filters.builtin, false⟩ quotedRecord = .ok html ∧
    template.renderInto ⟨Filters.builtin, false⟩ quotedRecord Document.empty = (d, .ok roots) ∧
    (Document.ofHtml html).forest ((Document.ofHtml html).children Document.root) =
      Tree.merged (d.forest roots) := by
  obtain ⟨template, compiled, rendered⟩ := Option.bind_eq_some_iff.1 quoted_rendered
  rw [toOption_eq_some] at compiled rendered
  have plain : PlainSource quotingSource := by decide +kernel
  obtain ⟨d, roots, run, same⟩ :=
    forest_ofHtml_render compiled plain rfl rendered Document.empty_wellFormed
  exact ⟨template, _, d, roots, compiled, plain, rendered, run, same⟩

end LiveList.Template
