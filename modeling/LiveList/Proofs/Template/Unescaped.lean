import LiveList.Proofs.Markup.Inert
import LiveList.Proofs.Template.Alike
import LiveList.Proofs.Template.Plain

namespace LiveList.Template

open Json (Value)
open Markup (Inert Tree)

def segmentReadings (filters : Filters) (scope : Scope) : List Segment → List String
  | [] => []
  | segment :: rest =>
    match segment.eval filters scope false with
    | .error _ => []
    | .ok text =>
      (if segment.isDynamic then [text] else []) ++ segmentReadings filters scope rest

def elementReadings (filters : Filters) (scope : Scope) (attributes : List (String × List Segment))
    (content : List String) : List String :=
  if (evalAttributes filters scope attributes []).2.isSome then [] else content

def readInTurn {α : Type} (make : α → Yield) (read : α → List String) : List α → List String
  | [] => []
  | first :: rest => read first ++ if (make first).2.isSome then [] else readInTurn make read rest

mutual

def nodeReadings (filters : Filters) (scope : Scope) : Node → List String
  | .text segments => segmentReadings filters scope segments
  | .comment _ => []
  | .element _ attributes children =>
    elementReadings filters scope attributes (forestReadings filters scope children)
  | .loop field tag attributes children =>
    match loopItems field scope with
    | .error _ => []
    | .ok items =>
      readInTurn
        (fun item =>
          let scope := { scope with item := some item }
          elementSprout ⟨filters, false⟩ scope tag attributes
            (forestSprouts ⟨filters, false⟩ scope children))
        (fun item =>
          let scope := { scope with item := some item }
          elementReadings filters scope attributes (forestReadings filters scope children)) items

def forestReadings (filters : Filters) (scope : Scope) : List Node → List String
  | [] => []
  | node :: rest =>
    nodeReadings filters scope node ++
      if (nodeSprouts ⟨filters, false⟩ scope node).2.isSome then []
      else forestReadings filters scope rest

end

/-- The texts that the interpolations in texts come to behind their filters, in the order in which a
rendering evaluates them. A rendering that fails evaluates no more. -/
def readings (template : Template) (filters : Filters) (record : Value) : List String :=
  forestReadings filters ⟨record, none⟩ template.nodes

variable {filters : Filters} {scope : Scope}

theorem eval_segment_inert (segment : Segment)
    (inert : ∀ text, segment.eval filters scope false = .ok text → segment.isDynamic → Inert text) :
    (∃ failure, segment.eval filters scope true = .error failure ∧
      segment.eval filters scope false = .error failure) ∨
    ∃ markup text, segment.eval filters scope true = .ok markup ∧
      segment.eval filters scope false = .ok text ∧ '<' ∉ markup.toList ∧
      ∀ rest, Markup.decode (markup.toList ++ rest) = text.toList ++ Markup.decode rest := by
  have dynamic (outcome : Except TemplateError String)
      (same : ∀ text, outcome = .ok text → Inert text) :
      (∃ failure, outcome = .error failure ∧ outcome = .error failure) ∨
      ∃ markup text, outcome = .ok markup ∧ outcome = .ok text ∧ '<' ∉ markup.toList ∧
        ∀ rest, Markup.decode (markup.toList ++ rest) = text.toList ++ Markup.decode rest := by
    cases outcome with
    | error failure => exact .inl ⟨failure, rfl, rfl⟩
    | ok text =>
      obtain ⟨noBracket, noReference⟩ := same text rfl
      exact .inr ⟨text, text, rfl, rfl, noBracket, Markup.decode_append_of_not_mem noReference⟩
  cases segment with
  | literal text =>
    -- A literal is escaped, so decoding its markup gives it back, whatever follows.
    refine .inr ⟨_, text, rfl, rfl, ?_⟩
    rw [if_pos rfl, String.toList_ofList]
    exact ⟨Markup.not_mem_escapeText (.inl rfl) _, Markup.decode_escapeText_append text.toList⟩
  | ofRecord expr => exact dynamic _ fun text run => inert text run rfl
  | ofItem expr => exact dynamic _ fun text run => inert text run rfl

theorem evalSegments_inert {segments : List Segment}
    (inert : ∀ text ∈ segmentReadings filters scope segments, Inert text) :
    (∃ failure, evalSegments filters scope true segments = .error failure ∧
      evalSegments filters scope false segments = .error failure) ∨
    ∃ markup text, evalSegments filters scope true segments = .ok markup ∧
      evalSegments filters scope false segments = .ok text ∧ '<' ∉ markup.toList ∧
      Markup.decode markup.toList = text.toList := by
  induction segments with
  | nil => exact .inr ⟨"", "", rfl, rfl, by simp, by simp [Markup.decode_nil]⟩
  | cons segment rest ih =>
    simp only [evalSegments, segmentReadings] at inert ⊢
    have here : ∀ text, segment.eval filters scope false = .ok text → segment.isDynamic →
        Inert text := fun text run isDynamic => inert text (by simp [run, isDynamic])
    rcases eval_segment_inert segment here with
      ⟨failure, first, second⟩ | ⟨markup, text, first, second, noBracket, decoded⟩
    · exact .inl ⟨failure, by rw [first]; rfl, by rw [second]; rfl⟩
    · rw [second] at inert
      rcases ih fun other inside => inert other (List.mem_append_right _ inside) with
        ⟨failure, further, further'⟩ | ⟨more, more', further, further', noMore, decodedMore⟩
      · exact .inl ⟨failure, by rw [first, further]; rfl, by rw [second, further']; rfl⟩
      · refine .inr ⟨markup ++ more, text ++ more', by rw [first, further]; rfl,
          by rw [second, further']; rfl, ?_, ?_⟩
        · simp [noBracket, noMore]
        · rw [String.toList_append, decoded, decodedMore, String.toList_append]

def ShowAlike (first second : Yield) : Prop :=
  Tree.filled (Sprout.forestTrees first.1) = Tree.filled (Sprout.forestTrees second.1) ∧
    first.2 = second.2

namespace ShowAlike

variable {first first' second second' : Yield}

theorem refl (made : Yield) : ShowAlike made made := ⟨rfl, rfl⟩

theorem followedBy (here : ShowAlike first first')
    (further : first'.2 = none → ShowAlike second second') :
    ShowAlike (Template.followedBy first second) (Template.followedBy first' second') := by
  obtain ⟨made, failure⟩ := first
  obtain ⟨made', failure'⟩ := first'
  obtain ⟨same, rfl⟩ : _ ∧ failure = failure' := here
  cases failure with
  | some failure => exact ⟨same, rfl⟩
  | none =>
    obtain ⟨sameMore, stopped⟩ := further rfl
    simp only [ShowAlike, Template.followedBy, forestTrees_eq_flatMap, List.flatMap_append,
      Tree.filled_append] at same sameMore ⊢
    exact ⟨by rw [same, sameMore], stopped⟩

theorem elementSprout {setting setting' : Setting} (same : setting.filters = setting'.filters)
    (tag : String) (attributes : List (String × List Segment))
    (inner : (evalAttributes setting'.filters scope attributes []).2 = none →
      ShowAlike first second) :
    ShowAlike (Template.elementSprout setting scope tag attributes first)
      (Template.elementSprout setting' scope tag attributes second) := by
  unfold Template.elementSprout
  rw [same]
  split
  case h_1 => exact refl _
  case h_2 made evaluated =>
    obtain ⟨shown, stopped⟩ := inner (by rw [evaluated])
    refine ⟨?_, stopped⟩
    simp only [Sprout.forestTrees, Sprout.trees, List.append_nil, Tree.filled_element, shown]

theorem inTurn {α : Type} {make make' : α → Yield} {read : α → List String}
    (each : ∀ item, (∀ text ∈ read item, Inert text) → ShowAlike (make item) (make' item))
    {items : List α} (inert : ∀ text ∈ readInTurn make' read items, Inert text) :
    ShowAlike (Template.inTurn make items) (Template.inTurn make' items) := by
  induction items with
  | nil => exact refl _
  | cons item rest ih =>
    rw [readInTurn] at inert
    rw [inTurn_cons, inTurn_cons]
    refine followedBy (each item fun text inside => inert text (List.mem_append_left _ inside)) ?_
    intro went
    rw [went, Option.isSome_none, if_neg Bool.false_ne_true] at inert
    exact ih fun text inside => inert text (List.mem_append_right _ inside)

end ShowAlike

theorem textSprout_showAlike {segments : List Segment}
    (inert : ∀ text ∈ segmentReadings filters scope segments, Inert text) :
    ShowAlike (textSprout ⟨filters, true⟩ scope segments)
      (textSprout ⟨filters, false⟩ scope segments) := by
  unfold textSprout
  by_cases isDynamic : segments.any Segment.isDynamic
  · simp only [isDynamic, Bool.and_self, Bool.and_true, if_true, Bool.false_eq_true, if_false]
    rcases evalSegments_inert inert with ⟨failure, first, second⟩ |
      ⟨markup, text, first, second, noBracket, decoded⟩
    · rw [first, second]
      exact .refl _
    · rw [first, second]
      refine ⟨?_, rfl⟩
      simp only [Sprout.forestTrees, Sprout.trees, List.append_nil,
        Markup.parse_of_not_mem noBracket, decoded, String.ofList_toList]
      by_cases empty : markup = ""
      · have nothing : text = "" := by
          rw [empty, String.toList_empty, Markup.decode_nil] at decoded
          exact String.toList_eq_nil_iff.1 decoded.symm
        simp [empty, nothing, Tree.filled, Tree.isEmptyText]
      · rw [if_neg empty]
  · simp only [isDynamic, Bool.and_false]
    exact .refl _

theorem forestSprouts_cons_showAlike {node : Node} {rest : List Node}
    (here : (∀ text ∈ nodeReadings filters scope node, Inert text) →
      ShowAlike (nodeSprouts ⟨filters, true⟩ scope node) (nodeSprouts ⟨filters, false⟩ scope node))
    (beside : (∀ text ∈ forestReadings filters scope rest, Inert text) →
      ShowAlike (forestSprouts ⟨filters, true⟩ scope rest)
        (forestSprouts ⟨filters, false⟩ scope rest))
    (inert : ∀ text ∈ forestReadings filters scope (node :: rest), Inert text) :
    ShowAlike (forestSprouts ⟨filters, true⟩ scope (node :: rest))
      (forestSprouts ⟨filters, false⟩ scope (node :: rest)) := by
  rw [forestReadings] at inert
  rw [forestSprouts_cons, forestSprouts_cons]
  refine (here fun text inside => inert text (List.mem_append_left _ inside)).followedBy ?_
  intro went
  rw [went, Option.isSome_none, if_neg Bool.false_ne_true] at inert
  exact beside fun text inside => inert text (List.mem_append_right _ inside)

theorem elementSprout_showAlike (tag : String) {attributes : List (String × List Segment)}
    {children : List Node}
    (below : (∀ text ∈ forestReadings filters scope children, Inert text) →
      ShowAlike (forestSprouts ⟨filters, true⟩ scope children)
        (forestSprouts ⟨filters, false⟩ scope children))
    (inert : ∀ text ∈ elementReadings filters scope attributes
      (forestReadings filters scope children), Inert text) :
    ShowAlike
      (elementSprout ⟨filters, true⟩ scope tag attributes
        (forestSprouts ⟨filters, true⟩ scope children))
      (elementSprout ⟨filters, false⟩ scope tag attributes
        (forestSprouts ⟨filters, false⟩ scope children)) := by
  refine .elementSprout rfl tag attributes fun went => below fun text inside => inert text ?_
  rwa [elementReadings, went, Option.isSome_none, if_neg Bool.false_ne_true]

theorem forestSprouts_showAlike {nodes : List Node}
    (inert : ∀ text ∈ forestReadings filters scope nodes, Inert text) :
    ShowAlike (forestSprouts ⟨filters, true⟩ scope nodes)
      (forestSprouts ⟨filters, false⟩ scope nodes) := by
  induction nodes using Node.forest_induction generalizing scope with
  | nil => exact .refl _
  | text segments rest ih =>
    refine forestSprouts_cons_showAlike (fun inert => ?_) ih inert
    rw [nodeReadings] at inert
    rw [nodeSprouts, nodeSprouts]
    exact textSprout_showAlike inert
  | comment body rest ih => exact forestSprouts_cons_showAlike (fun _ => .refl _) ih inert
  | element tag attributes children rest below beside =>
    refine forestSprouts_cons_showAlike (fun inert => ?_) beside inert
    rw [nodeReadings] at inert
    rw [nodeSprouts, nodeSprouts]
    exact elementSprout_showAlike tag below inert
  | loop field tag attributes children rest below beside =>
    refine forestSprouts_cons_showAlike (fun inert => ?_) beside inert
    rw [nodeReadings] at inert
    rw [nodeSprouts, nodeSprouts]
    cases found : loopItems field scope with
    | error failure => exact .refl _
    | ok items =>
      rw [found] at inert
      -- The content is rendered once in the scope of each item.
      exact .inTurn (fun item => elementSprout_showAlike tag below) inert

namespace Directive

theorem overForest_filled (step : Step) (record : Value) (forest : List Tree) :
    overForest step record (Tree.filled forest) =
      (Tree.filled (overForest step record forest).1, (overForest step record forest).2) := by
  induction forest using Tree.forest_induction with
  | nil => rfl
  | text content rest ih =>
    by_cases empty : content = ""
    · rw [Tree.filled_text, if_pos empty, ih]
      simp [overForest, overTree, Tree.filled_text, empty]
    · rw [Tree.filled_text, if_neg empty]
      simp [overForest, overTree, Tree.filled_text, empty, ih]
  | comment body rest ih => simp [Tree.filled_comment, overForest, overTree, ih]
  | element tag attributes children rest below beside =>
    rw [Tree.filled_element, overForest, overForest, overTree, overTree, below, beside]
    generalize step record attributes = outcome
    generalize overForest step record children = inner
    obtain ⟨changed, stopped⟩ := outcome
    obtain ⟨grown, stopped'⟩ := inner
    cases stopped <;> cases stopped' <;> simp [Tree.filled_element]

theorem overSteps_filled (record : Value) (steps : List Step) (forest : List Tree) :
    overSteps record steps (Tree.filled forest) =
      (Tree.filled (overSteps record steps forest).1, (overSteps record steps forest).2) := by
  induction steps generalizing forest with
  | nil => rfl
  | cons step rest ih =>
    rw [overSteps, overSteps, overForest_filled]
    generalize overForest step record forest = outcome
    obtain ⟨changed, stopped⟩ := outcome
    cases stopped with
    | some failure => rfl
    | none => exact ih changed

end Directive

theorem trees_filled {template : Template} {record : Value}
    (inert : ∀ text ∈ template.readings filters record, Inert text) :
    (template.trees ⟨filters, true⟩ record).map Tree.filled =
      (template.trees ⟨filters, false⟩ record).map Tree.filled := by
  have alike : ShowAlike (template.sprouts ⟨filters, true⟩ record)
      (template.sprouts ⟨filters, false⟩ record) := forestSprouts_showAlike inert
  unfold Template.trees
  generalize template.sprouts ⟨filters, true⟩ record = first at alike
  generalize template.sprouts ⟨filters, false⟩ record = second at alike
  obtain ⟨made, failure⟩ := first
  obtain ⟨made', failure'⟩ := second
  obtain ⟨shown, rfl⟩ : _ ∧ failure = failure' := alike
  cases failure with
  | some failure => rfl
  | none =>
    have directed := Directive.overSteps_filled record Directive.steps (Sprout.forestTrees made)
    rw [shown, Directive.overSteps_filled] at directed
    obtain ⟨same, stopped⟩ := Prod.mk.inj directed
    simp only [Directive.applyToForest]
    generalize Directive.overSteps record Directive.steps (Sprout.forestTrees made) = grown
      at same stopped
    generalize Directive.overSteps record Directive.steps (Sprout.forestTrees made') = grown'
      at same stopped
    obtain ⟨forest, failure⟩ := grown
    obtain ⟨forest', failure'⟩ := grown'
    obtain rfl : failure' = failure := stopped
    cases failure' with
    | some failure => rfl
    | none => exact congrArg Except.ok same.symm

theorem render_eq_filled (template : Template) (setting : Setting) (record : Value) :
    template.render setting record =
      ((template.trees setting record).map Tree.filled).map Tree.printForest := by
  rw [render_eq]
  cases template.trees setting record with
  | error failure => rfl
  | ok forest => exact congrArg Except.ok (Tree.printForest_filled forest).symm

/-- Reading texts as markup changes neither the outcome nor the failure of a rendering if what the
interpolations in them come to is inert. -/
theorem render_raw_of_inert (template : Template) {filters : Filters} {record : Value}
    (inert : ∀ text ∈ template.readings filters record, Inert text) :
    template.render ⟨filters, true⟩ record = template.render ⟨filters, false⟩ record := by
  rw [render_eq_filled, render_eq_filled, trees_filled inert]

def literalSource : String :=
  "<p title=\"\x7b\x7b u \x7d\x7d\">&lt; \x7b\x7b t | upper \x7d\x7d &amp;lt\x7b\x7b none \x7d\x7d;</p>" ++
    "\x7b\x7b none \x7d\x7d<script data-loop=\"items\">a </b \x7b\x7b # this \x7d\x7d > c</script>"

def literalRecord : Value :=
  .object [("t", .string "a > b;"), ("u", .string "\"<i>&"),
    ("items", .array [.string "lt;", .number (.int 2)])]

def literalHtml : String :=
  "<p title=\"&quot;&lt;i&gt;&amp;\">&lt; A &gt; B; &amp;lt;</p>" ++
    "<script>a </b lt; > c</script><script>a </b 2 > c</script>"

theorem literal_rendered : (compile literalSource).toOption.any fun template =>
    template.readings Filters.builtin literalRecord = ["A > B;", "", "", "lt;", "2"] ∧
    (template.render ⟨Filters.builtin, false⟩ literalRecord).toOption = some literalHtml := by
  decide +kernel

theorem render_raw_of_inert_literals : ∃ template, compile literalSource = .ok template ∧
    (∀ text ∈ template.readings Filters.builtin literalRecord, Inert text) ∧
    template.render ⟨Filters.builtin, false⟩ literalRecord = .ok literalHtml ∧
    template.render ⟨Filters.builtin, true⟩ literalRecord = .ok literalHtml := by
  obtain ⟨template, compiled, made⟩ := (Option.any_eq_true _ _).1 literal_rendered
  obtain ⟨read, rendered⟩ := of_decide_eq_true made
  rw [toOption_eq_some] at compiled rendered
  have inert : ∀ text ∈ template.readings Filters.builtin literalRecord, Inert text := by
    rw [read]
    decide
  exact ⟨template, compiled, inert, rendered, (render_raw_of_inert template inert).trans rendered⟩

end LiveList.Template
