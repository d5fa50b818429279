import LiveList.Proofs.Template.Items

namespace LiveList.Template

open Json (Value)

def unrolled (field tag : String) (attributes : List (String × List Segment)) (children : List Node)
    (count : Nat) : List Node :=
  (List.range count).map fun n =>
    .element tag (attributesAt (itemPlace field n) attributes) (forestAt (itemPlace field n) children)

/-- A loop that stands in no other one, and whose field is an array of the record, is unrolled. -/
inductive Unrolls (record : Value) : List Node → List Node → Prop where
  | here {field : String} {items : List Value} (tag : String)
      (attributes : List (String × List Segment)) (children rest : List Node)
      (array : record.lookup field = some (.array items)) :
      Unrolls record (.loop field tag attributes children :: rest)
        (unrolled field tag attributes children items.length ++ rest)
  | beside {rest rest' : List Node} (node : Node) (further : Unrolls record rest rest') :
      Unrolls record (node :: rest) (node :: rest')
  | inside {children children' : List Node} (tag : String)
      (attributes : List (String × List Segment)) (rest : List Node)
      (deeper : Unrolls record children children') :
      Unrolls record (.element tag attributes children :: rest)
        (.element tag attributes children' :: rest)

section

variable {record : Value} {nodes nodes' : List Node}

theorem forestSprouts_unrolled (setting : Setting) {field : String} (tag : String)
    (attributes : List (String × List Segment)) {children : List Node}
    (neat : NeatForest children) {places : List Nat} {items : List Value}
    (lead : List.Forall₂ (fun n item => LeadsTo record (itemPlace field n) item) places items) :
    Alike (inTurn (fun item => elementSprout setting ⟨record, some item⟩ tag attributes
        (forestSprouts setting ⟨record, some item⟩ children)) items)
      (forestSprouts setting ⟨record, none⟩ (places.map fun n => .element tag
        (attributesAt (itemPlace field n) attributes) (forestAt (itemPlace field n) children))) := by
  induction lead with
  | nil => exact .refl _
  | cons leads _ ih =>
    rw [inTurn_cons, List.map_cons, forestSprouts_cons]
    exact (elementSprout_at leads setting tag attributes
      (forestSprouts_at leads setting neat)).followedBy ih

theorem leadsTo_range {field : String} {items : List Value}
    (trimmed : Text.trim field.toList = field.toList)
    (array : record.lookup field = some (.array items)) :
    List.Forall₂ (fun n item => LeadsTo record (itemPlace field n) item)
      (List.range items.length) items := by
  refine List.forall₂_iff_get.2 ⟨by simp, fun n inRange inItems => ?_⟩
  refine leadsTo_itemPlace trimmed array ?_
  simp

theorem Unrolls.alike (unrolls : Unrolls record nodes nodes') (neat : NeatForest nodes)
    (setting : Setting) :
    Alike (forestSprouts setting ⟨record, none⟩ nodes)
      (forestSprouts setting ⟨record, none⟩ nodes') := by
  induction unrolls with
  | here tag attributes children rest array =>
    rw [forestSprouts_cons, forestSprouts_append]
    refine Alike.followedBy ?_ (.refl _)
    rw [nodeSprouts, loopItems_of_trimmed neat.1.1, Scope.loopContext, Option.getD_none, array,
      itemsOf]
    exact forestSprouts_unrolled setting tag attributes neat.1.2 (leadsTo_range neat.1.1 array)
  | beside node further ih =>
    rw [forestSprouts_cons, forestSprouts_cons]
    exact (Alike.refl _).followedBy (ih neat.2)
  | inside tag attributes rest deeper ih =>
    rw [forestSprouts_cons, forestSprouts_cons]
    refine Alike.followedBy ?_ (.refl _)
    rw [nodeSprouts, nodeSprouts]
    exact elementSprout_alike tag (.refl _) (ih neat.1)

theorem neat_unrolled {field tag : String} {attributes : List (String × List Segment)}
    {children : List Node} (trimmed : Text.trim field.toList = field.toList)
    (neat : NeatForest children) (count : Nat) :
    NeatForest (unrolled field tag attributes children count) := by
  refine neatForest_iff.2 fun node inside => ?_
  obtain ⟨n, -, rfl⟩ := List.mem_map.1 inside
  exact neatForest_forestAt (trim_itemPlace trimmed n) neat

theorem Unrolls.neat (unrolls : Unrolls record nodes nodes') (neat : NeatForest nodes) :
    NeatForest nodes' := by
  induction unrolls with
  | here tag attributes children rest array =>
    exact neatForest_append.2 ⟨neat_unrolled neat.1.1 neat.1.2 _, neat.2⟩
  | beside node further ih => exact ⟨neat.1, ih neat.2⟩
  | inside tag attributes rest deeper ih => exact ⟨ih neat.1, neat.2⟩

end

mutual

def nodeTurns (most : Nat) : Node → Nat
  | .text _ | .comment _ => 0
  | .element _ _ children => forestTurns most children
  | .loop _ _ _ children => most * forestTurns most children + 1

def forestTurns (most : Nat) : List Node → Nat
  | [] => 0
  | node :: rest => nodeTurns most node + forestTurns most rest

end

mutual

def LoopFreeNode : Node → Prop
  | .text _ | .comment _ => True
  | .element _ _ children => LoopFree children
  | .loop .. => False

def LoopFree : List Node → Prop
  | [] => True
  | node :: rest => LoopFreeNode node ∧ LoopFree rest

end

section

variable {record : Value} {nodes nodes' : List Node} {most : Nat}

theorem forestTurns_forestAt (most : Nat) (place : String) (nodes : List Node) :
    forestTurns most (forestAt place nodes) = forestTurns most nodes := by
  induction nodes using Node.forest_induction with
  | nil => rfl
  | text segments rest ih => simp [forestAt, nodeAt, forestTurns, nodeTurns, ih]
  | comment body rest ih => simp [forestAt, nodeAt, forestTurns, nodeTurns, ih]
  | element tag attributes children rest inner beside =>
    simp [forestAt, nodeAt, forestTurns, nodeTurns, inner, beside]
  | loop field tag attributes children rest inner beside =>
    simp [forestAt, nodeAt, forestTurns, nodeTurns, beside]

theorem forestTurns_append (most : Nat) (nodes rest : List Node) :
    forestTurns most (nodes ++ rest) = forestTurns most nodes + forestTurns most rest := by
  induction nodes with
  | nil => simp [forestTurns]
  | cons node nodes ih => simp [forestTurns, ih, Nat.add_assoc]

theorem forestTurns_unrolled (most : Nat) (field tag : String)
    (attributes : List (String × List Segment)) (children : List Node) (count : Nat) :
    forestTurns most (unrolled field tag attributes children count) =
      count * forestTurns most children := by
  induction count with
  | zero => simp [unrolled, forestTurns]
  | succ count ih =>
    rw [unrolled, List.range_succ, List.map_append, forestTurns_append, ← unrolled, ih]
    simp [forestTurns, nodeTurns, forestTurns_forestAt, Nat.succ_mul]

theorem length_le_of_lookup {field : String} {items : List Value}
    (array : record.lookup field = some (.array items)) : items.length ≤ sizeOf record := by
  have small := Value.length_lt_sizeOf items
  unfold Value.lookup at array
  dsimp only at array
  split at array
  · cases array
    omega
  · have := Value.sizeOf_le_of_descend array
    omega

/-- Each time that a loop is unrolled, fewer turns are left. -/
theorem Unrolls.forestTurns_lt (unrolls : Unrolls record nodes nodes') :
    forestTurns (sizeOf record) nodes' < forestTurns (sizeOf record) nodes := by
  induction unrolls with
  | here tag attributes children rest array =>
    rw [forestTurns_append, forestTurns_unrolled, forestTurns, nodeTurns]
    have := Nat.mul_le_mul_right (forestTurns (sizeOf record) children) (length_le_of_lookup array)
    omega
  | beside node further ih =>
    simp only [forestTurns]
    omega
  | inside tag attributes rest deeper ih =>
    simp only [forestTurns, nodeTurns]
    omega

theorem wellFounded_unrolls (record : Value) :
    WellFounded fun nodes' nodes => Unrolls record nodes nodes' :=
  Subrelation.wf (fun unrolls => unrolls.forestTurns_lt)
    (measure (forestTurns (sizeOf record))).wf

end

/-- Where no loop can be unrolled any more and rendering works, there is none. -/
theorem loopFree_of_done {record : Value} {nodes : List Node} (setting : Setting)
    (neat : NeatForest nodes) (ended : ∀ next, ¬ Unrolls record nodes next)
    (done : (forestSprouts setting ⟨record, none⟩ nodes).2 = none) : LoopFree nodes := by
  induction nodes using Node.forest_induction with
  | nil => trivial
  | text segments rest ih =>
    rw [forestSprouts_cons] at done
    exact ⟨trivial, ih neat.2 (fun _ further => ended _ (.beside _ further)) (followedBy_done done).2⟩
  | comment body rest ih =>
    rw [forestSprouts_cons] at done
    exact ⟨trivial, ih neat.2 (fun _ further => ended _ (.beside _ further)) (followedBy_done done).2⟩
  | element tag attributes children rest inner beside =>
    rw [forestSprouts_cons] at done
    obtain ⟨here, further⟩ := followedBy_done done
    rw [nodeSprouts] at here
    exact ⟨inner neat.1 (fun _ deeper => ended _ (.inside _ _ _ deeper)) (elementSprout_done here),
      beside neat.2 (fun _ further => ended _ (.beside _ further)) further⟩
  | loop field tag attributes children rest inner beside =>
    rw [forestSprouts_cons] at done
    obtain ⟨here, -⟩ := followedBy_done done
    rw [nodeSprouts, loopItems_of_trimmed neat.1.1] at here
    dsimp only [Scope.loopContext, Option.getD_none] at here
    cases found : record.lookup field with
    | none => simp [found, itemsOf] at here
    | some value =>
      cases value with
      | array items => exact absurd (.here tag attributes children rest found) (ended _)
      | null | bool | number | string | object => simp [found, itemsOf] at here

theorem LoopFree.not_unrolls {record : Value} {nodes next : List Node} (free : LoopFree nodes) :
    ¬ Unrolls record nodes next := by
  intro unrolls
  induction unrolls with
  | here => exact free.1
  | beside node further ih => exact ih free.2
  | inside tag attributes rest deeper ih => exact ih free.1

theorem chain_alike {record : Value} {nodes nodes' : List Node} (neat : NeatForest nodes)
    (chain : Relation.ReflTransGen (Unrolls record) nodes nodes') :
    NeatForest nodes' ∧ ∀ setting, Alike (forestSprouts setting ⟨record, none⟩ nodes)
      (forestSprouts setting ⟨record, none⟩ nodes') := by
  induction chain with
  | refl => exact ⟨neat, fun _ => .refl _⟩
  | tail _ unrolls ih =>
    exact ⟨unrolls.neat ih.1, fun setting => (ih.2 setting).trans (unrolls.alike ih.1 setting)⟩

/-- Loops equal their unrolling: whatever loops of a template are unrolled for a record, what is left
renders alike. Unrolling comes to an end, and no loop is left then if the template can be rendered. -/
theorem rendersAlike_unrolled {source : String} {template : Template}
    (compiled : compile source = .ok template) (record : Value) :
    (WellFounded fun nodes' nodes => Unrolls record nodes nodes') ∧
    ∀ nodes, Relation.ReflTransGen (Unrolls record) template.nodes nodes →
      (∀ text setting d, RendersAlike setting record d template ⟨text, nodes⟩) ∧
      ((∀ next, ¬ Unrolls record nodes next) → ∀ setting d ids,
        (template.renderInto setting record d).2 = .ok ids → LoopFree nodes) := by
  refine ⟨wellFounded_unrolls record, fun nodes chain => ?_⟩
  obtain ⟨neat, alike⟩ := chain_alike (neatForest_compile compiled) chain
  refine ⟨fun text setting d => ?_, fun ended setting d ids rendered => ?_⟩
  · have same : Alike (template.sprouts setting record) (sprouts ⟨text, nodes⟩ setting record) :=
      alike setting
    exact rendersAlike_of_alike same d
  · have same := (alike setting).2
    rw [← sprouts, sprouts_done rendered] at same
    exact loopFree_of_done setting neat ended (Option.map_eq_none_iff.1 same.symm)

def tableSource : String :=
  "<p data-loop=a><b data-loop=this>\x7b\x7b# this\x7d\x7d</b></p>"

def tableRecord : Value :=
  .object [("a", .array [.array [.string "x"], .array []])]

def tableTemplate : Template where
  source := tableSource
  nodes := [.loop "a" "p" [] [.loop "this" "b" [] [.text [.ofItem ⟨"this", .this, []⟩]]]]

def tableUnrolled : List Node :=
  [.element "p" [] [.element "b" [] [.text [.ofRecord ⟨"a.0.0", .fields ["a", "0", "0"], []⟩]]],
    .element "p" [] []]

def tableTokens : List Markup.Token :=
  [.opening "p" [("data-loop", "a")] false, .opening "b" [("data-loop", "this")] false,
    .text "\x7b\x7b# this\x7d\x7d", .closing "b", .closing "p"]

def tableTree : Markup.Tree :=
  .element "p" [("data-loop", "a")]
    [.element "b" [("data-loop", "this")] [.text "\x7b\x7b# this\x7d\x7d"]]

theorem compile_tableSource : compile tableSource = .ok tableTemplate := by
  have tokens : Markup.Lexer.tokens tableSource = tableTokens := by decide +kernel
  have tree : Markup.forestOfTokens tableTokens = [tableTree] := by rfl
  have text : segments "\x7b\x7b# this\x7d\x7d" = .ok [.ofItem ⟨"this", .this, []⟩] := by
    decide +kernel
  rw [compile, Markup.parse, tokens, tree, tableTree]
  simp only [compileForest, compileTree, text]
  rfl

theorem unrolls_tableUnrolled :
    Relation.ReflTransGen (Unrolls tableRecord) tableTemplate.nodes tableUnrolled := by
  have rows : tableRecord.lookup "a" = some (.array [.array [.string "x"], .array []]) := by rfl
  have first : tableRecord.lookup "a.0" = some (.array [.string "x"]) := by rfl
  have second : tableRecord.lookup "a.1" = some (.array []) := by rfl
  refine .head (.here "p" [] _ [] rows) <| .head (.inside "p" [] _ (.here "b" [] _ [] first)) <|
    .head (.beside _ (.inside "p" [] _ (.here "b" [] _ [] second))) ?_
  exact .refl

theorem rendersAlike_unrolled_table :
    compile tableSource = .ok tableTemplate ∧
    Relation.ReflTransGen (Unrolls tableRecord) tableTemplate.nodes tableUnrolled ∧
    (∀ next, ¬ Unrolls tableRecord tableUnrolled next) ∧
    (tableTemplate.renderInto ⟨Filters.builtin, false⟩ tableRecord Document.empty).2 = .ok [1, 4] ∧
    (∀ text setting d, RendersAlike setting tableRecord d tableTemplate ⟨text, tableUnrolled⟩) ∧
    LoopFree tableUnrolled := by
  obtain ⟨-, unrolled⟩ := rendersAlike_unrolled compile_tableSource tableRecord
  obtain ⟨alike, loopFree⟩ := unrolled tableUnrolled unrolls_tableUnrolled
  have ended : ∀ next, ¬ Unrolls tableRecord tableUnrolled next := fun next =>
    LoopFree.not_unrolls (by simp [tableUnrolled, LoopFree, LoopFreeNode])
  have rendered :
      (tableTemplate.renderInto ⟨Filters.builtin, false⟩ tableRecord Document.empty).2 =
        .ok [1, 4] := by rfl
  exact ⟨compile_tableSource, unrolls_tableUnrolled, ended, rendered, alike,
    loopFree ended _ _ _ rendered⟩

end LiveList.Template
