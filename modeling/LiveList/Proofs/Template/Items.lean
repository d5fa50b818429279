import LiveList.Proofs.Json.Path
import LiveList.Proofs.Template.Alike
import LiveList.Proofs.Template.Plain

namespace LiveList.Template

open Json (Value)
open Json.Value (segmentsOf resolve_append lookup_of_trimmed)

def below (place path : String) : String :=
  if path = Json.thisPath then place else place ++ "." ++ path

def itemPlace (field : String) (n : Nat) : String :=
  if field = Json.thisPath then toString n else field ++ "." ++ toString n

structure LeadsTo (record : Value) (place : String) (item : Value) : Prop where
  trimmed : Text.trim place.toList = place.toList
  notThis : place ≠ Json.thisPath
  found : record.descend (segmentsOf place.toList) = some item

theorem toList_dotted (before behind : String) :
    (before ++ "." ++ behind).toList = before.toList ++ '.' :: behind.toList := by
  simp

theorem dotted_ne_this (before behind : String) : before ++ "." ++ behind ≠ Json.thisPath := by
  intro same
  have inside : '.' ∈ (before ++ "." ++ behind).toList := by simp
  rw [same] at inside
  exact absurd inside (by decide)

theorem toString_ne_this (n : Nat) : toString n ≠ Json.thisPath := by
  intro same
  have digit : Text.isDigit 't' = true :=
    Json.isDigit_of_mem_toString (n := n) (same ▸ by decide)
  exact absurd digit (by decide)

theorem trim_below {place path : String} (place_trim : Text.trim place.toList = place.toList)
    (path_trim : Text.trim path.toList = path.toList) :
    Text.trim (below place path).toList = (below place path).toList := by
  unfold below
  split
  · exact place_trim
  · rw [toList_dotted]
    exact Text.trim_append_cons place_trim (by decide) path_trim

theorem trim_itemPlace {field : String} (trimmed : Text.trim field.toList = field.toList) (n : Nat) :
    Text.trim (itemPlace field n).toList = (itemPlace field n).toList := by
  unfold itemPlace
  split
  · exact Json.Value.trim_toString n
  · rw [toList_dotted]
    exact Text.trim_append_cons trimmed (by decide) (Json.Value.trim_toString n)

theorem leadsTo_itemPlace {record item : Value} {field : String} {items : List Value} {n : Nat}
    (trimmed : Text.trim field.toList = field.toList)
    (array : record.lookup field = some (.array items)) (isItem : items[n]? = some item) :
    LeadsTo record (itemPlace field n) item := by
  have here : (Value.array items).descend [toString n] = some item := by
    rw [Value.descend, Value.child?, Json.position?_toString, Option.bind_some, isItem]
    rfl
  rw [lookup_of_trimmed trimmed] at array
  unfold itemPlace
  split at array
  case isTrue this =>
    cases array
    rw [if_pos this]
    refine ⟨Json.Value.trim_toString n, toString_ne_this n, ?_⟩
    rw [Json.Value.segmentsOf_toString, here]
  case isFalse notThis =>
    rw [if_neg notThis]
    refine ⟨?_, dotted_ne_this _ _, ?_⟩
    · rw [toList_dotted]
      exact Text.trim_append_cons trimmed (by decide) (Json.Value.trim_toString n)
    · rw [toList_dotted, Json.Value.segmentsOf_append, Json.Value.segmentsOf_toString,
        Json.Value.descend_append, array]
      exact here

namespace LeadsTo

variable {record item : Value} {place : String}

theorem lookup_below (leads : LeadsTo record place item) {field : String}
    (trimmed : Text.trim field.toList = field.toList) :
    record.lookup (below place field) = item.lookup field := by
  rw [lookup_of_trimmed trimmed]
  unfold below
  split
  · rw [lookup_of_trimmed leads.trimmed, if_neg leads.notThis, leads.found]
  · rw [lookup_of_trimmed, if_neg (dotted_ne_this _ _), toList_dotted,
      Json.Value.segmentsOf_append, Json.Value.descend_append, leads.found]
    · rfl
    · rw [toList_dotted]
      exact Text.trim_append_cons leads.trimmed (by decide) trimmed

end LeadsTo

def Path.names : Path → List String
  | .this => []
  | .fields names => names

/-- An interpolation of the item, read from the record. The field of a loop may hold a blank name, which
no interpolation can spell: the path goes through it all the same. -/
def Expr.atItem (place : String) (expr : Expr) : Expr where
  source := below place expr.source
  path := .fields (segmentsOf place.toList ++ expr.path.names)
  filters := expr.filters

/-- Where the place holds no blank name, the interpolation is what its own source is compiled to. -/
theorem parse_atItem {record item : Value} {place : String} (leads : LeadsTo record place item)
    (named : ∀ name ∈ segmentsOf place.toList, name ≠ "") {expr : Expr}
    (parsed : Path.parse expr.source = .ok expr.path) :
    Path.parse (expr.atItem place).source = .ok (expr.atItem place).path := by
  have placed : (segmentsOf place.toList).any (· = "") = false := by simpa using named
  unfold Path.parse at parsed
  unfold Path.parse Expr.atItem below
  split at parsed
  case isTrue this =>
    cases path : expr.path with
    | fields names => rw [path] at parsed; cases parsed
    | this => simp [this, leads.notThis, placed, Path.names]
  case isFalse notThis =>
    dsimp only at parsed
    split at parsed
    case isTrue => cases parsed
    case isFalse own =>
      rw [← Except.ok.inj parsed]
      dsimp only
      rw [if_neg notThis, if_neg (dotted_ne_this _ _), toList_dotted, Json.Value.segmentsOf_append,
        List.any_append, placed, Bool.false_or, if_neg own]
      rfl

def Segment.atItem (place : String) : Segment → Segment
  | .ofItem expr => .ofRecord (expr.atItem place)
  | segment => segment

def attributesAt (place : String) (attributes : List (String × List Segment)) :
    List (String × List Segment) :=
  attributes.map fun (name, segments) => (name, segments.map (Segment.atItem place))

mutual

/-- What stands in a loop, for the item at a place. What stands in a loop therein is left to the items
of that loop. -/
def nodeAt (place : String) : Node → Node
  | .text segments => .text (segments.map (Segment.atItem place))
  | .comment body => .comment body
  | .element tag attributes children =>
    .element tag (attributesAt place attributes) (forestAt place children)
  | .loop field tag attributes children => .loop (below place field) tag attributes children

def forestAt (place : String) : List Node → List Node
  | [] => []
  | node :: rest => nodeAt place node :: forestAt place rest

end

mutual

def NeatNode : Node → Prop
  | .text _ | .comment _ => True
  | .element _ _ children => NeatForest children
  | .loop field _ _ children => Text.trim field.toList = field.toList ∧ NeatForest children

def NeatForest : List Node → Prop
  | [] => True
  | node :: rest => NeatNode node ∧ NeatForest rest

end

theorem neatForest_append {nodes rest : List Node} :
    NeatForest (nodes ++ rest) ↔ NeatForest nodes ∧ NeatForest rest := by
  induction nodes with
  | nil => simp [NeatForest]
  | cons node nodes ih => simp [NeatForest, ih, and_assoc]

theorem neatForest_iff {nodes : List Node} : NeatForest nodes ↔ ∀ node ∈ nodes, NeatNode node := by
  induction nodes with
  | nil => simp [NeatForest]
  | cons node nodes ih => simp [NeatForest, ih]

theorem Compiles.neat {forest : List Markup.Tree} {nodes : List Node}
    (compiles : Compiles forest nodes) : NeatForest nodes := by
  induction compiles with
  | nil => trivial
  | text content _ ih => exact ⟨trivial, ih⟩
  | comment body _ ih => exact ⟨trivial, ih⟩
  | element _ _ _ below beside => exact ⟨below, beside⟩
  | loop _ named _ _ below beside =>
    obtain ⟨value, -, rfl⟩ := Option.map_eq_some_iff.1 named
    exact ⟨⟨by simp [Text.trimmed, Text.trim_trim], below⟩, beside⟩

theorem neatForest_compile {source : String} {template : Template}
    (compiled : compile source = .ok template) : NeatForest template.nodes := by
  obtain ⟨nodes, run, made⟩ := bind_eq_ok.1 compiled
  cases made
  exact (compiles_of_ok run).neat

theorem neatForest_forestAt {place : String} (trimmed : Text.trim place.toList = place.toList)
    {nodes : List Node} (neat : NeatForest nodes) : NeatForest (forestAt place nodes) := by
  induction nodes using Node.forest_induction with
  | nil => trivial
  | text segments rest ih => exact ⟨trivial, ih neat.2⟩
  | comment body rest ih => exact ⟨trivial, ih neat.2⟩
  | element tag attributes children rest inner beside => exact ⟨inner neat.1, beside neat.2⟩
  | loop field tag attributes children rest inner beside =>
    exact ⟨⟨trim_below trimmed neat.1.1, neat.1.2⟩, beside neat.2⟩

def itemsOf (field : String) : Option Value → Except TemplateError (List Value)
  | none | some .null => .error (.missingLoopField field)
  | some (.array items) => .ok items
  | some _ => .error (.notAnArray field)

theorem loopItems_of_trimmed {field : String} (trimmed : Text.trim field.toList = field.toList)
    (scope : Scope) : loopItems field scope = itemsOf field (scope.loopContext.lookup field) := by
  have same : (if field = Json.thisPath then some scope.loopContext
      else scope.loopContext.lookup field) = scope.loopContext.lookup field := by
    split
    · rw [lookup_of_trimmed trimmed, if_pos ‹_›]
    · rfl
  rw [← same]
  unfold loopItems itemsOf
  split <;> rfl

section

variable {record item : Value} {place : String} (leads : LeadsTo record place item)
include leads

theorem read_atItem (expr : Expr) :
    (∃ found, expr.path.read expr.source item = .ok found ∧
      (expr.atItem place).path.read (expr.atItem place).source record = .ok found) ∨
    expr.path.read expr.source item = .error (.resolution expr.source) ∧
      (expr.atItem place).path.read (expr.atItem place).source record =
        .error (.resolution (expr.atItem place).source) := by
  have same : Value.resolve (some record) (segmentsOf place.toList ++ expr.path.names) =
      Value.resolve (some item) expr.path.names := resolve_append leads.found expr.path.names
  have there : ∀ found, Value.resolve (some item) expr.path.names = some found →
      (expr.atItem place).path.read (expr.atItem place).source record = .ok found := by
    intro found resolved
    rw [Expr.atItem, Path.read, same, resolved]
  cases path : expr.path with
  | this => exact .inl ⟨some item, rfl, there _ (by rw [path]; rfl)⟩
  | fields names =>
    cases resolved : Value.resolve (some item) names with
    | some found =>
      refine .inl ⟨found, ?_, there _ (by rw [path]; exact resolved)⟩
      rw [Path.read, resolved]
    | none =>
      refine .inr ⟨by rw [Path.read, resolved], ?_⟩
      rw [Expr.atItem, Path.read, same, path, Path.names, resolved]

theorem eval_atItem (filters : Filters) (expr : Expr) :
    SameUnnamed (expr.eval filters item) ((expr.atItem place).eval filters record) := by
  unfold Expr.eval
  rcases read_atItem leads expr with ⟨found, here, there⟩ | ⟨here, there⟩
  · rw [here, there]
    refine SameUnnamed.bind rfl fun found => ?_
    have same : (expr.atItem place).filters = expr.filters := rfl
    rw [same]
    cases expr.filters with
    | nil => cases Option.filter Value.isTruthy found <;> rfl
    | cons first rest => cases Option.filter Value.isTruthy found <;> rfl
  · rw [here, there]
    rfl

theorem eval_segmentAt (filters : Filters) (segment : Segment) (escapeLiterals : Bool) :
    SameUnnamed (segment.eval filters ⟨record, some item⟩ escapeLiterals)
      ((segment.atItem place).eval filters ⟨record, none⟩ escapeLiterals) := by
  cases segment with
  | literal text => rfl
  | ofRecord expr => rfl
  | ofItem expr => exact eval_atItem leads filters expr

theorem evalSegments_at (filters : Filters) (escapeLiterals : Bool) (segments : List Segment) :
    SameUnnamed (evalSegments filters ⟨record, some item⟩ escapeLiterals segments)
      (evalSegments filters ⟨record, none⟩ escapeLiterals (segments.map (Segment.atItem place))) := by
  induction segments with
  | nil => rfl
  | cons segment rest ih =>
    rw [List.map_cons, evalSegments, evalSegments]
    exact .bind (eval_segmentAt leads filters segment escapeLiterals) fun text =>
      .bind ih fun more => rfl

omit leads in
theorem any_isDynamic_at (segments : List Segment) :
    (segments.map (Segment.atItem place)).any Segment.isDynamic = segments.any Segment.isDynamic := by
  rw [List.any_map]
  congr 1
  funext segment
  cases segment <;> rfl

theorem textSprout_at (setting : Setting) (segments : List Segment) :
    Alike (textSprout setting ⟨record, some item⟩ segments)
      (textSprout setting ⟨record, none⟩ (segments.map (Segment.atItem place))) := by
  unfold textSprout
  rw [any_isDynamic_at]
  dsimp only
  rcases (evalSegments_at leads setting.filters (setting.rawHtml && segments.any Segment.isDynamic)
    segments).ok_or_error with ⟨text, here, there⟩ | ⟨failure, failure', here, there, same⟩
  · rw [here, there]
    exact .refl _
  · rw [here, there]
    exact ⟨rfl, congrArg some same⟩

theorem evalAttributes_at (filters : Filters) (attributes : List (String × List Segment))
    (made : Markup.Attributes) :
    Alike (evalAttributes filters ⟨record, some item⟩ attributes made)
      (evalAttributes filters ⟨record, none⟩ (attributesAt place attributes) made) := by
  induction attributes generalizing made with
  | nil => exact .refl _
  | cons first rest ih =>
    obtain ⟨name, segments⟩ := first
    rw [attributesAt, List.map_cons, ← attributesAt, evalAttributes, evalAttributes]
    rcases (evalSegments_at leads filters false segments).ok_or_error with
      ⟨value, here, there⟩ | ⟨failure, failure', here, there, same⟩
    · rw [here, there]
      exact ih _
    · rw [here, there]
      exact ⟨rfl, congrArg some same⟩

theorem elementSprout_at (setting : Setting) (tag : String)
    (attributes : List (String × List Segment)) {children children' : Yield}
    (inner : Alike children children') :
    Alike (elementSprout setting ⟨record, some item⟩ tag attributes children)
      (elementSprout setting ⟨record, none⟩ tag (attributesAt place attributes) children') :=
  elementSprout_alike tag (evalAttributes_at leads setting.filters attributes []) inner

theorem loopItems_below {field : String} (trimmed : Text.trim field.toList = field.toList) :
    SameUnnamed (loopItems field ⟨record, some item⟩)
      (loopItems (below place field) ⟨record, none⟩) := by
  rw [loopItems_of_trimmed trimmed, loopItems_of_trimmed (trim_below leads.trimmed trimmed)]
  dsimp only [Scope.loopContext, Option.getD_some, Option.getD_none]
  rw [leads.lookup_below trimmed]
  cases item.lookup field with
  | none => rfl
  | some value => cases value <;> rfl

theorem forestSprouts_at (setting : Setting) {nodes : List Node} (neat : NeatForest nodes) :
    Alike (forestSprouts setting ⟨record, some item⟩ nodes)
      (forestSprouts setting ⟨record, none⟩ (forestAt place nodes)) := by
  induction nodes using Node.forest_induction with
  | nil => exact .refl _
  | text segments rest ih =>
    rw [forestAt, forestSprouts_cons, forestSprouts_cons]
    exact (textSprout_at leads setting segments).followedBy (ih neat.2)
  | comment body rest ih =>
    rw [forestAt, forestSprouts_cons, forestSprouts_cons]
    exact (Alike.refl _).followedBy (ih neat.2)
  | element tag attributes children rest inner beside =>
    rw [forestAt, forestSprouts_cons, forestSprouts_cons]
    exact (elementSprout_at leads setting tag attributes (inner neat.1)).followedBy (beside neat.2)
  | loop field tag attributes children rest inner beside =>
    rw [forestAt, forestSprouts_cons, forestSprouts_cons]
    refine Alike.followedBy ?_ (beside neat.2)
    rw [nodeAt, nodeSprouts, nodeSprouts]
    rcases (loopItems_below leads neat.1.1).ok_or_error with
      ⟨items, here, there⟩ | ⟨failure, failure', here, there, same⟩
    · rw [here, there]
      exact .refl _
    · rw [here, there]
      exact ⟨rfl, congrArg some same⟩

end

end LiveList.Template
