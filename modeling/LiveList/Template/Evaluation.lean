import LiveList.Template.Basic
import LiveList.Template.Filter
import LiveList.Template.Directive

/-!
# Evaluating templates

A template and a record give sprouts: the nodes that a rendering creates, in the order in which it
creates them, and the failure that stopped it, if any. Markup that comes from the data is kept as
text in a sprout and is read where the sprout is planted. Sprouts also have trees, on which the
directives are defined as well.
-/

namespace LiveList.Template

open Json (Value)
open Markup (Attributes Tree)

inductive Sprout where
  | text (content : String)
  | comment (body : String)
  | element (tag : String) (attributes : Attributes) (children : List Sprout)
  | fragment (markup : String)
deriving Repr, Inhabited

/-- The sprouts made so far, and why no more were made if the rendering failed. -/
abbrev Yield := List Sprout × Option TemplateError

structure Setting where
  filters : Filters
  rawHtml : Bool

structure Scope where
  record : Value
  item : Option Value

def Scope.loopContext (scope : Scope) : Value := scope.item.getD scope.record

def Path.read (path : Path) (source : String) (context : Value) :
    Except TemplateError (Option Value) :=
  match path with
  | .this => .ok (some context)
  | .fields names =>
    match Value.resolve (some context) names with
    | some found => .ok found
    | none => .error (.resolution source)

/-- The text of an interpolation. A value that counts as false shows nothing; with a filter it is a
failure. -/
def Expr.eval (expr : Expr) (filters : Filters) (context : Value) : Except TemplateError String := do
  let found := (← expr.path.read expr.source context).filter Value.isTruthy
  match expr.filters, found with
  | [], none => return ""
  | [], some value => return value.display
  | _ :: _, none => throw (.resolution expr.source)
  | first :: rest, some value => filters.applyAll rest (← filters.apply first value)

def Segment.eval (segment : Segment) (filters : Filters) (scope : Scope) (escapeLiterals : Bool) :
    Except TemplateError String :=
  match segment with
  | .literal text =>
    -- Where the whole text is to be read as markup, only values may hold any.
    .ok (if escapeLiterals then String.ofList (Markup.escapeText text.toList) else text)
  | .ofRecord expr => expr.eval filters scope.record
  | .ofItem expr => expr.eval filters scope.loopContext

def evalSegments (filters : Filters) (scope : Scope) (escapeLiterals : Bool) :
    List Segment → Except TemplateError String
  | [] => .ok ""
  | segment :: rest => do
    let text ← segment.eval filters scope escapeLiterals
    return text ++ (← evalSegments filters scope escapeLiterals rest)

def textSprout (setting : Setting) (scope : Scope) (segments : List Segment) : Yield :=
  let raw := setting.rawHtml && segments.any Segment.isDynamic
  match evalSegments setting.filters scope raw segments with
  | .error failure => ([], some failure)
  | .ok text => ([if raw then .fragment text else .text text], none)

def evalAttributes (filters : Filters) (scope : Scope) :
    List (String × List Segment) → Attributes → Attributes × Option TemplateError
  | [], made => (made, none)
  | (name, segments) :: rest, made =>
    match evalSegments filters scope false segments with
    | .error failure => (made, some failure)
    | .ok value => evalAttributes filters scope rest (OrderedMap.put made name value)

def inTurn {α : Type} (make : α → Yield) : List α → Yield
  | [] => ([], none)
  | first :: rest =>
    match make first with
    | (made, some failure) => (made, some failure)
    | (made, none) =>
      let (more, failure) := inTurn make rest
      (made ++ more, failure)

def loopItems (field : String) (scope : Scope) : Except TemplateError (List Value) :=
  let context := scope.loopContext
  match if field = Json.thisPath then some context else context.lookup field with
  | none => .error (.missingLoopField field)
  | some .null => .error (.missingLoopField field)
  | some (.array items) => .ok items
  | some _ => .error (.notAnArray field)

def elementSprout (setting : Setting) (scope : Scope) (tag : String)
    (attributes : List (String × List Segment)) (children : Yield) : Yield :=
  match evalAttributes setting.filters scope attributes [] with
  | (made, some failure) => ([.element tag made []], some failure)
  | (made, none) => ([.element tag made children.1], children.2)

mutual

def nodeSprouts (setting : Setting) (scope : Scope) : Node → Yield
  | .text segments => textSprout setting scope segments
  | .comment body => ([.comment body], none)
  | .element tag attributes children =>
    elementSprout setting scope tag attributes (forestSprouts setting scope children)
  | .loop field tag attributes children =>
    match loopItems field scope with
    | .error failure => ([], some failure)
    | .ok items =>
      inTurn (fun item =>
        let scope := { scope with item := some item }
        elementSprout setting scope tag attributes (forestSprouts setting scope children)) items

def forestSprouts (setting : Setting) (scope : Scope) : List Node → Yield
  | [] => ([], none)
  | node :: rest =>
    match nodeSprouts setting scope node with
    | (made, some failure) => (made, some failure)
    | (made, none) =>
      let (more, failure) := forestSprouts setting scope rest
      (made ++ more, failure)

end

def sprouts (template : Template) (setting : Setting) (record : Value) : Yield :=
  forestSprouts setting ⟨record, none⟩ template.nodes

/-! ## Trees of sprouts -/

namespace Sprout

mutual

def trees : Sprout → List Tree
  | .text content => [.text content]
  | .comment body => [.comment body]
  | .element tag attributes children => [.element tag attributes (forestTrees children)]
  | .fragment markup => Markup.parse markup

def forestTrees : List Sprout → List Tree
  | [] => []
  | sprout :: rest => trees sprout ++ forestTrees rest

end

end Sprout

namespace Directive

mutual

def overTree (step : Step) (record : Value) : Tree → Tree × Option TemplateError
  | .text content => (.text content, none)
  | .comment body => (.comment body, none)
  | .element tag attributes children =>
    match step record attributes with
    | (changed, some failure) => (.element tag changed children, some failure)
    | (changed, none) =>
      let (inner, failure) := overForest step record children
      (.element tag changed inner, failure)

def overForest (step : Step) (record : Value) : List Tree → List Tree × Option TemplateError
  | [] => ([], none)
  | tree :: rest =>
    match overTree step record tree with
    | (changed, some failure) => (changed :: rest, some failure)
    | (changed, none) =>
      let (more, failure) := overForest step record rest
      (changed :: more, failure)

end

def overSteps (record : Value) : List Step → List Tree → List Tree × Option TemplateError
  | [], forest => (forest, none)
  | step :: rest, forest =>
    match overForest step record forest with
    | (changed, some failure) => (changed, some failure)
    | (changed, none) => overSteps record rest changed

def applyToForest (record : Value) (forest : List Tree) : List Tree × Option TemplateError :=
  overSteps record steps forest

end Directive

def trees (template : Template) (setting : Setting) (record : Value) :
    Except TemplateError (List Tree) :=
  match template.sprouts setting record with
  | (_, some failure) => .error failure
  | (sprouts, none) =>
    match Directive.applyToForest record (Sprout.forestTrees sprouts) with
    | (_, some failure) => .error failure
    | (forest, none) => .ok forest

end LiveList.Template
