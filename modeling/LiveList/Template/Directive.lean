import LiveList.Json.Parser
import LiveList.Json.Path
import LiveList.Markup.Tree
import LiveList.Template.Error

namespace LiveList.Template.Directive

open Json (Value)
open Markup (Attributes)

abbrev Outcome := Attributes × Option TemplateError

abbrev Step := Value → Attributes → Outcome

def declarations (style : String) : List (String × String) :=
  (Text.pieces ';' style.toList).filterMap fun piece =>
    match Text.cut ':' piece with
    | none => none
    | some (property, value) =>
      let property := Text.trim property
      -- Parts without a colon or a property are skipped.
      if property = [] then none
      else some (String.ofList property, String.ofList (Text.trim value))

def styleText (declarations : List (String × String)) : String :=
  " ".intercalate (declarations.map fun (property, value) => property ++ ": " ++ value ++ ";")

def writeStyle (attributes : Attributes) (declarations : List (String × String)) : Attributes :=
  if declarations = [] then attributes.remove "style"
  else attributes.put "style" (styleText declarations)

def declare (declarations : List (String × String)) (property value : String) :
    List (String × String) :=
  if value = "" then declarations.eraseP (·.1 = property)
  else OrderedMap.put declarations property value

def setStyle (property value : String) (attributes : Attributes) : Attributes :=
  writeStyle attributes
    (declare (declarations ((attributes.get? "style").getD "")) property value)

def classNames (text : String) : List String := (Text.words text.toList).map String.ofList

def writeClasses (attributes : Attributes) (names : List String) : Attributes :=
  if names = [] then attributes.remove "class"
  else attributes.put "class" (" ".intercalate names)

/-- Adds or removes a class name. Where nothing changes the attribute stays as it is written. -/
def toggleClass (name : String) (on : Bool) (attributes : Attributes) : Attributes :=
  let names := classNames ((attributes.get? "class").getD "")
  let present := names.contains name
  if on && !present then writeClasses attributes (names ++ [name])
  else if !on && present then writeClasses attributes (names.filter (· ≠ name))
  else attributes

def setHidden (hidden : Bool) : Attributes → Attributes :=
  setStyle "display" (if hidden then "none" else "")

def onAttribute (name : String) (act : Value → String → Attributes → Outcome) : Step :=
  fun record attributes =>
    match attributes.get? name with
    | none => (attributes, none)
    | some spec => act record spec attributes

def checkedStep : Step :=
  onAttribute "data-checked" fun record field attributes =>
    (if record.fieldIsTruthy field then attributes.put "checked" ""
      else attributes.remove "checked", none)

def hideStep : Step :=
  onAttribute "data-hide" fun record field attributes =>
    (setHidden (record.fieldIsTruthy field) attributes, none)

def showStep : Step :=
  onAttribute "data-show" fun record field attributes =>
    (setHidden (!record.fieldIsTruthy field) attributes, none)

def onEntries (directive : ObjectDirective)
    (act : String → String → Attributes → Except TemplateError Attributes) :
    Json.Fields → Attributes → Outcome
  | [], attributes => (attributes, none)
  | (key, value) :: rest, attributes =>
    match value.string? with
    | none => (attributes, some (.valueNotString directive key))
    | some text =>
      match act key text attributes with
      | .error failure => (attributes, some failure)
      | .ok changed => onEntries directive act rest changed

def objectStep (directive : ObjectDirective)
    (act : Value → String → String → Attributes → Except TemplateError Attributes) : Step :=
  onAttribute directive.attribute fun record spec attributes =>
    match Json.parseObject spec with
    | none => (attributes, some (.invalidObject directive spec))
    | some fields => onEntries directive (act record) fields attributes

structure Conditional where
  field : String
  onTrue : String
  onFalse : String
deriving DecidableEq, Repr

def Conditional.parse? (text : String) : Option Conditional := do
  let (field, branches) ← Text.cut '?' text.toList
  let (onTrue, onFalse) ← Text.cut ':' branches
  let field := Text.trim field
  if field = [] then none
  else some ⟨String.ofList field, String.ofList (Text.trim onTrue),
    String.ofList (Text.trim onFalse)⟩

def Conditional.choose (conditional : Conditional) (record : Value) : String :=
  if record.fieldIsTruthy conditional.field then conditional.onTrue else conditional.onFalse

def styleStep : Step :=
  objectStep .style fun record property text attributes =>
    match Conditional.parse? text with
    | none => .error (.malformedConditional text)
    | some conditional => .ok (setStyle property (conditional.choose record) attributes)

def classIsOn (record : Value) (field : String) : Bool :=
  match Text.trim field.toList with
  | '!' :: negated => !record.fieldIsTruthy (String.ofList (Text.trim negated))
  | field => record.fieldIsTruthy (String.ofList field)

def classStep : Step :=
  objectStep .className fun record name field attributes =>
    .ok (toggleClass name (classIsOn record field) attributes)

/-- The directives in the order in which they apply. Each goes over all elements before the next
one starts. -/
def steps : List Step := [checkedStep, hideStep, showStep, styleStep, classStep]

end LiveList.Template.Directive
