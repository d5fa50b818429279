import LiveList.View.Basic

namespace LiveList

open Json (Value)
open Template (Filters)

inductive TemplateSource where
  | inlineMarkup (markup : String)
  | elementId (id : String)
deriving DecidableEq, Repr

def TemplateSource.inspect : TemplateSource → String
  | .inlineMarkup markup => "Inline(" ++ Text.quoted markup ++ ")"
  | .elementId id => "ElementId(" ++ Text.quoted id ++ ")"

structure ListBuilder where
  model : Option Model
  element : Option String
  source : Option TemplateSource
  rawHtml : Bool
  filters : Filters

namespace ListBuilder

def start : ListBuilder := ⟨none, none, none, false, Filters.builtin⟩

def inspectOption : Option String → String
  | none => "None"
  | some text => "Some(" ++ text ++ ")"

def inspectFlag (b : Bool) : String := if b then "true" else "false"

def inspect (builder : ListBuilder) : String :=
  "ListBuilder \x7b model: " ++ inspectFlag builder.model.isSome ++
    ", element: " ++ inspectOption (builder.element.map Text.quoted) ++
    ", template: " ++ inspectOption (builder.source.map TemplateSource.inspect) ++
    ", raw_html: " ++ inspectFlag builder.rawHtml ++
    ", filters: " ++ builder.filters.inspect ++ " \x7d"

def required {α : Type} (cause : Error) : Option α → Except Error α
  | some value => .ok value
  | none => .error cause

def markupOf (d : Document) : TemplateSource → Except Error String
  | .inlineMarkup markup => .ok markup
  | .elementId id => do
    let holder ← required (.noTemplateElement id) (d.elementById id)
    return d.innerHtml holder

def compileTemplate (markup : String) : Except Error Template :=
  let markup := Text.trimmed markup
  if markup = "" then .error .emptyTemplate
  else match Template.compile markup with
    | .error cause => .error (.template cause)
    | .ok template => if template.hasElementRoot then .ok template else .error .noElementRoot

def build (builder : ListBuilder) (d : Document) : Except Error ListView := do
  let model ← required .modelRequired builder.model
  let element ← required .containerRequired builder.element
  let source ← required .templateRequired builder.source
  let container ← required (.noElement element) (d.elementById element)
  let template ← compileTemplate (← markupOf d source)
  return ⟨model, container, template, builder.rawHtml, Collection.empty, [], builder.filters⟩

end ListBuilder

end LiveList
