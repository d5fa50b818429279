import LiveList.Toml.Parser
import LiveList.Toml.Writer
import LiveList.View.Builder

namespace LiveList

structure ListSettings where
  element : String
  rawHtml : Bool
  source : TemplateSource
deriving DecidableEq, Repr

namespace ListSettings

def stringOf : Toml.Value → Option String
  | .string content => some content
  | _ => none

def sourceOf : Toml.Value → Option TemplateSource
  | .table _ [("inline", value)] => (stringOf value).map .inlineMarkup
  | .table _ [("id", value)] => (stringOf value).map .elementId
  | _ => none

def flagOf : Option Toml.Value → Option Bool
  | none => some false
  | some (.boolean b) => some b
  | some _ => none

def ofFields (fields : Toml.Fields) : Option ListSettings := do
  let element ← (OrderedMap.get? fields "element").bind stringOf
  let rawHtml ← flagOf (OrderedMap.get? fields "raw_html")
  let source ← (OrderedMap.get? fields "template").bind sourceOf
  return { element, rawHtml, source }

def ofToml (document : String) : Except Error ListSettings :=
  match (Toml.parse document).bind ofFields with
  | some settings => .ok settings
  | none => .error .invalidSettings

def sourceLine : TemplateSource → String
  | .inlineMarkup markup => "inline = " ++ Toml.stringText markup ++ "\n"
  | .elementId id => "id = " ++ Toml.stringText id ++ "\n"

def toToml (settings : ListSettings) : String :=
  "element = " ++ Toml.stringText settings.element ++ "\n" ++
    "raw_html = " ++ (if settings.rawHtml then "true" else "false") ++ "\n" ++
    "\n[template]\n" ++ sourceLine settings.source

end ListSettings

def ListBuilder.withSettings (builder : ListBuilder) (settings : ListSettings) : ListBuilder :=
  { builder with
    element := some settings.element
    source := some settings.source
    rawHtml := settings.rawHtml }

end LiveList
