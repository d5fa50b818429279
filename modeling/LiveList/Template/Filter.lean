import LiveList.Json.Printer
import LiveList.Template.Error

namespace LiveList.Template

open Json (Value)

abbrev Filter := Value → Except TemplateError String

abbrev Filters := OrderedMap String Filter

namespace Filter

def ofText (f : List Char → List Char) : Filter :=
  fun value => .ok (String.ofList (f value.display.toList))

def upper : Filter := ofText Text.upper

def lower : Filter := ofText Text.lower

def capitalize : Filter := ofText Text.capitalized

def currency : Filter := ofText ('$' :: ·)

def json : Filter := fun value => .ok value.compact

end Filter

namespace Filters

def builtin : Filters :=
  [("upper", Filter.upper), ("lower", Filter.lower), ("capitalize", Filter.capitalize),
    ("currency", Filter.currency), ("json", Filter.json)]

def register (filters : Filters) (name : String) (filter : Filter) : Filters × Bool :=
  (OrderedMap.put filters name filter, OrderedMap.contains filters name)

def names (filters : Filters) : List String := OrderedMap.sortedKeys filters

def apply (filters : Filters) (name : String) (value : Value) : Except TemplateError String :=
  match OrderedMap.get? filters name with
  | some filter => filter value
  | none => .error (.unknownFilter name)

def applyAll (filters : Filters) : List String → String → Except TemplateError String
  | [], text => .ok text
  | name :: rest, text => do applyAll filters rest (← filters.apply name (.string text))

def inspect (filters : Filters) : String :=
  "FilterRegistry \x7b filters: [" ++ ", ".intercalate (filters.names.map Text.quoted) ++ "] \x7d"

end Filters

end LiveList.Template
