namespace LiveList

inductive ObjectDirective where
  | style
  | className
deriving DecidableEq, Repr

def ObjectDirective.attribute : ObjectDirective → String
  | .style => "data-style"
  | .className => "data-class"

inductive TemplateError where
  | unterminated (text : String)
  | emptyExpression (inner : String)
  | emptyFilterName (inner : String)
  | malformedPath (source : String)
  | emptyLoop (tag : String)
  | resolution (source : String)
  | unknownFilter (name : String)
  | serialization (reason : String)
  | missingLoopField (field : String)
  | notAnArray (field : String)
  | invalidObject (directive : ObjectDirective) (spec : String)
  | valueNotString (directive : ObjectDirective) (key : String)
  | malformedConditional (expression : String)
deriving DecidableEq, Repr

namespace TemplateError

def inQuotes (s : String) : String := "\"" ++ s ++ "\""

def inDirective (directive : ObjectDirective) (reason : String) : String :=
  "Directive syntax error in " ++ directive.attribute ++ ": " ++ reason

def inTemplate (reason : String) : String := "Template syntax error: " ++ reason

def message : TemplateError → String
  | .unterminated text =>
    inTemplate ("unterminated " ++ inQuotes "\x7b\x7b" ++ " in " ++ inQuotes text)
  | .emptyExpression inner =>
    inTemplate ("empty expression in " ++ inQuotes ("\x7b\x7b" ++ inner ++ "\x7d\x7d"))
  | .emptyFilterName inner => inTemplate ("empty filter name in " ++ inQuotes inner)
  | .malformedPath source => inTemplate ("malformed path " ++ inQuotes source)
  | .emptyLoop tag => inTemplate ("empty data-loop attribute on <" ++ tag ++ ">")
  | .resolution source => "Cannot resolve expression " ++ inQuotes source ++ " in template"
  | .unknownFilter name => "Unknown template filter: " ++ name
  | .serialization reason => "Value can not be serialized to a JSON string: " ++ reason
  | .missingLoopField field => "Loop field " ++ inQuotes field ++ " is missing"
  | .notAnArray field => "Loop field " ++ inQuotes field ++ " is not an array"
  | .invalidObject directive spec => inDirective directive ("invalid JSON object " ++ spec)
  | .valueNotString directive key =>
    inDirective directive ("value for " ++ inQuotes key ++ " must be a string")
  | .malformedConditional expression =>
    inDirective .style ("expected " ++ inQuotes "field?a:b" ++ ", got " ++ inQuotes expression)

end TemplateError

end LiveList
