import LiveList.Json.Printer
import LiveList.Template.Error

namespace LiveList

open Json (Value)

inductive Error where
  | modelWithoutDefaults
  | defaultsNotObject (found : Value)
  | modelRequired
  | containerRequired
  | templateRequired
  | noElement (id : String)
  | noTemplateElement (id : String)
  | emptyTemplate
  | noElementRoot
  | invalidSettings
  | fieldsNotObject (found : Value)
  | entriesNotObject (found : Value)
  | noMethod (name : String)
  | foreignRecord
  | undecodable (key : String)
  | unstorable (key : String)
  | template (cause : TemplateError)
  | missingDataId (index : Nat)
  | unknownEventKind (name : String)
deriving Repr

namespace Error

def invalid (reason : String) : String := "Validation error: " ++ reason

def malformed (reason : String) : String := "Invalid arguments: " ++ reason

open TemplateError (inQuotes)

def message : Error → String
  | .modelWithoutDefaults => invalid "model was declared without defaults"
  | .defaultsNotObject found => invalid ("model defaults must be an object, got " ++ found.compact)
  | .modelRequired => invalid "a model is required"
  | .containerRequired => invalid "a container element is required"
  | .templateRequired => invalid "a template is required"
  | .noElement id => invalid ("no element with id " ++ inQuotes id)
  | .noTemplateElement id => invalid ("no template element with id " ++ inQuotes id)
  | .emptyTemplate => invalid "template is empty"
  | .noElementRoot =>
    invalid "template needs a top-level element outside data-loop to carry data-id"
  | .invalidSettings => invalid "invalid list settings"
  | .fieldsNotObject found => malformed ("expected an object of fields, got " ++ found.compact)
  | .entriesNotObject found => malformed ("expected an object of entries, got " ++ found.compact)
  | .noMethod name => malformed ("model has no method " ++ inQuotes name)
  | .foreignRecord => malformed "record was created from a different model"
  | .undecodable key => malformed ("cannot decode " ++ inQuotes key)
  | .unstorable key => malformed ("cannot store " ++ inQuotes key)
  | .template cause => cause.message
  | .missingDataId index => "No rendered node with data-id=" ++ inQuotes (toString index)
  | .unknownEventKind name =>
    "Unknown event kind " ++ inQuotes name ++
      "; expected one of push, remove, edit, filter, sort, pushAll, removeAll"

end Error

end LiveList
