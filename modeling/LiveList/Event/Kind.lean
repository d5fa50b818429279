import LiveList.Error

namespace LiveList.Event

open Json (Value)

inductive Kind where
  | push
  | remove
  | edit
  | filter
  | sort
  | pushAll
  | removeAll
deriving DecidableEq, Repr, Inhabited

namespace Kind

def all : List Kind := [.push, .remove, .edit, .filter, .sort, .pushAll, .removeAll]

def name : Kind → String
  | .push => "push"
  | .remove => "remove"
  | .edit => "edit"
  | .filter => "filter"
  | .sort => "sort"
  | .pushAll => "pushAll"
  | .removeAll => "removeAll"

def ofName (name : String) : Except Error Kind :=
  match all.find? (·.name == name) with
  | some kind => .ok kind
  | none => .error (.unknownEventKind name)

def ofNames (names : List String) : Except Error (List Kind) := names.mapM ofName

end Kind

structure Notification where
  kind : Kind
  payload : Value
deriving Repr, Inhabited

end LiveList.Event
