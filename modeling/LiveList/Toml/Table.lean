import LiveList.OrderedMap

namespace LiveList.Toml

inductive Origin where
  /-- It has a header of its own. -/
  | header
  /-- It is only named in the header of a table inside it. -/
  | path
  /-- It is named in keys with dots. -/
  | dotted
  /-- It is written within one value. -/
  | inlined
deriving DecidableEq, Repr

inductive Value where
  | string (content : String)
  | boolean (value : Bool)
  | number (word : String)
  | moment (word : String)
  | array (items : List Value)
  | table (origin : Origin) (fields : List (String × Value))
  | tables (entries : List (List (String × Value)))
deriving Repr, Inhabited

abbrev Fields := OrderedMap String Value

/-- Changes the table at the end of a path. Tables on the way that are missing are made with the
origin `made`. Keys with dots do not pass through tables that have a header. -/
def descend (made : Origin) (act : Origin → Fields → Option Fields) :
    List String → Origin → Fields → Option Fields
  | [], origin, fields => act origin fields
  | key :: path, _, fields =>
    match OrderedMap.get? fields key with
    | none => do
      let inner ← descend made act path made []
      return OrderedMap.put fields key (.table made inner)
    | some (.table origin inner) =>
      if origin = .inlined || (made = .dotted && origin = .header) then none
      else do
        let inner ← descend made act path origin inner
        return OrderedMap.put fields key (.table origin inner)
    | some (.tables (last :: before)) => do
      let last ← descend made act path .header last
      return OrderedMap.put fields key (.tables (last :: before))
    | some _ => none

def splitLast : List String → Option (List String × String)
  | [] => none
  | [name] => some ([], name)
  | name :: rest => (splitLast rest).map fun (path, last) => (name :: path, last)

def addNew (fields : Fields) (name : String) (value : Value) : Option Fields :=
  if OrderedMap.contains fields name then none else some (OrderedMap.put fields name value)

/-- Adds the value of a key with dots to a table. The table that takes the value was made by such
keys itself, unless the key has no dots. -/
def assign (key : List String) (value : Value) (origin : Origin) (fields : Fields) :
    Option Fields := do
  let (path, name) ← splitLast key
  descend .dotted (fun reached fields =>
    if reached = .dotted ↔ path = [] then none else addNew fields name value)
    path origin fields

def openTable (key : List String) (root : Fields) : Option Fields := do
  let (path, name) ← splitLast key
  descend .path (fun _ fields =>
    match OrderedMap.get? fields name with
    | none => some (OrderedMap.put fields name (.table .header []))
    | some (.table .path inner) => some (OrderedMap.put fields name (.table .header inner))
    | some _ => none) path .header root

def openEntry (key : List String) (root : Fields) : Option Fields := do
  let (path, name) ← splitLast key
  descend .path (fun _ fields =>
    match OrderedMap.get? fields name with
    | none => some (OrderedMap.put fields name (.tables [[]]))
    | some (.tables entries) => some (OrderedMap.put fields name (.tables ([] :: entries)))
    | some _ => none) path .header root

def assignIn (opened key : List String) (value : Value) (root : Fields) : Option Fields :=
  descend .path (assign key value) opened .header root

end LiveList.Toml
