import LiveList.Error

namespace LiveList

open Json (Value Fields)

def indexField : String := "index"

structure Bag where
  attributes : Fields
  index : Option Nat
deriving Repr, Inhabited

namespace Bag

def raw (bag : Bag) (name : String) : Option Value := OrderedMap.get? bag.attributes name

def get (bag : Bag) (name : String) : Option Value := (bag.raw name).filter Value.isTruthy

/-- Writes an attribute. The reserved one is left as it is. -/
def set (bag : Bag) (name : String) (value : Value) : Bag :=
  if name = indexField then bag
  else { bag with attributes := OrderedMap.put bag.attributes name value }

def setAll (bag : Bag) (fields : List (String × Value)) : Bag :=
  fields.foldl (fun bag (name, value) => bag.set name value) bag

def merge (bag : Bag) (fields : Value) : Except Error Bag :=
  match fields with
  | .object fields => .ok (bag.setAll fields)
  | found => .error (.fieldsNotObject found)

def assignIndex (bag : Bag) (index : Nat) : Bag :=
  ⟨OrderedMap.put bag.attributes indexField (Value.ofNat index), some index⟩

def json (bag : Bag) : Value := .object bag.attributes

end Bag

abbrev Hook := Bag → List (String × Value)

abbrev Method := Bag → List Value → List (String × Value) × Value

/-- A type of records. Two models are the same only if they have one identity. -/
structure Model where
  identity : Nat
  defaults : Option Fields
  hook : Option Hook
  methods : OrderedMap String Method

structure Record extends Bag where
  model : Model

namespace Model

def define (identity : Nat) (defaults : Option Value) (hook : Option Hook)
    (methods : OrderedMap String Method) : Except Error Model :=
  match defaults with
  | none => .ok ⟨identity, none, hook, methods⟩
  | some (.object fields) => .ok ⟨identity, some fields, hook, methods⟩
  | some found => .error (.defaultsNotObject found)

def hasMethod (model : Model) (name : String) : Bool := OrderedMap.contains model.methods name

def same (model other : Model) : Bool := model.identity == other.identity

/-- The attributes that a new record starts with: the defaults and on top of them the given fields.
No fields at all may be given as `null`. -/
def seed (model : Model) (fields : Value) : Except Error Bag :=
  match model.defaults with
  | none => .error .modelWithoutDefaults
  | some defaults =>
    if fields.isNull then .ok ⟨defaults, none⟩ else Bag.merge ⟨defaults, none⟩ fields

def create (model : Model) (fields : Value) : Except Error Record := do
  let bag ← model.seed fields
  match model.hook with
  | none => return { bag with model }
  | some hook => return { bag.setAll (hook bag) with model }

def inspect (model : Model) : String :=
  let defaults := match model.defaults with
    | none => "None"
    | some fields => "Some(" ++ Value.inspectFields fields ++ ")"
  "Model \x7b defaults: " ++ defaults ++ ", init: " ++
    (if model.hook.isSome then "true" else "false") ++ ", methods: [" ++
    ", ".intercalate ((OrderedMap.sortedKeys model.methods).map Text.quoted) ++ "] \x7d"

end Model

namespace Record

def withIndex (record : Record) (index : Nat) : Record :=
  { record with toBag := record.toBag.assignIndex index }

def put (record : Record) (name : String) (value : Value) : Record :=
  { record with toBag := record.toBag.set name value }

def update (record : Record) (fields : Value) : Except Error Record := do
  return { record with toBag := ← record.toBag.merge fields }

def call (record : Record) (name : String) (arguments : List Value) :
    Except Error (Record × Value) :=
  match OrderedMap.get? record.model.methods name with
  | none => .error (.noMethod name)
  | some method =>
    let (writes, answer) := method record.toBag arguments
    .ok ({ record with toBag := record.toBag.setAll writes }, answer)

def inspect (record : Record) : String :=
  let index := match record.index with
    | none => "None"
    | some i => "Some(" ++ toString i ++ ")"
  "Record \x7b index: " ++ index ++ ", attrs: " ++ record.json.inspect ++ " \x7d"

end Record

end LiveList
