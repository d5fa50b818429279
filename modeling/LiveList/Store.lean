import LiveList.Error

namespace LiveList

open Json (Value)

structure Store where
  entries : OrderedMap String Value
deriving Repr, Inhabited

namespace Store

def empty : Store := ⟨[]⟩

def save (store : Store) (key : String) (value : Value) : Store :=
  ⟨OrderedMap.put store.entries key value⟩

/-- Stores the fields of an object; any other value is refused and nothing is stored. -/
def saveAll (store : Store) (entries : Value) : Except Error Store :=
  match entries with
  | .object fields => .ok ⟨OrderedMap.putAll store.entries fields⟩
  | found => .error (.entriesNotObject found)

def saveAs (store : Store) (key : String) (form : Option Value) : Except Error Store :=
  match form with
  | some value => .ok (store.save key value)
  | none => .error (.unstorable key)

def fetch (store : Store) (key : String) : Option Value := OrderedMap.get? store.entries key

def fetchAs {α : Type} (store : Store) (key : String) (decode : Value → Option α) :
    Except Error (Option α) :=
  match store.fetch key with
  | none => .ok none
  | some value =>
    match decode value with
    | some found => .ok (some found)
    | none => .error (.undecodable key)

def clear (_ : Store) : Store := empty

def keys (store : Store) : List String := OrderedMap.sortedKeys store.entries

def size (store : Store) : Nat := store.entries.length

end Store

end LiveList
