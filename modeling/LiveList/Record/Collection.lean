import LiveList.Record.Model

namespace LiveList

open Json (Value Fields)

structure Collection where
  records : OrderedMap Nat Record
  next : Nat

namespace Collection

def empty : Collection := ⟨[], 0⟩

instance : Inhabited Collection := ⟨empty⟩

def reserveIndex (c : Collection) : Collection × Nat := ({ c with next := c.next + 1 }, c.next)

def insertBack (c : Collection) (record : Record) : Collection × Nat :=
  let (c, index) := c.reserveIndex
  ({ c with records := OrderedMap.put c.records index (record.withIndex index) }, index)

def insertFront (c : Collection) (record : Record) : Collection × Nat :=
  let (c, index) := c.reserveIndex
  let others := OrderedMap.remove c.records index
  ({ c with records := (index, record.withIndex index) :: others }, index)

def get? (c : Collection) (index : Nat) : Option Record := OrderedMap.get? c.records index

def contains (c : Collection) (index : Nat) : Bool := OrderedMap.contains c.records index

def remove (c : Collection) (index : Nat) : Collection × Option Record :=
  ({ c with records := OrderedMap.remove c.records index }, c.get? index)

def clear (c : Collection) : Collection := { c with records := [] }

def replace (c : Collection) (index : Nat) (record : Record) : Collection :=
  if c.contains index then { c with records := OrderedMap.put c.records index record } else c

def indices (c : Collection) : List Nat := OrderedMap.keys c.records

def size (c : Collection) : Nat := c.records.length

def first? (c : Collection) : Option Nat := c.indices.min?

def last? (c : Collection) : Option Nat := c.indices.max?

def json (c : Collection) : List Value := (OrderedMap.values c.records).map fun r => r.json

def sortedIndices (c : Collection) (compare : Record → Record → Ordering) : List Nat :=
  (c.records.mergeSort fun a b => compare a.2 b.2 != .gt).map Prod.fst

def pick : List Nat → OrderedMap Nat Record → OrderedMap Nat Record × OrderedMap Nat Record
  | [], rest => ([], rest)
  | index :: order, rest =>
    match OrderedMap.get? rest index with
    -- An index that was picked before has no record any more, so repeats are skipped too.
    | none => pick order rest
    | some record =>
      let (picked, left) := pick order (OrderedMap.remove rest index)
      ((index, record) :: picked, left)

/-- Moves the records at the listed indices to the front, in the order of the list. Indices without
a record are skipped; the records that are not listed follow in their old order. -/
def reorder (c : Collection) (order : List Nat) : Collection :=
  let (picked, left) := pick order c.records
  { c with records := picked ++ left }

def agrees (record : Record) (fields : Fields) : Bool :=
  fields.all fun (name, value) =>
    match record.raw name with
    | some found => found.same value
    | none => false

def matching (c : Collection) (fields : Fields) : List Nat :=
  (c.records.filter fun entry => agrees entry.2 fields).map Prod.fst

end Collection

end LiveList
