import LiveList.Proofs.Record.Collection

namespace LiveList

open Json (Value Fields)

namespace Record

inductive Write where
  | set (name : String) (value : Value)
  | merge (fields : Value)
  | call (name : String) (arguments : List Value)

def write (record : Record) : Write → Record
  | .set name value => record.put name value
  | .merge fields => (record.update fields).toOption.getD record
  | .call name arguments => ((record.call name arguments).toOption.map Prod.fst).getD record

variable {record : Record} {index : Nat}

theorem Carries.setAll (carries : record.Carries index) (fields : List (String × Value)) :
    Carries { record with toBag := record.toBag.setAll fields } index :=
  have ⟨sameIndex, sameShown⟩ := Bag.setAll_reserved record.toBag fields
  ⟨sameIndex.trans carries.given, sameShown.trans carries.shown⟩

theorem exists_setAll_write (record : Record) (w : Write) :
    ∃ fields, record.write w = { record with toBag := record.toBag.setAll fields } := by
  cases w with
  | set name value => exact ⟨[(name, value)], rfl⟩
  | merge fields =>
    cases fields with
    | object fields => exact ⟨fields, rfl⟩
    | _ => exact ⟨[], rfl⟩
  | call name arguments =>
    rw [Record.write, Record.call]
    cases OrderedMap.get? record.model.methods name with
    | none => exact ⟨[], rfl⟩
    | some method => exact ⟨(method record.toBag arguments).1, rfl⟩

theorem Carries.write (carries : record.Carries index) (w : Write) :
    (record.write w).Carries index := by
  obtain ⟨fields, same⟩ := record.exists_setAll_write w
  rw [same]
  exact carries.setAll fields

theorem Carries.writeAll (carries : record.Carries index) (writes : List Write) :
    (writes.foldl Record.write record).Carries index := by
  induction writes generalizing record with
  | nil => exact carries
  | cons w rest ih => exact ih (carries.write w)

end Record

namespace Collection

inductive Operation where
  | reserve
  | insertBack (record : Record)
  | insertFront (record : Record)
  | remove (index : Nat)
  | clear
  | reorder (order : List Nat)
  | write (index : Nat) (writes : List Record.Write)

namespace Operation

def apply (c : Collection) : Operation → Collection × Option Nat
  | .reserve => (c.reserveIndex.1, some c.reserveIndex.2)
  | .insertBack record => ((c.insertBack record).1, some (c.insertBack record).2)
  | .insertFront record => ((c.insertFront record).1, some (c.insertFront record).2)
  | .remove index => ((c.remove index).1, none)
  | .clear => (c.clear, none)
  | .reorder order => (c.reorder order, none)
  | .write index writes =>
    (match c.get? index with
      | none => c
      | some record => c.replace index (writes.foldl Record.write record), none)

def applyAll (c : Collection) : List Operation → Collection × List Nat
  | [] => (c, [])
  | operation :: rest =>
    let (c, given) := operation.apply c
    let (c, more) := applyAll c rest
    (c, given.toList ++ more)

end Operation

open Operation (applyAll)

variable {c : Collection} {index : Nat}

theorem Sound.apply (sound : c.Sound) (operation : Operation) : (operation.apply c).1.Sound := by
  cases operation with
  | reserve =>
    exact ⟨sound.nodup, fun index inside => Nat.lt_succ_of_lt (sound.below index inside),
      sound.carried⟩
  | insertBack record => exact sound.insertBack record
  | insertFront record => exact sound.insertFront record
  | remove index => exact sound.remove index
  | clear => exact Sound.clear
  | reorder order => exact sound.reorder order
  | write index writes =>
    rw [Operation.apply]
    cases found : c.get? index with
    | none => exact sound
    | some record => exact sound.replace _ ((sound.carries found).writeAll writes)

theorem next_apply (c : Collection) (operation : Operation) :
    (operation.apply c).2 = some c.next ∧ (operation.apply c).1.next = c.next + 1 ∨
      (operation.apply c).2 = none ∧ (operation.apply c).1.next = c.next := by
  cases operation with
  | reserve | insertBack | insertFront => exact .inl ⟨rfl, rfl⟩
  | remove | clear | reorder => exact .inr ⟨rfl, rfl⟩
  | write index writes =>
    refine .inr ⟨rfl, ?_⟩
    rw [Operation.apply]
    cases c.get? index with
    | none => rfl
    | some record => exact c.next_replace index _

theorem Sound.applyAll (sound : c.Sound) (operations : List Operation) :
    (applyAll c operations).1.Sound := by
  induction operations generalizing c with
  | nil => exact sound
  | cons operation rest ih => exact ih (sound.apply operation)

/-- The indices given out are the numbers that the counter ran through. -/
theorem given_applyAll (c : Collection) (operations : List Operation) :
    (applyAll c operations).2 = List.range' c.next (applyAll c operations).2.length ∧
      (applyAll c operations).1.next = c.next + (applyAll c operations).2.length := by
  induction operations generalizing c with
  | nil => exact ⟨rfl, rfl⟩
  | cons operation rest ih =>
    obtain ⟨range, counted⟩ := ih (operation.apply c).1
    rcases next_apply c operation with ⟨given, next⟩ | ⟨given, next⟩
    · rw [next] at range counted
      simp only [Operation.applyAll, given, Option.toList, List.singleton_append, List.length_cons,
        List.range'_succ]
      exact ⟨congrArg _ range, by omega⟩
    · rw [next] at range counted
      simp only [Operation.applyAll, given, Option.toList, List.nil_append]
      exact ⟨range, counted⟩

theorem first?_eq_some (c : Collection) :
    c.first? = some index ↔ index ∈ c.indices ∧ ∀ other ∈ c.indices, index ≤ other :=
  List.min?_eq_some_iff

theorem last?_eq_some (c : Collection) :
    c.last? = some index ↔ index ∈ c.indices ∧ ∀ other ∈ c.indices, other ≤ index :=
  List.max?_eq_some_iff

/-- However a collection is changed, the indices it gives out ascend, and every record carries the
index that it is kept under. -/
theorem indexed_applyAll (operations : List Operation) :
    let (c, given) := applyAll empty operations
    given.Pairwise (· < ·) ∧ (∀ index ∈ given, index < c.next) ∧
      c.indices.Nodup ∧ (∀ index ∈ c.indices, index < c.next) ∧
      (∀ index record, c.get? index = some record →
        record.index = some index ∧ record.raw indexField = some (Value.ofNat index)) ∧
      (∀ index, c.first? = some index ↔ index ∈ c.indices ∧ ∀ other ∈ c.indices, index ≤ other) ∧
      ∀ index, c.last? = some index ↔ index ∈ c.indices ∧ ∀ other ∈ c.indices, other ≤ index := by
  have sound := empty_sound.applyAll operations
  obtain ⟨range, counted⟩ := given_applyAll empty operations
  refine ⟨?_, ?_, sound.nodup, sound.below, ?_, fun _ => first?_eq_some _, fun _ => last?_eq_some _⟩
  · rw [range]
    exact List.pairwise_lt_range'
  · intro index given
    rw [range, List.mem_range'_1] at given
    rw [counted]
    exact given.2
  · intro index record found
    exact ⟨(sound.carries found).given, (sound.carries found).shown⟩

/-- A record with an index from elsewhere gets the next one, and no index is given a second time. -/
example (record : Record) :
    (applyAll empty [.insertBack record, .remove 0, .insertFront (record.withIndex 0), .reserve,
      .clear, .insertBack record]).2 = [0, 1, 2, 3] := rfl

end Collection

end LiveList
