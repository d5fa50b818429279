import LiveList.Proofs.Page.Deed
import LiveList.Proofs.Page.Guard
import LiveList.Proofs.Page.Reached
import LiveList.Proofs.Record.Creation

namespace LiveList

open Json (Value Fields)

/-- What an object gives for a field. Of a field that is given twice the last counts. -/
def given? : Value → String → Option Value
  | .object fields, name => OrderedMap.get? (OrderedMap.putAll [] fields) name
  | _, _ => none

def Entry.Assigns (index : Nat) : Entry → Prop
  | .inserted indices => index ∈ indices
  | _ => False

def Entry.Frees (index : Nat) : Entry → Prop
  | .removed other => other = index
  | .cleared => True
  | _ => False

def Call.given? {ℓ π κ : Type} (index : Nat) (name : String) : Call ℓ π κ → Entry → Option Value
  | .push data, .inserted indices | .unshift data, .inserted indices =>
    if index ∈ indices then LiveList.given? data name else none
  | .pushRecord record, .inserted indices => if index ∈ indices then record.raw name else none
  | .pushAll items, .inserted indices =>
    (items[indices.idxOf index]?).bind fun item => LiveList.given? item name
  | .edit _ fields, .edited other => if other = index then LiveList.given? fields name else none
  | _, _ => none

/-- The records of a model, however they have been written to since they were created. -/
inductive Record.Made (model : Model) : Record → Prop
  | create {fields : Value} {record : Record} (run : model.create fields = .ok record) :
      Made model record
  | put {record : Record} (made : Made model record) (name : String) (value : Value) :
      Made model (record.put name value)
  | update {record updated : Record} {fields : Value} (made : Made model record)
      (run : record.update fields = .ok updated) : Made model updated
  | call {record called : Record} {name : String} {arguments : List Value} {answer : Value}
      (made : Made model record) (run : record.call name arguments = .ok (called, answer)) :
      Made model called
  | withIndex {record : Record} (made : Made model record) (index : Nat) :
      Made model (record.withIndex index)

namespace Page

variable {ℓ π κ σ α : Type}

def deeds (list : Nat) (log : List (Mark ℓ π κ σ)) : List (Call ℓ π κ × Entry) :=
  log.filterMap fun
    | .took other call entry _ => if other = list then some (call, entry) else none
    | _ => none

def Remains (index : Nat) (deeds : List (Call ℓ π κ × Entry)) : Prop :=
  ∃ before deed behind, deeds = before ++ deed :: behind ∧ deed.2.Assigns index ∧
    ∀ later ∈ behind, ¬ later.2.Frees index

/-- The attribute of a record that is the last to have been given for it, else the default. -/
def recorded (defaults : Fields) (index : Nat) (name : String)
    (deeds : List (Call ℓ π κ × Entry)) : Option Value :=
  deeds.foldl (fun held deed => (deed.1.given? index name deed.2).or held)
    (OrderedMap.get? defaults name)

/-! ## Records of a model -/

theorem fields_of_update {record updated : Record} {fields : Value}
    (run : record.update fields = .ok updated) {name : String} (free : name ≠ indexField) :
    updated.raw name = (given? fields name).or (record.raw name) := by
  cases fields with
  | object fields =>
    cases run
    exact record.raw_setAll fields free
  | _ => cases run

theorem raw_of_seed {model : Model} {data : Value} {bag : Bag} (run : model.seed data = .ok bag)
    {name : String} (free : name ≠ indexField) :
    bag.raw name = (given? data name).or (OrderedMap.get? (model.defaults.getD []) name) := by
  unfold Model.seed at run
  cases defaults : model.defaults with
  | none => simp [defaults] at run
  | some fields =>
    cases data with
    | null =>
      simp only [defaults, Value.isNull, if_true] at run
      cases run
      rfl
    | object given =>
      simp only [defaults, Value.isNull, Bag.merge] at run
      cases run
      exact Bag.raw_setAll ⟨fields, none⟩ given free
    | _ => simp [defaults, Value.isNull, Bag.merge] at run

theorem raw_of_create {model : Model} (plain : model.hook = none) {data : Value} {record : Record}
    (run : model.create data = .ok record) {name : String} (free : name ≠ indexField) :
    record.raw name = (given? data name).or (OrderedMap.get? (model.defaults.getD []) name) := by
  obtain ⟨bag, seeded, same⟩ := exists_seed run
  rw [plain] at same
  rw [same, raw_of_seed seeded free]

theorem raw_eq_none_of_setAll {bag : Bag} {fields : List (String × Value)} {name : String}
    (free : name ≠ indexField) (absent : (bag.setAll fields).raw name = none) :
    bag.raw name = none := by
  rw [bag.raw_setAll fields free, Option.or_eq_none_iff] at absent
  exact absent.2

theorem bag_of_made {model : Model} {record : Record} {P : Bag → Prop} (made : record.Made model)
    (start : ∀ defaults, model.defaults = some defaults → P ⟨defaults, none⟩)
    (setAll : ∀ bag fields, P bag → P (bag.setAll fields))
    (assignIndex : ∀ bag index, P bag → P (bag.assignIndex index)) : P record.toBag := by
  have merge {bag merged : Bag} {fields : Value} (was : P bag) (run : bag.merge fields = .ok merged) :
      P merged := by
    cases fields with
    | object fields =>
      cases run
      exact setAll bag fields was
    | _ => cases run
  induction made with
  | @create data _ run =>
    obtain ⟨bag, seeded, same⟩ := exists_seed run
    have seed : P bag := by
      unfold Model.seed at seeded
      split at seeded
      · cases seeded
      case h_2 defaults has =>
        split at seeded
        · cases seeded
          exact start defaults has
        · exact merge (start defaults has) seeded
    rw [same]
    split
    · exact seed
    · exact setAll bag _ seed
  | @put record _ name value ih => exact setAll record.toBag [(name, value)] ih
  | @update record _ fields _ run ih =>
    cases merged : record.toBag.merge fields with
    | error cause =>
      rw [Record.update, merged] at run
      cases run
    | ok bag =>
      rw [Record.update, merged] at run
      cases run
      exact merge ih merged
  | call _ run ih =>
    unfold Record.call at run
    split at run
    · cases run
    · cases run
      exact setAll _ _ ih
  | withIndex _ index ih => exact assignIndex _ index ih

theorem default_of_made {model : Model} {record : Record} (made : record.Made model) {name : String}
    (free : name ≠ indexField) :
    record.raw name = none → OrderedMap.get? (model.defaults.getD []) name = none := by
  -- Attributes are written and never taken away.
  refine bag_of_made (P := fun bag => bag.raw name = none →
    OrderedMap.get? (model.defaults.getD []) name = none) made ?_ ?_ ?_
  · intro defaults has absent
    rwa [has]
  · exact fun bag fields ih absent => ih (raw_eq_none_of_setAll free absent)
  · intro bag index ih absent
    rw [Bag.raw, Bag.assignIndex, OrderedMap.get?_put, if_neg (Ne.symm free)] at absent
    exact ih absent

theorem raw_withIndex {record : Record} {index : Nat} {name : String} (free : name ≠ indexField) :
    (record.withIndex index).raw name = record.raw name := by
  have same : (record.withIndex index).raw name =
    OrderedMap.get? (OrderedMap.put record.attributes indexField (Value.ofNat index)) name := rfl
  rw [same, OrderedMap.get?_put, if_neg (Ne.symm free)]
  rfl

/-! ## Collections and their history -/

structure History (model : Model) (deeds : List (Call ℓ π κ × Entry)) (c : Collection) : Prop where
  sound : c.Sound
  remains : ∀ index, (c.get? index).isSome ↔ Remains index deeds
  content : ∀ index record, c.get? index = some record → ∀ name, name ≠ indexField →
    record.raw name = recorded (model.defaults.getD []) index name deeds
  fresh : ∀ index name, c.next ≤ index →
    recorded (model.defaults.getD []) index name deeds = OrderedMap.get? (model.defaults.getD []) name
  made : ∀ index record, c.get? index = some record → record.Made model

variable {model : Model} {history : List (Call ℓ π κ × Entry)} {c c' : Collection}
  {call : Call ℓ π κ} {entry : Entry} {index : Nat} {name : String}

theorem remains_append (deed : Call ℓ π κ × Entry) : Remains index (history ++ [deed]) ↔
    deed.2.Assigns index ∨ Remains index history ∧ ¬ deed.2.Frees index := by
  constructor
  · rintro ⟨before, first, behind, same, assigns, stays⟩
    rcases List.eq_nil_or_concat behind with rfl | ⟨behind, last, rfl⟩
    · obtain ⟨-, same⟩ := List.append_inj' same rfl
      cases same
      exact .inl assigns
    · rw [List.concat_eq_append, ← List.cons_append, ← List.append_assoc] at same
      obtain ⟨rfl, lastSame⟩ := List.append_inj' same rfl
      cases lastSame
      refine .inr ⟨⟨before, first, behind, rfl, assigns, fun later inside => ?_⟩, ?_⟩
      · exact stays later (by simp [inside])
      · exact stays deed (by simp)
  · rintro (assigns | ⟨⟨before, first, behind, rfl, assigns, stays⟩, keeps⟩)
    · exact ⟨history, deed, [], rfl, assigns, by simp⟩
    · refine ⟨before, first, behind ++ [deed], by simp, assigns, fun later inside => ?_⟩
      rcases List.mem_append.1 inside with earlier | last
      · exact stays later earlier
      · exact List.mem_singleton.1 last ▸ keeps

theorem recorded_append (defaults : Fields) (deed : Call ℓ π κ × Entry) :
    recorded defaults index name (history ++ [deed]) =
      (deed.1.given? index name deed.2).or (recorded defaults index name history) := by
  simp [recorded]

namespace History

theorem empty (none : c.records = []) : History (ℓ := ℓ) (π := π) (κ := κ) model [] c := by
  have unheld (index : Nat) : c.get? index = Option.none := by
    rw [Collection.get?, none]
    rfl
  refine ⟨⟨?_, ?_, ?_⟩, fun index => ?_, fun index record held => ?_, fun _ _ _ => rfl,
    fun index record held => ?_⟩
  · simp [Collection.indices, none, OrderedMap.keys]
  · simp [Collection.indices, none, OrderedMap.keys]
  · simp [none]
  · simp [unheld, Remains]
  · simp [unheld] at held
  · simp [unheld] at held

variable (held : History model history c)
include held

theorem gains {records : List Record} (gains : c.Gains records c')
    (made : ∀ record ∈ records, record.Made model)
    (given : ∀ offset record, records[offset]? = some record → ∀ name, name ≠ indexField →
      record.raw name = (call.given? (c.next + offset) name
        (.inserted (List.range' c.next records.length))).or
          (OrderedMap.get? (model.defaults.getD []) name))
    (only : ∀ index name, index ∉ List.range' c.next records.length →
      call.given? index name (.inserted (List.range' c.next records.length)) = none) :
    History model (history ++ [(call, .inserted (List.range' c.next records.length))]) c' := by
  have assigned (index : Nat) : index ∈ List.range' c.next records.length ↔
      c.next ≤ index ∧ index < c.next + records.length := by
    simp
  have outside {index : Nat} (notNew : index ∉ List.range' c.next records.length) :
      c'.get? index = c.get? index := by
    have absent : (if c.next ≤ index then records[index - c.next]? else none) = none := by
      split
      · exact List.getElem?_eq_none (by rw [assigned] at notNew; omega)
      · rfl
    rw [gains.get?, absent]
    rfl
  have unheld {index : Nat} (above : c.next ≤ index) : c.get? index = none := by
    rw [← Option.not_isSome_iff_eq_none]
    intro there
    obtain ⟨record, found⟩ := Option.isSome_iff_exists.1 there
    have below := held.sound.below index (Collection.mem_indices.2 ⟨record, found⟩)
    omega
  have inside {index : Nat} (new : index ∈ List.range' c.next records.length) :
      ∃ offset record, index = c.next + offset ∧ records[offset]? = some record ∧
        c'.get? index = some (record.withIndex index) := by
    obtain ⟨above, below⟩ := (assigned index).1 new
    obtain ⟨offset, rfl⟩ := Nat.exists_eq_add_of_le above
    have there : offset < records.length := by omega
    refine ⟨offset, records[offset], rfl, List.getElem?_eq_getElem there, ?_⟩
    rw [gains.get?, if_pos above, Nat.add_sub_cancel_left, List.getElem?_eq_getElem there]
    rfl
  -- An index is one of the new ones, with the record that was given, or it is as it was.
  refine ⟨gains.sound, fun index => ?_, fun index record found name free => ?_,
    fun index name above => ?_, fun index record found => ?_⟩
  · rw [remains_append]
    by_cases new : index ∈ List.range' c.next records.length
    · obtain ⟨offset, record, rfl, -, found⟩ := inside new
      simp [found, Entry.Assigns, new]
    · rw [outside new, held.remains]
      simp only [Entry.Assigns, new, Entry.Frees, not_false_eq_true, and_true, false_or]
  · rw [recorded_append]
    by_cases new : index ∈ List.range' c.next records.length
    · obtain ⟨offset, made, rfl, there, found'⟩ := inside new
      cases found'.symm.trans found
      rw [raw_withIndex free, given offset made there name free,
        held.fresh _ name (Nat.le_add_right _ _)]
    · rw [only index name new, Option.none_or]
      exact held.content index record (outside new ▸ found) name free
  · have notNew : index ∉ List.range' c.next records.length := by
      rw [assigned]
      have next := gains.next
      omega
    rw [recorded_append, only index name notNew, Option.none_or]
    have next := gains.next
    exact held.fresh index name (by omega)
  · by_cases new : index ∈ List.range' c.next records.length
    · obtain ⟨offset, bare, rfl, there, found'⟩ := inside new
      cases found'.symm.trans found
      exact (made bare (List.mem_of_getElem? there)).withIndex _
    · exact held.made index record (outside new ▸ found)

theorem stays (sound : c'.Sound) (next : c'.next = c.next)
    (silent : ∀ index name, call.given? index name entry = none)
    (assigns : ∀ index, ¬ entry.Assigns index)
    (left : ∀ index, c'.get? index = none ∧ entry.Frees index ∨
      c'.get? index = c.get? index ∧ (¬ entry.Frees index ∨ c.get? index = none)) :
    History model (history ++ [(call, entry)]) c' := by
  refine ⟨sound, fun index => ?_, fun index record found name free => ?_,
    fun index name above => ?_, fun index record found => ?_⟩
  · rw [remains_append]
    rcases left index with ⟨gone, frees⟩ | ⟨same, frees | gone⟩
    · simp [gone, assigns index, frees]
    · simp [same, held.remains, assigns index, frees]
    · have never : ¬ Remains index history := by simp [← held.remains, gone]
      simp [same, gone, assigns index, never]
  · rw [recorded_append, silent, Option.none_or]
    rcases left index with ⟨gone, -⟩ | ⟨same, -⟩
    · simp [gone] at found
    · exact held.content index record (same ▸ found) name free
  · rw [recorded_append, silent, Option.none_or]
    exact held.fresh index name (next ▸ above)
  · rcases left index with ⟨gone, -⟩ | ⟨same, -⟩
    · simp [gone] at found
    · exact held.made index record (same ▸ found)

theorem edit {fields : Value} {record updated : Record} (found : c.get? index = some record)
    (run : record.update fields = .ok updated) :
    History model (history ++ [((.edit index fields : Call ℓ π κ), .edited index)])
      (c.replace index updated) := by
  have known : index ∈ c.indices := Collection.mem_indices.2 ⟨record, found⟩
  have carries := (held.sound.carries found).update run
  refine ⟨held.sound.replace updated carries, fun other => ?_, fun other later found' name free => ?_,
    fun other name above => ?_, fun other later found' => ?_⟩
  · rw [remains_append, Collection.get?_replace known, ← held.remains]
    by_cases same : index = other
    · subst same
      simp [found, Entry.Assigns, Entry.Frees]
    · simp [same, Entry.Assigns, Entry.Frees]
  · rw [Collection.get?_replace known] at found'
    rw [recorded_append]
    by_cases same : index = other
    · subst same
      rw [if_pos rfl, Option.some.injEq] at found'
      subst found'
      rw [fields_of_update run free, held.content index record found name free]
      exact congrArg (Option.or · _) (if_pos rfl).symm
    · rw [if_neg same] at found'
      have silent : (Call.edit (ℓ := ℓ) (π := π) (κ := κ) index fields).given? other name
        (.edited index) = none := if_neg same
      rw [silent, Option.none_or]
      exact held.content other later found' name free
  · have below := held.sound.below index known
    rw [Collection.next_replace] at above
    have silent : (Call.edit (ℓ := ℓ) (π := π) (κ := κ) index fields).given? other name
      (.edited index) = none := if_neg (by omega)
    rw [recorded_append, silent, Option.none_or]
    exact held.fresh other name above
  · rw [Collection.get?_replace known] at found'
    split at found'
    · cases found'
      exact (held.made index record found).update run
    · exact held.made other later found'

theorem insert (plain : model.hook = none) {record : Record} {place : Place}
    (leads : call.Leads (· = model) (.insert record place))
    (made : ∀ pushed, call = .pushRecord pushed → pushed.Made model) :
    History model (history ++ [(call, .inserted [c.next])]) (place.added c record) := by
  have only (index : Nat) (name : String) (notNew : index ∉ [c.next]) :
      call.given? index name (.inserted [c.next]) = none := by
    cases leads <;> exact if_neg notNew
  have its : record.Made model := by
    cases leads with
    | push _ isKnown created | unshift _ isKnown created => exact isKnown ▸ .create created
    | pushRecord record => exact made record rfl
  refine held.gains (held.sound.gains_added place record) (by simpa using its) ?_ only
  intro offset other there name free
  obtain ⟨rfl, rfl⟩ : offset = 0 ∧ record = other := by
    cases offset with
    | zero => exact ⟨rfl, Option.some.inj there⟩
    | succ offset => cases there
  have first : c.next ∈ [c.next] := List.mem_singleton_self _
  cases leads with
  | push _ isKnown created =>
    subst isKnown
    exact (raw_of_create plain created free).trans (congrArg (Option.or · _) (if_pos first).symm)
  | unshift _ isKnown created =>
    subst isKnown
    exact (raw_of_create plain created free).trans (congrArg (Option.or · _) (if_pos first).symm)
  | pushRecord record =>
    have given : (Call.pushRecord (ℓ := ℓ) (π := π) (κ := κ) record).given? (c.next + 0) name
        (.inserted (List.range' c.next [record].length)) = record.raw name := if_pos first
    rw [given]
    cases absent : record.raw name with
    | none => exact (default_of_made (made record rfl) free absent).symm
    | some value => rfl

theorem insertAll (plain : model.hook = none) {items : List Value} {records : List Record}
    (created : items.mapM model.create = .ok records) :
    History model (history ++ [((.pushAll items : Call ℓ π κ),
      .inserted (List.range' c.next records.length))]) (c.addedAll (Patch.numbered c records)) := by
  have length : (Patch.numbered c records).length = records.length := List.length_mapIdx
  obtain ⟨lengths, each⟩ := List.forall₂_iff_get.1 (mapM_eq_ok.1 created)
  rw [← length]
  refine held.gains (held.sound.gains_addedAll _) ?_ ?_ ?_
  · intro record inside
    obtain ⟨offset, below, rfl⟩ := List.mem_mapIdx.1 inside
    exact (Record.Made.create (each offset (lengths ▸ below) below)).withIndex _
  · intro offset record there name free
    obtain ⟨bare, found, rfl⟩ : ∃ bare, records[offset]? = some bare ∧
        bare.withIndex (c.next + offset) = record := by
      simpa [Patch.numbered, List.getElem?_mapIdx] using there
    obtain ⟨below, isBare⟩ := List.getElem?_eq_some_iff.1 found
    have run := each offset (lengths ▸ below) below
    have place : (List.range' c.next (Patch.numbered c records).length).idxOf (c.next + offset) =
        offset := by
      have distinct : (List.range' c.next records.length).Nodup := List.nodup_range'
      have at_ := distinct.idxOf_getElem offset (by simpa using below)
      simpa [length] using at_
    rw [raw_withIndex free, ← isBare]
    refine (raw_of_create plain run free).trans ?_
    simp only [Call.given?, place, List.getElem?_eq_getElem (lengths ▸ below)]
    rfl
  · intro index name notNew
    simp only [Call.given?]
    rw [List.idxOf_eq_length notNew, List.length_range', length, ← lengths,
      List.getElem?_eq_none (Nat.le_refl _)]
    rfl

theorem deed (plain : model.hook = none) {stroke : Stroke} {said : Option Event.Notification}
    (deed : Deed model c stroke entry said c') (leads : call.Leads (· = model) stroke)
    (made : ∀ pushed, call = .pushRecord pushed → pushed.Made model) :
    History model (history ++ [(call, entry)]) c' := by
  cases deed with
  | insert record place => exact held.insert plain leads made
  | insertAll created =>
    cases leads
    exact held.insertAll plain created
  | @remove removed record found =>
    refine held.stays (held.sound.remove removed) rfl (fun _ _ => by cases call <;> rfl)
      (fun _ => id) fun index => ?_
    rw [Collection.get?_remove]
    by_cases same : removed = index
    · exact .inl ⟨if_pos same, same⟩
    · exact .inr ⟨if_neg same, .inl same⟩
  | removeAll =>
    exact held.stays Collection.Sound.clear rfl (fun _ _ => by cases call <;> rfl) (fun _ => id)
      fun index => .inl ⟨rfl, trivial⟩
  | edit found run =>
    cases leads
    exact held.edit found run
  | showOnly | updateView | addFilter =>
    exact held.stays held.sound rfl (fun _ _ => by cases call <;> rfl) (fun _ => id)
      fun index => .inr ⟨rfl, .inl id⟩
  | arrange order brought | sort brought =>
    exact held.stays (held.sound.reorder brought) rfl (fun _ _ => by cases call <;> rfl) (fun _ => id)
      fun index => .inr ⟨Collection.get?_reorder held.sound brought index, .inl id⟩

end History

/-! ## Runs -/

section

variable {list : Nat} {s : Traced ℓ π κ σ}

@[simp] theorem deeds_append (list : Nat) (log more : List (Mark ℓ π κ σ)) :
    deeds list (log ++ more) = deeds list log ++ deeds list more := List.filterMap_append

theorem deeds_marksOf (list other : Nat) (call : Call ℓ π κ) (stroke : Stroke)
    (result : stroke.Result) : deeds list (marksOf other call stroke result : List (Mark ℓ π κ σ)) =
      if other = list then ((stroke.line result).map (call, ·)).toList else [] := by
  rw [marksOf]
  cases stroke.line result <;> by_cases same : other = list <;> simp [deeds, same]

def Remembers (list : Nat) (model : Model) (s : Traced ℓ π κ σ) : Prop :=
  ∃ mounted, s.page.list? list = some mounted ∧ mounted.view.model = model ∧
    ((∀ record entry, (.pushRecord record, entry) ∈ deeds list s.log → record.Made model) →
      History model (deeds list s.log) mounted.view.collection)

theorem Remembers.modifyList (remembers : Remembers list model s) {other : Nat}
    {f : Mounted ℓ → Mounted ℓ} (view : ∀ mounted, (f mounted).view = mounted.view) :
    Remembers list model { s with page := s.page.modifyList other f } := by
  obtain ⟨mounted, there, isModel, held⟩ := remembers
  by_cases same : other = list
  · subst same
    exact ⟨f mounted, list?_modifyList_self there f, by rw [view, isModel], by rw [view]; exact held⟩
  · exact ⟨mounted, (list?_modifyList_of_ne same f).trans there, isModel, held⟩

theorem Remembers.marked (remembers : Remembers list model s) {mark : Mark ℓ π κ σ}
    (noDeed : deeds list [mark] = []) : Remembers list model { s with log := s.log ++ [mark] } := by
  obtain ⟨mounted, there, isModel, held⟩ := remembers
  refine ⟨mounted, there, isModel, ?_⟩
  dsimp only
  rwa [deeds_append, noDeed, List.append_nil]

theorem Remembers.struck (remembers : Remembers list model s) (plain : model.hook = none)
    {other : Nat} {stroke : Stroke} (leads : call.Leads (fun m => other = list → m = model) stroke)
    {mounted : Mounted ℓ} {scene : Scene} {result : stroke.Result}
    (there : s.page.list? other = some mounted)
    (run : stroke.change.on ⟨mounted.view, s.page.document⟩ = (result, scene)) :
    Remembers list model ⟨Page.struck s.page other stroke result scene,
      s.log ++ marksOf other call stroke result⟩ := by
  obtain ⟨own, there', isModel, held⟩ := remembers
  unfold Remembers
  simp only [deeds_append, deeds_marksOf]
  by_cases same : other = list
  · subst same
    obtain rfl : mounted = own := Option.some.inj (there.symm.trans there')
    obtain ⟨sameModel, does⟩ := stroke.does run
    refine ⟨mounted.after scene.view (stroke.line result), list?_modifyList_self there _,
      sameModel.trans isModel, fun made => ?_⟩
    rw [if_pos rfl] at made ⊢
    have before := held fun record entry inside => made record entry (List.mem_append_left _ inside)
    rcases does with ⟨line, -, unchanged⟩ | ⟨entry, line, deed⟩
    · rw [line, Option.map_none, Option.toList_none, List.append_nil]
      change History model _ scene.view.collection
      rw [unchanged]
      exact before
    · rw [line] at made ⊢
      refine before.deed plain (isModel ▸ deed) (leads.mono fun _ known => known rfl)
        fun pushed isPush => made pushed entry ?_
      simp [isPush]
  · refine ⟨own, (list?_modifyList_of_ne same _).trans there', isModel, fun made => ?_⟩
    rw [if_neg same, List.append_nil] at made ⊢
    exact held made

theorem remembers_guards (list : Nat) {model : Model} (plain : model.hook = none) :
    Guards (ℓ := ℓ) (π := π) (κ := κ) (σ := σ) (fun other m => other = list → m = model)
      fun _ : Unit => Remembers list model where
  model := by
    rintro _ s other mounted ⟨own, there, isModel, -⟩ there' rfl
    obtain rfl : own = mounted := Option.some.inj (there.symm.trans there')
    exact isModel
  user _ _ _ remembers := remembers
  document _ _ _ remembers := remembers
  state _ _ _ _ view _ remembers := remembers.modifyList view
  subscribe _ s other mounted kinds listener _ remembers := by
    have turned : Remembers list model { s with page := s.page.modifyList other fun m =>
        { m with hub := (mounted.hub.subscribe kinds listener).1 } } :=
      remembers.modifyList fun _ => rfl
    exact turned.marked rfl
  unsubscribe _ _ _ _ _ _ remembers := remembers.modifyList fun _ => rfl
  strike _ listen _ _ _ _ leads :=
    strikeTraced_preserves (fun _ _ _ _ remembers there run => remembers.struck plain leads there run)
      (fun _ _ _ remembers => remembers.marked rfl) (fun _ _ _ remembers => remembers.marked rfl)
      (listen ())

end

theorem exists_history {behaviour : Behaviour ℓ π κ σ} {depth list : Nat}
    {action : Action ℓ π κ σ α} {page left : Page ℓ σ} {a : α} {mounted : Mounted ℓ}
    (there : page.list? list = some mounted) (bare : mounted.view.collection.records = [])
    (plain : mounted.view.model.hook = none)
    (run : (runAction (perform behaviour depth) action).run page = some (a, left)) :
    ∃ log, (actTraced (trace behaviour depth) action).run ⟨page, []⟩ = some (a, ⟨left, log⟩) ∧
      ((∀ record entry, (.pushRecord record, entry) ∈ deeds list log →
          record.Made mounted.view.model) →
        ∃ now, left.list? list = some now ∧
          History mounted.view.model (deeds list log) now.view.collection) := by
  obtain ⟨log, traced⟩ := exists_trace run
  have guards := remembers_guards (ℓ := ℓ) (π := π) (κ := κ) (σ := σ) list plain
  have start : Remembers list mounted.view.model (⟨page, []⟩ : Traced ℓ π κ σ) :=
    ⟨mounted, there, rfl, fun _ => .empty bare⟩
  obtain ⟨now, there', -, held⟩ :=
    guards.act () (guards.trace behaviour () depth) action _ start a _ traced
  exact ⟨log, traced, fun made => ⟨now, there', held made⟩⟩

/-- After a run of a list that began with no records, a record is there just if it was given its
index and not removed since, and has what its history wrote. -/
theorem records_recorded {behaviour : Behaviour ℓ π κ σ} {depth list : Nat}
    {action : Action ℓ π κ σ α} {page left : Page ℓ σ} {a : α} {mounted : Mounted ℓ}
    (there : page.list? list = some mounted) (bare : mounted.view.collection.records = [])
    (plain : mounted.view.model.hook = none)
    (run : (runAction (perform behaviour depth) action).run page = some (a, left)) :
    ∃ log, (actTraced (trace behaviour depth) action).run ⟨page, []⟩ = some (a, ⟨left, log⟩) ∧
      ((∀ record entry, (.pushRecord record, entry) ∈ deeds list log →
          record.Made mounted.view.model) →
        ∃ now, left.list? list = some now ∧ ∀ index,
          ((now.view.collection.get? index).isSome ↔ Remains index (deeds list log)) ∧
          ∀ record, now.view.collection.get? index = some record → ∀ name,
            record.json.field? name = if name = indexField then some (Value.ofNat index)
              else recorded (mounted.view.model.defaults.getD []) index name (deeds list log)) := by
  obtain ⟨log, traced, held⟩ := exists_history there bare plain run
  refine ⟨log, traced, fun made => ?_⟩
  obtain ⟨now, there', history⟩ := held made
  refine ⟨now, there', fun index => ⟨history.remains index, fun record found name => ?_⟩⟩
  split
  case isTrue isIndex =>
    subst isIndex
    exact (history.sound.carries found).shown
  case isFalse free => exact history.content index record found name free

def amending : Behaviour Unit Unit Unit Unit where
  listen _ _ := .ask (.call 0 (.edit 0 (.object [("text", .string "c"), ("index", .null)])))
    fun _ => .done ()
  test _ _ := .done true
  compare _ _ _ := .done .eq

def amendTexts : Action Unit Unit Unit Unit Unit :=
  .ask (pushText "a") fun _ => .ask (.call 0 (.subscribe [.push] ())) fun _ =>
    .ask (pushText "b") fun _ => .ask (.call 0 (.remove 1)) fun _ => .done ()

theorem texts_bare : (textsPage.list? 0).any fun mounted =>
    mounted.view.collection.records.isEmpty && mounted.view.model.hook.isNone := by
  decide +kernel

theorem texts_amended :
    ((actTraced (trace amending 2) amendTexts).run ⟨textsPage, []⟩).any fun (_, traced) =>
      (deeds 0 traced.log).map Prod.snd == [.inserted [0], .inserted [1], .edited 0, .removed 1] &&
        (deeds 0 traced.log).all fun deed => match deed.1 with
          | .pushRecord _ => false
          | _ => true := by
  decide +kernel

theorem records_recorded_texts : ∃ (mounted now : Mounted Unit) (left : Page Unit Unit)
    (log : List (Mark Unit Unit Unit Unit)), textsPage.list? 0 = some mounted ∧
    mounted.view.collection.records = [] ∧ mounted.view.model.hook = none ∧
    (runAction (perform amending 2) amendTexts).run textsPage = some ((), left) ∧
    (deeds 0 log).map Prod.snd = [.inserted [0], .inserted [1], .edited 0, .removed 1] ∧
    left.list? 0 = some now ∧ ∀ index,
      ((now.view.collection.get? index).isSome ↔ Remains index (deeds 0 log)) ∧
      ∀ record, now.view.collection.get? index = some record → ∀ name,
        record.json.field? name = if name = indexField then some (Value.ofNat index)
          else recorded (mounted.view.model.defaults.getD []) index name (deeds 0 log) := by
  obtain ⟨mounted, there, holds⟩ := (Option.any_eq_true _ _).1 texts_bare
  rw [Bool.and_eq_true, List.isEmpty_iff, Option.isNone_iff_eq_none] at holds
  obtain ⟨⟨⟨⟩, left, log⟩, traced, course⟩ := (Option.any_eq_true _ _).1 texts_amended
  rw [Bool.and_eq_true, beq_iff_eq, List.all_eq_true] at course
  obtain ⟨_, run, -, rfl⟩ :=
    (actTraced_inStep (trace_inStep amending 2) amendTexts).exists_other rfl traced
  obtain ⟨log', traced', holdsAfter⟩ := records_recorded there holds.1 holds.2 run
  cases traced.symm.trans traced'
  obtain ⟨now, there', recorded⟩ := holdsAfter fun record entry inside =>
    absurd (course.2 _ inside) Bool.false_ne_true
  exact ⟨mounted, now, left, log, there, holds.1, holds.2, run, course.1, there', recorded⟩

end Page

end LiveList
