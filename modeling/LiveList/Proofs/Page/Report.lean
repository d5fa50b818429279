import LiveList.Proofs.Page.Deed

namespace LiveList

open Event (Notification)
open Json (Value)

/-- What a notification makes of the records that are known by index. -/
def hear (known : OrderedMap Nat Value) (notification : Notification) : OrderedMap Nat Value :=
  match notification.kind, notification.payload with
  | .push, payload | .edit, payload =>
    (Patch.indexOf payload).elim known fun index => OrderedMap.put known index payload
  | .remove, payload => (Patch.indexOf payload).elim known fun index => OrderedMap.remove known index
  | .pushAll, .array values =>
    OrderedMap.putAll [] (values.filterMap fun value => (Patch.indexOf value).map (·, value))
  | .pushAll, _ | .removeAll, _ => []
  | .filter, _ | .sort, _ => known

def replay (notifications : List Notification) : OrderedMap Nat Value :=
  notifications.foldl hear []

@[simp] theorem replay_append (notifications : List Notification) (last : Notification) :
    replay (notifications ++ [last]) = hear (replay notifications) last := by
  simp [replay]

namespace Collection

def jsonAt (c : Collection) (index : Nat) : Option Value := (c.get? index).map fun r => r.json

def Known (c : Collection) (known : OrderedMap Nat Value) : Prop :=
  ∀ index, OrderedMap.get? known index = c.jsonAt index

variable {c c' : Collection} {known : OrderedMap Nat Value}

theorem Known.put (isKnown : c.Known known) {index : Nat} {record : Record}
    (get? : ∀ other, c'.get? other = if index = other then some record else c.get? other) :
    c'.Known (OrderedMap.put known index record.json) := by
  intro other
  rw [OrderedMap.get?_put, jsonAt, get?]
  split
  · rfl
  · exact isKnown other

theorem Known.of_get? (isKnown : c.Known known) (same : ∀ index, c'.get? index = c.get? index) :
    c'.Known known := by
  intro index
  rw [isKnown index, jsonAt, jsonAt, same]

theorem Sound.known_json (sound : c.Sound) : c.Known (OrderedMap.putAll []
    (c.json.filterMap fun value => (Patch.indexOf value).map (·, value))) := by
  have entries : c.json.filterMap (fun value => (Patch.indexOf value).map (·, value)) =
      c.records.map fun entry => (entry.1, entry.2.json) := by
    have each : ∀ entry ∈ c.records,
        (Patch.indexOf entry.2.json).map (·, entry.2.json) = some (entry.1, entry.2.json) := by
      intro entry inside
      rw [(sound.carried entry.1 entry.2 inside).indexOf]
      rfl
    rw [json, OrderedMap.values, List.map_map, List.filterMap_map]
    exact (List.filterMap_congr each).trans (List.filterMap_eq_map' ▸ rfl)
  have keys : OrderedMap.keys (c.records.map fun entry => (entry.1, entry.2.json)) = c.indices := by
    rw [OrderedMap.keys, List.map_map]
    rfl
  intro index
  rw [entries, OrderedMap.putAll_of_nodup (by rw [List.nil_append, keys]; exact sound.nodup),
    List.nil_append, jsonAt, get?]
  induction c.records with
  | nil => rfl
  | cons entry rest ih =>
    rw [List.map_cons, OrderedMap.get?, OrderedMap.get?, ih]
    split <;> rfl

end Collection

namespace Deed

variable {model : Model} {c c' : Collection} {stroke : Stroke} {entry : Entry}

/-- Whoever knew the records before a deed and is told of it knows them afterwards. -/
theorem known {said : Notification} (deed : Deed model c stroke entry (some said) c')
    (sound : c.Sound) {known : OrderedMap Nat Value} (isKnown : c.Known known) :
    c'.Known (hear known said) := by
  have after := deed.sound sound
  cases deed with
  | insert record place =>
    have told : Patch.indexOf (record.withIndex c.next).json = some c.next :=
      (record.withIndex_carries c.next).indexOf
    simp only [hear, told]
    exact isKnown.put (sound.get?_added place record)
  | insertAll created => exact after.known_json
  | @remove index record held =>
    simp only [hear, (sound.carries held).indexOf]
    intro other
    rw [Option.elim_some, OrderedMap.get?_remove, Collection.jsonAt, Collection.get?_remove]
    split
    · rfl
    · exact isKnown other
  | removeAll => exact fun _ => rfl
  | edit held run =>
    simp only [hear, ((sound.carries held).update run).indexOf]
    exact isKnown.put (Collection.get?_replace (Collection.mem_indices.2 ⟨_, held⟩) _)
  | showOnly since matched values => exact isKnown
  | arrange order brought | sort brought =>
    exact isKnown.of_get? (Collection.get?_reorder sound brought)

theorem bare {said : Option Notification} (deed : Deed model c stroke entry said c')
    (sound : c.Sound) (bare : ∀ index, c.get? index = none)
    (unfilled : ∀ indices, entry = .inserted indices → indices = []) (index : Nat) :
    c'.get? index = none := by
  cases deed with
  | insert record place => cases unfilled _ rfl
  | @insertAll items records created =>
    obtain rfl : records = [] := by simpa using unfilled _ rfl
    exact bare index
  | remove held => rw [Collection.get?_remove, bare index, ite_self]
  | removeAll => rfl
  | edit held run => cases (bare _).symm.trans held
  | showOnly | updateView | addFilter => exact bare index
  | arrange order brought | sort brought =>
    exact (Collection.get?_reorder sound brought index).trans (bare index)

end Deed

end LiveList
