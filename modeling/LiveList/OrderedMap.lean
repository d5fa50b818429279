namespace LiveList

abbrev OrderedMap (α β : Type) := List (α × β)

namespace OrderedMap

variable {α β : Type} [DecidableEq α]

def keys (m : OrderedMap α β) : List α := m.map Prod.fst

def sortedKeys (m : OrderedMap String β) : List String :=
  (keys m).mergeSort fun a b => !decide (b < a)

def values (m : OrderedMap α β) : List β := m.map Prod.snd

def get? : OrderedMap α β → α → Option β
  | [], _ => none
  | (key, value) :: rest, k => if key = k then some value else get? rest k

def contains (m : OrderedMap α β) (k : α) : Bool := (get? m k).isSome

/-- Writes a key: in its place if it is present, else behind all others. -/
def put : OrderedMap α β → α → β → OrderedMap α β
  | [], k, v => [(k, v)]
  | (key, value) :: rest, k, v =>
    if key = k then (key, v) :: rest else (key, value) :: put rest k v

def remove (m : OrderedMap α β) (k : α) : OrderedMap α β := m.filter fun entry => entry.1 ≠ k

def putAll (m : OrderedMap α β) (entries : List (α × β)) : OrderedMap α β :=
  entries.foldl (fun m entry => put m entry.1 entry.2) m

theorem get?_put (m : OrderedMap α β) (k k' : α) (v : β) :
    get? (put m k v) k' = if k = k' then some v else get? m k' := by
  induction m with
  | nil => simp [put, get?]
  | cons entry rest ih =>
    obtain ⟨key, value⟩ := entry
    by_cases h : key = k
    · subst h
      by_cases h' : key = k' <;> simp [put, get?, h']
    · by_cases h' : key = k'
      · subst h'
        simp [put, get?, h, Ne.symm h]
      · simp [put, get?, h, h', ih]

theorem get?_remove (m : OrderedMap α β) (k k' : α) :
    get? (remove m k) k' = if k = k' then none else get? m k' := by
  induction m with
  | nil => simp [remove, get?]
  | cons entry rest ih =>
    obtain ⟨key, value⟩ := entry
    simp only [remove] at ih
    by_cases h : key = k
    · subst h
      by_cases h' : key = k' <;> simp_all [remove, get?]
    · by_cases h' : key = k'
      · subst h'
        simp [remove, get?, h, Ne.symm h]
      · simpa [remove, get?, h, h'] using ih

theorem keys_put (m : OrderedMap α β) (k : α) (v : β) :
    keys (put m k v) = if k ∈ keys m then keys m else keys m ++ [k] := by
  induction m with
  | nil => simp [put, keys]
  | cons entry rest ih =>
    obtain ⟨key, value⟩ := entry
    simp only [keys] at ih
    by_cases h : key = k
    · subst h
      simp [put, keys]
    · by_cases h' : k ∈ rest.map Prod.fst <;> simp_all [put, keys, Ne.symm h]

theorem nodup_keys_put (m : OrderedMap α β) (k : α) (v : β) (h : (keys m).Nodup) :
    (keys (put m k v)).Nodup := by
  rw [keys_put]
  split
  · exact h
  · rename_i absent
    exact List.nodup_append.2 ⟨h, by simp, by
      intro a inKeys b inLast
      have : b = k := by simpa using inLast
      subst this
      exact fun same => absent (same ▸ inKeys)⟩

theorem nodup_keys_remove (m : OrderedMap α β) (k : α) (h : (keys m).Nodup) :
    (keys (remove m k)).Nodup := by
  unfold keys remove
  exact List.Nodup.sublist (List.Sublist.map _ List.filter_sublist) h

end OrderedMap

end LiveList
