import LiveList.Proofs.View.Removal

namespace LiveList

open Document (Plant Layout)

/-- Items with the index that each belongs to. Some belong to none: they stood there before. -/
abbrev Items (α : Type) := List (Option Nat × α)

namespace Items

variable {α β : Type}

def content (items : Items α) : List α := List.map Prod.snd items

def of (items : Items α) (index : Nat) : List α := content (items.filter (·.1 = some index))

def owned (index : Nat) (new : List α) : Items α := new.map (some index, ·)

def disown (items : Items α) (index : Nat) : Items α :=
  List.map (Prod.map (Option.filter (· ≠ index)) id) items

def add (items : Items α) (place : Place) (index : Nat) (new : List α) : Items α :=
  match place with
  | .back => items.disown index ++ owned index new
  | .front => owned index new ++ items.disown index

def addAll (items : Items α) (blocks : List (Nat × List α)) : Items α :=
  blocks.foldl (fun items block => items.add .back block.1 block.2) items

def without (items : Items α) (index : Nat) : Items α := items.filter (·.1 ≠ some index)

def replace : Items α → Nat → List α → Items α
  | [], index, new => owned index new
  | item :: rest, index, new =>
    if item.1 = some index then owned index new ++ without rest index
    else item :: replace rest index new

def map (f : α → β) (items : Items α) : Items β := List.map (Prod.map id f) items

theorem of_append (items more : Items α) (index : Nat) :
    of (items ++ more) index = items.of index ++ more.of index := by
  simp [of, content]

theorem of_cons (item : Option Nat × α) (items : Items α) (index : Nat) :
    of (item :: items) index = if item.1 = some index then item.2 :: items.of index else items.of index := by
  by_cases its : item.1 = some index <;> simp [of, content, its]

theorem of_owned (index other : Nat) (new : List α) :
    (owned index new).of other = if index = other then new else [] := by
  by_cases same : index = other <;>
    simp [of, content, owned, List.filter_map, Function.comp_def, same]

theorem of_disown (items : Items α) (index other : Nat) :
    (items.disown index).of other = if index = other then [] else items.of other := by
  induction items with
  | nil => simp [of, content, disown]
  | cons item rest ih =>
    rw [disown, List.map_cons, ← disown, of_cons, of_cons, ih]
    by_cases same : index = other
    · simp [same]
    · have its : (item.1.filter (· ≠ index) = some other) ↔ item.1 = some other := by
        rw [Option.filter_eq_some_iff]
        simp [Ne.symm same]
      simp only [Prod.map_fst, Prod.map_snd, id_eq, its, if_neg same]

theorem of_add (items : Items α) (place : Place) (index other : Nat) (new : List α) :
    (items.add place index new).of other = if index = other then new else items.of other := by
  cases place <;> simp only [add, of_append, of_owned, of_disown] <;> split <;> simp

theorem of_without (items : Items α) (index other : Nat) :
    (items.without index).of other = if index = other then [] else items.of other := by
  induction items with
  | nil => simp [of, content, without]
  | cons item rest ih =>
    rw [without, List.filter_cons]
    split
    case isTrue its =>
      rw [← without, of_cons, of_cons, ih]
      by_cases same : index = other
      · subst same
        simpa using its
      · rw [if_neg same, if_neg same]
    case isFalse its =>
      have its : item.1 = some index := by simpa using its
      rw [← without, ih, of_cons]
      by_cases same : index = other <;> simp [same, its]

theorem of_replace (items : Items α) (index other : Nat) (new : List α) :
    (items.replace index new).of other = if index = other then new else items.of other := by
  induction items with
  | nil => exact of_owned index other new
  | cons item rest ih =>
    rw [replace]
    split
    case isTrue its =>
      rw [of_append, of_owned, of_without, of_cons]
      by_cases same : index = other <;> simp [same, its]
    case isFalse its =>
      rw [of_cons, of_cons, ih]
      by_cases same : index = other
      · subst same
        simp [its]
      · rw [if_neg same, if_neg same]

theorem of_map (f : α → β) (items : Items α) (index : Nat) :
    (items.map f).of index = (items.of index).map f := by
  simp [of, content, map, List.filter_map, Function.comp_def]

theorem map_append (f : α → β) (items more : Items α) :
    map f (items ++ more) = items.map f ++ more.map f :=
  List.map_append

theorem map_owned (f : α → β) (index : Nat) (new : List α) :
    (owned index new).map f = owned index (new.map f) := by
  simp [map, owned]

theorem map_disown (f : α → β) (items : Items α) (index : Nat) :
    (items.disown index).map f = (items.map f).disown index := by
  simp [map, disown]

theorem map_add (f : α → β) (items : Items α) (place : Place) (index : Nat) (new : List α) :
    (items.add place index new).map f = (items.map f).add place index (new.map f) := by
  cases place <;> simp only [add, map_append, map_owned, map_disown]

theorem map_addAll (f : α → β) (items : Items α) (blocks : List (Nat × List α)) :
    (items.addAll blocks).map f =
      (items.map f).addAll (blocks.map fun block => (block.1, block.2.map f)) := by
  induction blocks generalizing items with
  | nil => rfl
  | cons block rest ih =>
    rw [addAll, List.foldl_cons, ← addAll, ih, map_add]
    rfl

theorem map_without (f : α → β) (items : Items α) (index : Nat) :
    (items.without index).map f = (items.map f).without index := by
  simp [map, without, List.filter_map, Function.comp_def]

theorem map_replace (f : α → β) (items : Items α) (index : Nat) (new : List α) :
    (items.replace index new).map f = (items.map f).replace index (new.map f) := by
  induction items with
  | nil => exact map_owned f index new
  | cons item rest ih =>
    have first : map f (item :: rest) = (item.1, f item.2) :: map f rest := rfl
    rw [first, replace, replace]
    by_cases its : item.1 = some index
    · rw [if_pos its, if_pos its, map_append, map_owned, map_without]
    · rw [if_neg its, if_neg its, ← ih]
      rfl

theorem content_map (f : α → β) (items : Items α) :
    (items.map f).content = items.content.map f := by
  simp [content, map]

theorem content_add (items : Items α) (place : Place) (index : Nat) (new : List α) :
    (items.add place index new).content =
      match place with
      | .back => items.content ++ new
      | .front => new ++ items.content := by
  cases place <;> simp [add, content, disown, owned, Function.comp_def]

theorem content_addAll (items : Items α) (blocks : List (Nat × List α)) :
    (items.addAll blocks).content = items.content ++ blocks.flatMap Prod.snd := by
  induction blocks generalizing items with
  | nil => simp [addAll]
  | cons block rest ih =>
    rw [addAll, List.foldl_cons, ← addAll, ih, content_add]
    simp

variable {d₀ d : Document} {above : NodeId} {old loose plants kept : List Plant} {items : Items Plant}

theorem layout_without (layout : Layout d₀ above old d (kept ++ items.content) loose) (index : Nat) :
    Layout d₀ above old (d.removeNodes ((items.of index).map Plant.root))
      (kept ++ (items.without index).content) loose := by
  induction items generalizing d kept with
  | nil => exact layout
  | cons item rest ih =>
    rw [content, List.map_cons, ← content, ← List.singleton_append] at layout
    by_cases its : item.1 = some index
    · have removed := ih layout.remove
      simpa [of_cons, without, its, Document.removeNodes] using removed
    · rw [← List.append_assoc] at layout
      have removed := ih layout
      rw [of_cons, if_neg its]
      simpa [content, without, its] using removed

theorem layout_replace {index : Nat} {anchor : NodeId}
    (layout : Layout d₀ above old d (kept ++ items.content) (plants ++ loose))
    (first : ((items.of index).map Plant.root).head? = some anchor) :
    Layout d₀ above old
      (((plants.map Plant.root).foldl (fun d root => (d.insertBefore anchor root).1) d).removeNodes
        ((items.of index).map Plant.root))
      (kept ++ (items.replace index plants).content) loose := by
  induction items generalizing kept with
  | nil => simp [of, content] at first
  | cons item rest ih =>
    rw [content, List.map_cons, ← content] at layout
    rw [replace]
    by_cases its : item.1 = some index
    · rw [of_cons, if_pos its] at first ⊢
      have isAnchor : item.2.root = anchor := Option.some.inj first
      subst isAnchor
      have inserted : Layout d₀ above old _ (kept ++ plants ++ content (item :: rest)) loose :=
        layout.insertBefore
      have removed := layout_without inserted index
      rw [of_cons, if_pos its] at removed
      rw [if_pos its]
      simpa [content, owned, Function.comp_def, without, its] using removed
    · rw [of_cons, if_neg its] at first ⊢
      rw [← List.singleton_append, ← List.append_assoc] at layout
      have replaced := ih layout first
      rw [if_neg its]
      simpa [content] using replaced

end Items

end LiveList
