import LiveList.Page.Basic
import LiveList.Proofs.View.Redraw

namespace LiveList

open Document (Plant)

def Entry.added : Entry → List Nat
  | .inserted indices => indices
  | _ => []

def ShowsAll : List Entry → Prop
  | [] | .cleared :: _ | .sorted :: _ | .updated :: _ => True
  | .filtered _ :: _ => False
  | .inserted _ :: older | .removed _ :: older | .edited _ :: older | .registered _ :: older =>
    ShowsAll older

/-- If a filter took effect after the records were last brought into an order, updated or removed
altogether, they were not brought into an order while the predicate of that filter was asked. -/
def InOrder : List Entry → Prop
  | [] | .cleared :: _ | .sorted :: _ | .updated :: _ => True
  | .filtered since :: older => .sorted ∉ older.take (older.length - since)
  | .inserted _ :: older | .removed _ :: older | .edited _ :: older | .registered _ :: older =>
    InOrder older

def Calm : List Entry → Prop
  | [] => True
  | .filtered since :: older => since = older.length ∧ Calm older
  | _ :: older => Calm older

def Bare (journal : List Entry) : Prop := ∀ entry ∈ journal, entry.added = []

def FiltersFirst : List Entry → Prop
  | [] => True
  | .registered _ :: older => Bare older ∧ FiltersFirst older
  | _ :: older => FiltersFirst older

theorem Calm.inOrder {journal : List Entry} (calm : Calm journal) : InOrder journal := by
  induction journal with
  | nil => trivial
  | cons entry older ih =>
    cases entry with
    | filtered since =>
      obtain ⟨same, -⟩ := calm
      simp [InOrder, same]
    | cleared | sorted | updated => trivial
    | inserted | removed | edited | registered => exact ih calm

theorem FiltersFirst.older {entry : Entry} {journal : List Entry}
    (first : FiltersFirst (entry :: journal)) : FiltersFirst journal := by
  cases entry with
  | registered name => exact first.2
  | _ => exact first

def Entry.Tells (entry : Entry) (before : Collection) (shown : List Nat) (after : Collection)
    (shown' : List Nat) : Prop :=
  match entry with
  | .inserted indices => ∃ front back, indices = front ++ back ∧
    after.indices = front ++ before.indices ++ back ∧ shown' = front ++ shown ++ back ∧
    ∀ index ∈ indices, before.next ≤ index
  | .removed index =>
    after.indices = before.indices.filter (· ≠ index) ∧ shown' = shown.filter (· ≠ index)
  | .cleared => after.indices = [] ∧ shown' = []
  | .edited _ | .registered _ => after.indices = before.indices ∧ shown' = shown
  | .filtered _ => after.indices = before.indices
  | .sorted => after.indices.Perm before.indices ∧ shown' = after.indices
  | .updated => after.indices = before.indices ∧ shown' = after.indices

structure Tracked (journal : List Entry) (view : ListView) (blocks : List (Nat × List Plant)) :
    Prop where
  ordered : InOrder journal → (indicesOf blocks).Sublist view.collection.indices
  whole : ShowsAll journal → indicesOf blocks = view.collection.indices
  bare : Bare journal → view.collection.indices = []
  faithful : FiltersFirst journal → Faithful view blocks

variable {journal : List Entry} {view view' : ListView} {blocks blocks' : List (Nat × List Plant)}
  {entry : Entry} {shown shown' : List Nat} {before after : Collection}

theorem Entry.Tells.ordered (tells : entry.Tells before shown after shown')
    (filtered : ∀ since, entry = .filtered since → InOrder (entry :: journal) →
      shown'.Sublist after.indices)
    (was : InOrder journal → shown.Sublist before.indices) (inOrder : InOrder (entry :: journal)) :
    shown'.Sublist after.indices := by
  cases entry with
  | inserted indices =>
    obtain ⟨front, back, -, listed, same, -⟩ := tells
    rw [listed, same]
    exact ((was inOrder).append_left front).append_right back
  | removed index =>
    rw [tells.1, tells.2]
    exact (was inOrder).filter _
  | cleared => simp [tells.2]
  | edited | registered =>
    rw [tells.1, tells.2]
    exact was inOrder
  | filtered since => exact filtered since rfl inOrder
  | sorted | updated => exact tells.2 ▸ .refl _

theorem Entry.Tells.whole (tells : entry.Tells before shown after shown')
    (was : ShowsAll journal → shown = before.indices) (all : ShowsAll (entry :: journal)) :
    shown' = after.indices := by
  cases entry with
  | inserted indices =>
    obtain ⟨front, back, -, listed, same, -⟩ := tells
    rw [listed, same, was all]
  | removed index => rw [tells.1, tells.2, was all]
  | cleared => rw [tells.1, tells.2]
  | edited | registered => rw [tells.1, tells.2, was all]
  | filtered since => exact all.elim
  | sorted | updated => exact tells.2

theorem Entry.Tells.bare (tells : entry.Tells before shown after shown')
    (was : Bare journal → before.indices = []) (bare : Bare (entry :: journal)) :
    after.indices = [] := by
  have older := was fun other inside => bare other (List.mem_cons_of_mem _ inside)
  cases entry with
  | inserted indices =>
    obtain ⟨front, back, same, listed, -, -⟩ := tells
    have none : indices = [] := bare _ List.mem_cons_self
    obtain ⟨rfl, rfl⟩ := List.append_eq_nil_iff.1 (same.symm.trans none)
    simp [listed, older]
  | removed index => simp [tells.1, older]
  | cleared => exact tells.1
  | edited | registered | updated => rw [tells.1, older]
  | filtered since => exact tells.trans older
  | sorted => exact List.Perm.eq_nil (older ▸ tells.1)

theorem Tracked.write (tracked : Tracked journal view blocks)
    (tells : entry.Tells view.collection (indicesOf blocks) view'.collection (indicesOf blocks'))
    (filtered : ∀ since, entry = .filtered since → InOrder (entry :: journal) →
      (indicesOf blocks').Sublist view'.collection.indices)
    (faithful : FiltersFirst (entry :: journal) → Faithful view blocks → Faithful view' blocks') :
    Tracked (entry :: journal) view' blocks' where
  ordered := tells.ordered filtered tracked.ordered
  whole := tells.whole tracked.whole
  bare := tells.bare tracked.bare
  faithful first := faithful first (tracked.faithful first.older)

def Collection.Keeps (before after : Collection) : Prop :=
  (after.indices.filter (· < before.next)).Sublist before.indices

theorem Collection.Keeps.refl (c : Collection) : c.Keeps c := List.filter_sublist

theorem Collection.Keeps.trans {first second third : Collection} (left : first.Keeps second)
    (right : second.Keeps third) (next : first.next ≤ second.next) : first.Keeps third := by
  have narrow : third.indices.filter (· < first.next) =
      (third.indices.filter (· < second.next)).filter (· < first.next) := by
    rw [List.filter_filter]
    apply List.filter_congr
    intro index _
    by_cases low : index < first.next
    · simp [low, Nat.lt_of_lt_of_le low next]
    · simp [low]
  unfold Keeps
  rw [narrow]
  exact (right.filter _).trans left

theorem Entry.Tells.keeps (tells : entry.Tells before shown after shown')
    (unsorted : entry ≠ .sorted) : before.Keeps after := by
  unfold Collection.Keeps
  cases entry with
  | inserted indices =>
    obtain ⟨front, back, split, listed, -, above⟩ := tells
    have none : ∀ part : List Nat, (∀ index ∈ part, index ∈ indices) →
        part.filter (· < before.next) = [] := fun part inside =>
      List.filter_eq_nil_iff.2 fun index there => by simpa using above index (inside index there)
    rw [listed, List.filter_append, List.filter_append,
      none front fun _ inside => by simp [split, inside],
      none back fun _ inside => by simp [split, inside], List.nil_append, List.append_nil]
    exact List.filter_sublist
  | removed index =>
    rw [tells.1]
    exact List.filter_sublist.trans List.filter_sublist
  | cleared => simp [tells.1]
  | edited | registered | updated =>
    rw [tells.1]
    exact List.filter_sublist
  | filtered since =>
    rw [show after.indices = before.indices from tells]
    exact List.filter_sublist
  | sorted => exact absurd rfl unsorted

theorem sublist_of_subset {whole : List Nat} (nodup : whole.Nodup) {part other : List Nat}
    (left : part.Sublist whole) (right : other.Sublist whole) (subset : ∀ n ∈ part, n ∈ other) :
    part.Sublist other := by
  induction right generalizing part with
  | slnil => exact left
  | cons first right ih =>
    obtain ⟨absent, nodup⟩ := List.nodup_cons.1 nodup
    cases left with
    | cons _ left => exact ih nodup left subset
    | cons_cons _ left => exact absurd (right.mem (subset first List.mem_cons_self)) absent
  | @cons_cons other whole first right ih =>
    obtain ⟨absent, nodup⟩ := List.nodup_cons.1 nodup
    have rest : ∀ {part : List Nat}, part.Sublist whole → (∀ n ∈ part, n ∈ first :: other) →
        part.Sublist other := fun left subset => ih nodup left fun n inside =>
      (List.mem_cons.1 (subset n inside)).resolve_left fun same => absent (same ▸ left.mem inside)
    cases left with
    | cons _ left => exact (rest left subset).cons _
    | cons_cons _ left =>
      exact (rest left fun n inside => subset n (List.mem_cons_of_mem _ inside)).cons_cons _

theorem Collection.Keeps.sublist (keeps : before.Keeps after) (sound : before.Sound)
    {old : List Nat} (part : old.Sublist before.indices) :
    (old.filter after.contains).Sublist after.indices := by
  refine (sublist_of_subset sound.nodup (List.filter_sublist.trans part) keeps ?_).trans List.filter_sublist
  intro index inside
  obtain ⟨listed, there⟩ := List.mem_filter.1 inside
  exact List.mem_filter.2 ⟨contains_iff.1 there,
    by simpa using sound.below index (part.mem listed)⟩

end LiveList
