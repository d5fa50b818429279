import LiveList.Proofs.Page.Journal
import LiveList.Proofs.Page.Runs

namespace LiveList

open Document (Plant Layout SameNodes)
open Json (Value)

variable {ℓ : Type} {quiet : Prop}

/-- View, container and journal of a list belong together. Where it is `quiet`, nothing takes effect
while predicates are asked. -/
structure Mounted.Standing (quiet : Prop) (mounted : Mounted ℓ) (d : Document)
    (blocks : List (Nat × List Plant)) : Prop where
  stands : Stands mounted.view d blocks
  tracked : Tracked mounted.journal mounted.view blocks
  calm : quiet → Calm mounted.journal

/-- What lies between two states of a list: the journal has grown, and unless records were sorted
those that stayed are in their old order. -/
structure Mounted.Later (old new : Mounted ℓ) : Prop where
  next : old.view.collection.next ≤ new.view.collection.next
  lines : ∃ since, new.journal = since ++ old.journal ∧
    (.sorted ∉ since → old.view.collection.Keeps new.view.collection)

theorem Mounted.Later.refl (mounted : Mounted ℓ) : mounted.Later mounted :=
  ⟨Nat.le_refl _, [], rfl, fun _ => .refl _⟩

theorem Mounted.Later.trans {first second third : Mounted ℓ} (left : first.Later second)
    (right : second.Later third) : first.Later third := by
  obtain ⟨next, since, lines, keeps⟩ := left
  obtain ⟨next', since', lines', keeps'⟩ := right
  refine ⟨Nat.le_trans next next', since' ++ since, by rw [lines', lines, List.append_assoc], ?_⟩
  intro unsorted
  rw [List.mem_append, not_or] at unsorted
  exact (keeps unsorted.2).trans (keeps' unsorted.1) next

structure Carried (quiet : Prop) (mounted : Mounted ℓ) (d : Document)
    (blocks : List (Nat × List Plant)) (left : Scene) (line : Option Entry)
    (blocks' : List (Nat × List Plant)) : Prop where
  layout : Layout d mounted.view.container (plantsOf blocks) left.document (plantsOf blocks') []
  container : left.view.container = mounted.view.container
  standing : (mounted.after left.view line).Standing quiet left.document blocks'
  later : mounted.Later (mounted.after left.view line)

variable {mounted : Mounted ℓ} {d : Document} {blocks new : List (Nat × List Plant)} {left : Scene}
  {entry : Entry} {index : Nat}

theorem Carried.unchanged (standing : mounted.Standing quiet d blocks) (wf : d.WellFormed)
    (same : left.view = mounted.view) (grounded : left.document.Grounded)
    (nodes : d.SameNodes left.document) : Carried quiet mounted d blocks left none blocks := by
  obtain ⟨view, d'⟩ := left
  simp only at same nodes grounded
  subst same
  have layout := (standing.stands.follows wf).layout.sameNodes grounded nodes
  exact ⟨layout, rfl, ⟨standing.stands.congr_nodes fun id _ => nodes id, standing.tracked,
    standing.calm⟩, .refl mounted⟩

theorem calm_cons (unfiltered : ∀ since, entry ≠ .filtered since) {journal : List Entry}
    (calm : Calm journal) : Calm (entry :: journal) := by
  cases entry with
  | filtered since => exact absurd rfl (unfiltered since)
  | _ => exact calm

theorem Carried.written (standing : mounted.Standing quiet d blocks)
    (follows : Follows mounted.view d blocks left.view left.document new [])
    (tells : entry.Tells mounted.view.collection (indicesOf blocks) left.view.collection
      (indicesOf new))
    (ordered : ∀ since, entry = .filtered since → InOrder (entry :: mounted.journal) →
      (indicesOf new).Sublist left.view.collection.indices)
    (calm : quiet → Calm (entry :: mounted.journal))
    (faithful : Faithful mounted.view blocks → Faithful left.view new) :
    Carried quiet mounted d blocks left (some entry) new where
  layout := follows.layout
  container := follows.container
  standing := ⟨follows.stands, standing.tracked.write tells ordered fun _ => faithful, calm⟩
  later := ⟨follows.next, [entry], rfl, fun unsorted => tells.keeps fun same =>
    unsorted (same ▸ List.mem_cons_self)⟩

theorem Carried.written_unfiltered (standing : mounted.Standing quiet d blocks)
    (follows : Follows mounted.view d blocks left.view left.document new [])
    (tells : entry.Tells mounted.view.collection (indicesOf blocks) left.view.collection
      (indicesOf new))
    (unfiltered : ∀ since, entry ≠ .filtered since)
    (faithful : Faithful mounted.view blocks → Faithful left.view new) :
    Carried quiet mounted d blocks left (some entry) new :=
  .written standing follows tells (fun since isFilter => absurd isFilter (unfiltered since))
    (fun isQuiet => calm_cons unfiltered (standing.calm isQuiet)) faithful

section

variable (standing : mounted.Standing quiet d blocks) (wf : d.WellFormed)
include standing wf

theorem insert_carried {record : Record} {place : Place} {result : Except Error (Nat × Value)}
    (run : (Patch.insert record place).on ⟨mounted.view, d⟩ = (result, left)) :
    ∃ new, Carried quiet mounted d blocks left
      (result.toOption.bind fun added => some (.inserted [added.1])) new := by
  cases result with
  | error cause =>
    obtain ⟨same, grounded, nodes⟩ := Patch.insert_careful record place _ d wf.grounded cause left run
    exact ⟨blocks, .unchanged standing wf same grounded nodes⟩
  | ok added =>
    cases drawn : mounted.view.draw (record.withIndex mounted.view.collection.next) with
    | error cause =>
      obtain ⟨d', failed, -, -⟩ := ListView.renderRecord_error wf.grounded drawn
      simp [Patch.on_insert_error place failed] at run
    | ok forest =>
      obtain ⟨d', plants, payload, done, follows, drawn⟩ :=
        Patch.insert_follows standing.stands wf place drawn
      rw [done, Prod.mk.injEq, Except.ok.injEq] at run
      obtain ⟨rfl, rfl⟩ := run
      refine ⟨_, .written_unfiltered standing follows ?_ (by simp) fun faithful =>
        faithful.add place standing.stands drawn _⟩
      have listed := standing.stands.sound.indices_added place record
      cases place with
      | back => exact ⟨[], [_], rfl, by simp [ListView.withRecord, listed, Place.laid], by
          simp [Place.laid], by simp⟩
      | front => exact ⟨[_], [], rfl, by simp [ListView.withRecord, listed, Place.laid], by
          simp [Place.laid], by simp⟩

theorem insertAll_carried {items : List Value} {result : Except Error (List Nat × Value)}
    (run : (Patch.insertAll items).on ⟨mounted.view, d⟩ = (result, left)) :
    ∃ new, Carried quiet mounted d blocks left
      (result.toOption.bind fun added => some (.inserted added.1)) new := by
  cases result with
  | error cause =>
    obtain ⟨same, grounded, nodes⟩ := Patch.insertAll_careful items _ d wf.grounded cause left run
    exact ⟨blocks, .unchanged standing wf same grounded nodes⟩
  | ok added =>
    cases created : items.mapM mounted.view.model.create with
    | error cause => simp [Patch.on_insertAll_of_create created] at run
    | ok records =>
      cases drawn : mounted.view.drawAll ((Patch.numbered mounted.view.collection records).map
          fun record => (record, record)) with
      | error cause =>
        have start : Document.Grows d none (plantsOf ([] : List (Record × List Plant))) d :=
          .refl wf.grounded _
        obtain ⟨d', failed, -, -⟩ := Patch.on_renderAll_error _ wf.grounded start drawn
        have failed := Patch.on_insertAll_error created failed
        simp [failed] at run
      | ok forests =>
        obtain ⟨indices, payload, left', new, done, follows, faithful, above, shown, listed⟩ :=
          Patch.insertAll_follows standing.stands wf created drawn
        rw [done, Prod.mk.injEq, Except.ok.injEq] at run
        obtain ⟨rfl, rfl⟩ := run
        exact ⟨new, .written_unfiltered standing follows ⟨[], indices, rfl, by simpa using listed,
          by simpa using shown, above⟩ (by simp) faithful⟩

theorem edit_carried {fields : Value} {result : Except Error (Option Value)}
    (run : (Patch.edit index fields).on ⟨mounted.view, d⟩ = (result, left)) :
    ∃ new, Carried quiet mounted d blocks left
      (result.toOption.bind fun edited => edited.map fun _ => .edited index) new := by
  cases result with
  | error cause =>
    obtain ⟨same, grounded, nodes⟩ := Patch.edit_careful index fields _ d wf.grounded cause left run
    exact ⟨blocks, .unchanged standing wf same grounded nodes⟩
  | ok edited =>
    rcases Patch.edit_ok standing.stands wf run with
      ⟨rfl, rfl⟩ | ⟨value, new, rfl, follows, faithful, shown, listed⟩
    · exact ⟨blocks, .unchanged standing wf rfl wf.grounded fun _ => rfl⟩
    · exact ⟨new, .written_unfiltered standing follows ⟨listed, shown⟩ (by simp) faithful⟩

theorem remove_carried {removed : Option Value}
    (run : (Change.remove index).on ⟨mounted.view, d⟩ = (removed, left)) :
    ∃ new, Carried quiet mounted d blocks left (removed.map fun _ => .removed index) new := by
  cases held : mounted.view.collection.get? index with
  | none =>
    rw [Change.on_remove held, Prod.mk.injEq] at run
    obtain ⟨rfl, rfl⟩ := run
    exact ⟨blocks, .unchanged standing wf rfl wf.grounded fun _ => rfl⟩
  | some record =>
    obtain ⟨d', new, done, follows, faithful, shown⟩ :=
      Change.remove_follows standing.stands wf held
    rw [done, Prod.mk.injEq] at run
    obtain ⟨rfl, rfl⟩ := run
    exact ⟨new, .written_unfiltered standing follows ⟨Collection.indices_remove .., shown⟩ (by simp) faithful⟩

theorem removeAll_carried (run : Change.removeAll.on ⟨mounted.view, d⟩ = ((), left)) :
    Carried quiet mounted d blocks left (some .cleared) [] := by
  rw [Change.on_removeAll, Prod.mk.injEq] at run
  obtain ⟨-, rfl⟩ := run
  exact .written_unfiltered standing (Change.removeAll_follows standing.stands wf) ⟨rfl, rfl⟩ (by simp)
    fun _ => by simp [Faithful]

theorem addFilter_carried {name : String} {filter : Template.Filter} {replaced : Bool}
    (run : (Change.addFilter name filter).on ⟨mounted.view, d⟩ = (replaced, left)) :
    Carried quiet mounted d blocks left (some (.registered name)) blocks := by
  obtain ⟨-, rfl⟩ := Prod.mk.inj run
  have stands := standing.stands
  refine ⟨(stands.follows wf).layout, rfl, ⟨⟨stands.sound, stands.rooted, stands.parent,
    stands.holds, stands.nodup, stands.outside, stands.remembered, stands.keys, stands.known,
    stands.marked⟩, standing.tracked.write ⟨rfl, rfl⟩ (by simp) ?_,
    standing.calm⟩, ⟨Nat.le_refl _, [_], rfl, fun _ => .refl _⟩⟩
  intro first _ index plants inside
  have known := stands.known index (List.mem_map_of_mem inside)
  simp [standing.tracked.bare first.1] at known

theorem showOnly_carried {earlier : Mounted ℓ} (later : earlier.Later mounted)
    (sound : earlier.view.collection.Sound) {matched : List Value}
    (part : matched.Sublist earlier.view.collection.json)
    (silent : quiet → mounted.journal = earlier.journal) {result : Except Error (List Value)}
    (run : (Patch.showOnly matched).on ⟨mounted.view, d⟩ = (result, left)) :
    ∃ new, Carried quiet mounted d blocks left
      (result.toOption.bind fun _ => some (.filtered earlier.journal.length)) new := by
  cases result with
  | error cause =>
    obtain ⟨same, grounded, nodes⟩ := Patch.showOnly_careful matched _ d wf.grounded cause left run
    exact ⟨blocks, .unchanged standing wf same grounded nodes⟩
  | ok values =>
    have old : (matched.filterMap Patch.indexOf).Sublist earlier.view.collection.indices :=
      sound.filterMap_indexOf ▸ part.filterMap _
    obtain ⟨new, same, follows, shown, faithful⟩ :=
      Patch.showOnly_ok standing.stands wf (sound.nodup.sublist old) run
    have kept : left.view.collection = mounted.view.collection := by rw [same]
    have ordered : InOrder (.filtered earlier.journal.length :: mounted.journal) →
        (indicesOf new).Sublist left.view.collection.indices := fun inOrder => by
      obtain ⟨since, lines, keeps⟩ := later.lines
      rw [InOrder, lines, List.length_append, Nat.add_sub_cancel, List.take_left' rfl] at inOrder
      rw [shown, kept]
      exact (keeps inOrder).sublist sound old
    exact ⟨new, .written standing follows (congrArg Collection.indices kept) (fun _ _ => ordered)
      (fun isQuiet => ⟨by rw [silent isQuiet], standing.calm isQuiet⟩) fun _ => faithful⟩

theorem arrange_carried {order : List Nat} (distinct : order.Nodup)
    {result : Except Error (List Value)}
    (run : (Patch.arrange order).on ⟨mounted.view, d⟩ = (result, left)) :
    ∃ new, Carried quiet mounted d blocks left (result.toOption.bind fun _ => some .sorted) new := by
  cases result with
  | error cause =>
    obtain ⟨same, grounded, nodes⟩ := Patch.arrange_careful order _ d wf.grounded cause left run
    exact ⟨blocks, .unchanged standing wf same grounded nodes⟩
  | ok values =>
    obtain ⟨new, follows, shown, perm, faithful⟩ :=
      Patch.arrange_ok standing.stands wf distinct run
    exact ⟨new, .written_unfiltered standing follows ⟨perm, shown⟩ (by simp) fun _ => faithful⟩

theorem sort_carried {result : Except Error (List Value)}
    (run : Patch.sort.on ⟨mounted.view, d⟩ = (result, left)) :
    ∃ new, Carried quiet mounted d blocks left (result.toOption.bind fun _ => some .sorted) new := by
  rw [Patch.on_sort] at run
  exact arrange_carried standing wf (((List.mergeSort_perm _ _).map Prod.fst).nodup_iff.2
    standing.stands.sound.nodup) run

theorem updateView_carried {result : Except Error Unit}
    (run : Patch.updateView.on ⟨mounted.view, d⟩ = (result, left)) :
    ∃ new, Carried quiet mounted d blocks left (result.toOption.bind fun _ => some .updated) new := by
  cases result with
  | error cause =>
    obtain ⟨same, grounded, nodes⟩ := Patch.updateView_careful _ d wf.grounded cause left run
    exact ⟨blocks, .unchanged standing wf same grounded nodes⟩
  | ok values =>
    obtain ⟨new, same, follows, shown, faithful⟩ := Patch.updateView_ok standing.stands wf run
    have kept : left.view.collection = mounted.view.collection := by rw [same]
    refine ⟨new, .written_unfiltered standing follows ⟨by rw [kept], by rw [kept, shown]⟩ (by simp)
      fun _ => faithful⟩

end

end LiveList
