import Mathlib.Data.List.Sort
import LiveList.Proofs.Page.Told

namespace LiveList

open Json (Value)

/-- A comparison orders values totally: turned around it gives the opposite, and it is transitive. -/
structure Orders (compare : Value → Value → Ordering) (values : List Value) : Prop where
  swap : ∀ x ∈ values, ∀ y ∈ values, compare y x = (compare x y).swap
  trans : ∀ x ∈ values, ∀ y ∈ values, ∀ z ∈ values,
    (compare x y).isLE → (compare y z).isLE → (compare x z).isLE

def sortedBy (compare : Value → Value → Ordering) (values : List Value) : List Value :=
  values.insertionSort fun x y => (compare x y).isLE

variable {compare : Value → Value → Ordering} {values others : List Value} {x y z : Value}

namespace Orders

theorem of_subset (orders : Orders compare values) (part : others ⊆ values) :
    Orders compare others where
  swap x insideX y insideY := orders.swap x (part insideX) y (part insideY)
  trans x insideX y insideY z insideZ :=
    orders.trans x (part insideX) y (part insideY) z (part insideZ)

theorem tail (orders : Orders compare (x :: values)) : Orders compare values :=
  orders.of_subset (List.subset_cons_self x values)

theorem isLE_of_gt (orders : Orders compare values) (insideX : x ∈ values) (insideY : y ∈ values)
    (after : ¬ (compare x y).isLE) : (compare y x).isLE := by
  rw [orders.swap x insideX y insideY]
  cases result : compare x y with
  | gt => rfl
  | lt | eq => simp [result] at after

theorem isLE_of_eq (orders : Orders compare values) (insideX : x ∈ values) (insideY : y ∈ values)
    (insideZ : z ∈ values) (first : compare x y = .eq) (second : compare x z = .eq) :
    (compare y z).isLE := by
  refine orders.trans y insideY x insideX z insideZ ?_ ?_
  · rw [orders.swap x insideX y insideY, first]
    rfl
  · rw [second]
    rfl

end Orders

theorem sortedBy_perm (compare : Value → Value → Ordering) (values : List Value) :
    (sortedBy compare values).Perm values :=
  List.perm_insertionSort _ values

theorem sortedBy_cons (compare : Value → Value → Ordering) (value : Value) (rest : List Value) :
    sortedBy compare (value :: rest) =
      (sortedBy compare rest).orderedInsert (fun x y => (compare x y).isLE) value := rfl

theorem pairwise_orderedInsert (orders : Orders compare (x :: values))
    (sorted : values.Pairwise fun x y => (compare x y).isLE) :
    (values.orderedInsert (fun x y => (compare x y).isLE) x).Pairwise fun x y =>
      (compare x y).isLE := by
  induction values with
  | nil => simp
  | cons next rest ih =>
    obtain ⟨first, others⟩ := List.pairwise_cons.1 sorted
    have isX : x ∈ x :: next :: rest := List.mem_cons_self
    have isNext : next ∈ x :: next :: rest := List.mem_cons_of_mem _ List.mem_cons_self
    rw [List.orderedInsert_cons]
    split
    case isTrue before =>
      refine List.pairwise_cons.2 ⟨fun y inside => ?_, sorted⟩
      rcases List.mem_cons.1 inside with rfl | later
      · exact before
      · exact orders.trans x isX next isNext y (by simp [later]) before (first y later)
    case isFalse after =>
      have less : x :: rest ⊆ x :: next :: rest := by simp
      refine List.pairwise_cons.2 ⟨fun y inside => ?_, ih (orders.of_subset less) others⟩
      rcases (List.mem_orderedInsert _).1 inside with rfl | later
      · exact orders.isLE_of_gt isX isNext after
      · exact first y later

theorem Orders.pairwise_sortedBy (orders : Orders compare values) :
    (sortedBy compare values).Pairwise fun x y => (compare x y).isLE := by
  induction values with
  | nil => exact List.Pairwise.nil
  | cons value rest ih =>
    have members : value :: sortedBy compare rest ⊆ value :: rest :=
      List.cons_subset_cons value (sortedBy_perm compare rest).subset
    exact pairwise_orderedInsert (orders.of_subset members) (ih orders.tail)

theorem filter_orderedInsert (orders : Orders compare (z :: x :: values)) :
    (values.orderedInsert (fun x y => (compare x y).isLE) x).filter (compare z · = .eq) =
      (x :: values).filter (compare z · = .eq) := by
  induction values with
  | nil => rfl
  | cons next rest ih =>
    rw [List.orderedInsert_cons]
    split
    case isTrue => rfl
    case isFalse after =>
      have less : z :: x :: rest ⊆ z :: x :: next :: rest := by grind
      -- The insertion passes no value that is taken for equal.
      have passes : ¬ (compare z x = .eq ∧ compare z next = .eq) := fun ⟨first, second⟩ =>
        after (orders.isLE_of_eq (by simp) (by simp) (by simp) first second)
      have inserted := ih (orders.of_subset less)
      by_cases isFirst : compare z x = .eq <;> by_cases isSecond : compare z next = .eq <;>
        simp_all

theorem Orders.filter_sortedBy (orders : Orders compare values) (inside : z ∈ values) :
    (sortedBy compare values).filter (compare z · = .eq) = values.filter (compare z · = .eq) := by
  suffices each : ∀ part, part ⊆ values →
      (sortedBy compare part).filter (compare z · = .eq) = part.filter (compare z · = .eq) from
    each values (List.Subset.refl values)
  intro part
  induction part with
  | nil => exact fun _ => rfl
  | cons value rest ih =>
    intro subset
    obtain ⟨first, others⟩ := List.cons_subset.1 subset
    have members : z :: value :: sortedBy compare rest ⊆ values :=
      List.cons_subset.2 ⟨inside, List.cons_subset.2 ⟨first, fun y there =>
        others ((sortedBy_perm compare rest).mem_iff.1 there)⟩⟩
    rw [sortedBy_cons, filter_orderedInsert (orders.of_subset members), List.filter_cons,
      List.filter_cons, ih others]

namespace Page

variable {ℓ π κ σ : Type} {page : Page ℓ σ} {asked : Value → Value → Run ℓ σ Ordering}

theorem insertSorted_run {value : Value}
    (gives : ∀ x ∈ values, (asked value x).run page = some (compare value x, page)) :
    (insertSorted asked value values).run page =
      some (values.orderedInsert (fun x y => (compare x y).isLE) value, page) := by
  induction values with
  | nil => rfl
  | cons next rest ih =>
    have inserted := ih fun x inside => gives x (List.mem_cons_of_mem _ inside)
    rw [insertSorted, StateT.run_bind, gives next List.mem_cons_self, Option.bind_eq_bind,
      Option.bind_some, List.orderedInsert_cons]
    cases result : compare value next with
    | gt =>
      have after : (Ordering.gt == Ordering.gt) = true := rfl
      rw [if_pos after, StateT.run_bind, inserted, if_neg (by simp)]
      rfl
    | lt | eq => rfl

theorem sortValues_run
    (gives : ∀ x ∈ values, ∀ y ∈ values, (asked x y).run page = some (compare x y, page)) :
    (sortValues asked values).run page = some (sortedBy compare values, page) := by
  induction values with
  | nil => rfl
  | cons value rest ih =>
    have others := ih fun x insideX y insideY =>
      gives x (List.mem_cons_of_mem _ insideX) y (List.mem_cons_of_mem _ insideY)
    have here : ∀ x ∈ sortedBy compare rest, (asked value x).run page =
        some (compare value x, page) := fun x inside =>
      gives value List.mem_cons_self x
        (List.mem_cons_of_mem _ ((sortedBy_perm compare rest).mem_iff.1 inside))
    rw [sortValues, StateT.run_bind, others, Option.bind_eq_bind, Option.bind_some,
      insertSorted_run here]
    rfl

theorem runAction_gives {α : Type} {ask : (r : Request ℓ π κ) → Run ℓ σ r.Answer}
    {action : Action ℓ π κ σ α} {a : α} (gives : action.Gives a) (page : Page ℓ σ) :
    (runAction ask action).run page = some (a, page) := by
  induction action with
  | done result =>
    cases gives
    rfl
  | look next ih => exact ih page (gives page)
  | note | ask => exact gives.elim

section

variable (ask : (r : Request ℓ π κ) → Run ℓ σ r.Answer)
  (compare : Value → Value → Action ℓ π κ σ Ordering)

theorem runAction_insertSorted (value : Value) (values : List Value) :
    runAction ask (insertSorted compare value values) =
      insertSorted (fun x y => runAction ask (compare x y)) value values := by
  induction values with
  | nil => rfl
  | cons next rest ih =>
    refine (Event.Script.run_andThen ..).trans (bind_congr fun order => ?_)
    cases order with
    | gt => exact (Event.Script.run_andThen ..).trans (congrArg (· >>= _) ih)
    | lt | eq => rfl

theorem runAction_sortValues (values : List Value) :
    runAction ask (sortValues compare values) =
      sortValues (fun x y => runAction ask (compare x y)) values := by
  induction values with
  | nil => rfl
  | cons value rest ih =>
    refine (Event.Script.run_andThen ..).trans ?_
    rw [sortValues, ← ih]
    exact bind_congr fun sorted => runAction_insertSorted ask compare value sorted

variable {ask compare}

theorem perm_of_sortValues {sorted : List Value} {left : Page ℓ σ}
    (ended : (runAction ask (sortValues compare values)).run page = some (sorted, left)) :
    sorted.Perm values := by
  -- Nothing is asked of the pages, so any comparison is on course.
  have kept : Course.Keeps ⟨fun _ => True, fun _ _ => True, fun _ => trivial, fun _ _ => trivial⟩ page
      (sortValues (fun x y => runAction ask (compare x y)) values)
      (sortValues (fun x y => runAction ask (compare x y)) values)
      fun sorted _ => sorted.Perm values :=
    sortValues_keeps (fun _ _ _ _ _ _ ends => ⟨ends, trivial, trivial, trivial⟩) values trivial
  rw [runAction_sortValues] at ended
  exact (kept sorted left ended).2.2.2

variable {allowed : Request ℓ π κ → Prop} (uses : ∀ x y, (compare x y).Asks allowed)
include uses

theorem insertSorted_asks (value : Value) (values : List Value) :
    (insertSorted compare value values).Asks allowed := by
  induction values with
  | nil => trivial
  | cons next rest ih =>
    refine (uses value next).andThen fun order => ?_
    cases order with
    | gt => exact ih.andThen fun _ => trivial
    | lt | eq => trivial

theorem sortValues_asks (values : List Value) : (sortValues compare values).Asks allowed := by
  induction values with
  | nil => trivial
  | cons value rest ih => exact ih.andThen fun sorted => insertSorted_asks uses value sorted

end

end Page

end LiveList
