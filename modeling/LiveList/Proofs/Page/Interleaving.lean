import LiveList.Proofs.Page.Alone
import LiveList.Proofs.Page.Reached

/-!
# Requests of two lists in any order

Two lists are on one page, and each is asked for something now and then. Main statement: if neither
container is below the other and the callbacks of each list keep to it, each list comes to what it
comes to if only its own requests are made and the other list is not there.
-/

namespace LiveList

open Event (Hub ListenerId Notification)

def Request.isOf {ℓ π κ : Type} (list : Nat) : Request ℓ π κ → Bool
  | .call other _ | .unsubscribe other _ | .drop other => other == list
  | .setInnerHtml .. | .setAttribute .. | .removeElement _ => false

abbrev Exchange (ℓ π κ : Type) := (r : Request ℓ π κ) × r.Answer

variable {ℓ π κ σ τ : Type} {own : Belongings ℓ π κ σ τ} {list beside : Nat}

theorem ListBuilder.exists_arranges {builder : ListBuilder} {d : Document} {view : ListView}
    (consistent : d.Consistent) (free : ¬ d.Below view.container Document.root)
    (built : builder.build d = .ok view) : ∃ items, view.Arranges d items := by
  obtain ⟨-, nodes, -, attached⟩ := build_ok built
  obtain ⟨old, layout⟩ := Document.Layout.of_not_above_root consistent free attached
  exact ⟨_, .of_layout layout nodes⟩

theorem Request.Within.isOf {r : Request ℓ π κ} (within : r.Within own list) (other : Nat) :
    r.isOf other = (list == other) := by
  cases r with
  | call =>
    cases within.1
    rfl
  | unsubscribe | drop =>
    cases within
    rfl
  | setInnerHtml | setAttribute | removeElement => exact within.elim

namespace Page

def askEach {m : Type → Type} [Monad m] (ask : (r : Request ℓ π κ) → m r.Answer)
    (requests : List (Request ℓ π κ)) : m (List (Exchange ℓ π κ)) :=
  requests.mapM fun r => return ⟨r, ← ask r⟩

/-- What a list comes to while requests are made: the answers to those of its own, what there is to
see of it in the end, and what its listeners are told. -/
def outcome (behaviour : Behaviour ℓ π κ σ) (own : Belongings ℓ π κ σ τ) (depth list : Nat)
    (requests : List (Request ℓ π κ)) (page : Page ℓ σ) : Option (List (Exchange ℓ π κ) ×
      (Option (Mounted ℓ × String × List Nat) × τ) × List (ListenerId × Notification)) := do
  let (answers, left) ← (askEach (perform behaviour depth) requests).run page
  let (_, traced) ← (askEach (trace behaviour depth) requests).run ⟨page, []⟩
  return (answers.filter (·.1.isOf list), left.sight own list, news list traced.log)

section

variable {S S' : Type} {R : S → S' → Prop} {r : Request ℓ π κ} {rest : List (Request ℓ π κ)}

theorem askEach_cons {m : Type → Type} [Monad m] [LawfulMonad m]
    (ask : (r : Request ℓ π κ) → m r.Answer) (r : Request ℓ π κ) (rest : List (Request ℓ π κ)) :
    askEach ask (r :: rest) = do return ⟨r, ← ask r⟩ :: (← askEach ask rest) := by
  simp only [askEach, List.mapM_cons, bind_assoc, pure_bind]

theorem askEach_coupled {m m' : Type → Type} [Monad m] [LawfulMonad m] [Monad m'] [LawfulMonad m']
    (coupling : Coupling m m') {ask : (r : Request ℓ π κ) → m r.Answer}
    {ask' : (r : Request ℓ π κ) → m' r.Answer} (requests : List (Request ℓ π κ))
    (asks : ∀ r ∈ requests, coupling.couples Any (ask r) (ask' r)) :
    coupling.couples Any (askEach ask requests) (askEach ask' requests) :=
  coupling.mapM requests fun r inside =>
    coupling.map (asks r inside) _ fun _ _ => trivial

theorem askEach_inStep {ask : (r : Request ℓ π κ) → StateT S Option r.Answer}
    {ask' : (r : Request ℓ π κ) → StateT S' Option r.Answer} (requests : List (Request ℓ π κ))
    (asks : ∀ r ∈ requests, InStep R Any (ask r) (ask' r)) :
    InStep R Any (askEach ask requests) (askEach ask' requests) :=
  askEach_coupled (lockstep R) requests asks

end

theorem outcome_eq (behaviour : Behaviour ℓ π κ σ) (own : Belongings ℓ π κ σ τ) (depth list : Nat)
    (requests : List (Request ℓ π κ)) (page : Page ℓ σ) :
    outcome behaviour own depth list requests page =
      ((askEach (trace behaviour depth) requests).run ⟨page, []⟩).map fun (answers, traced) =>
        (answers.filter (·.1.isOf list), traced.page.sight own list, news list traced.log) := by
  have both := askEach_inStep requests (fun r _ => trace_inStep behaviour depth r) ⟨page, []⟩ page rfl
  rw [outcome]
  generalize (askEach (trace behaviour depth) requests).run ⟨page, []⟩ = traced,
    (askEach (perform behaviour depth) requests).run page = ended at both ⊢
  cases both with
  | none => rfl
  | @some left right same =>
    obtain ⟨answers, traced⟩ := left
    obtain ⟨_, _⟩ := right
    obtain ⟨rfl, -, rfl⟩ := same
    rfl

/-! ## Two lists -/

inductive Interleaves (own : Belongings ℓ π κ σ τ) (list beside : Nat) :
    (all left right : Option (List (Exchange ℓ π κ) × Traced ℓ π κ σ)) → Prop
  | some (answers : List (Exchange ℓ π κ)) {s other aside : Traced ℓ π κ σ} :
    Neighbours own list beside aside s other →
    Interleaves own list beside (some (answers, s))
      (some (answers.filter (·.1.isOf list), other)) (some (answers.filter (·.1.isOf beside), aside))
  | left (right : Option (List (Exchange ℓ π κ) × Traced ℓ π κ σ)) :
    Interleaves own list beside none none right
  | right (left : Option (List (Exchange ℓ π κ) × Traced ℓ π κ σ)) :
    Interleaves own list beside none left none

theorem Interleaves.symm {all left right : Option (List (Exchange ℓ π κ) × Traced ℓ π κ σ)}
    (interleaves : Interleaves own list beside all left right) :
    Interleaves own beside list all right left := by
  cases interleaves with
  | some answers neighbours => exact .some answers neighbours.symm
  | left right => exact .right right
  | right left => exact .left left

theorem askEach_run_cons {S : Type} (ask : (r : Request ℓ π κ) → StateT S Option r.Answer)
    (r : Request ℓ π κ) (rest : List (Request ℓ π κ)) (s : S) :
    (askEach ask (r :: rest)).run s = ((ask r).run s).bind fun (answer, s) =>
      ((askEach ask rest).run s).map fun (answers, s) => (⟨r, answer⟩ :: answers, s) := by
  rw [askEach_cons, StateT.run_bind]
  congr 1
  funext ⟨answer, s⟩
  dsimp only
  rw [StateT.run_bind]
  cases (askEach ask rest).run s <;> rfl

section

variable {ask : (r : Request ℓ π κ) → TracedRun ℓ π κ σ r.Answer} {r : Request ℓ π κ}
  {rest : List (Request ℓ π κ)} {s other aside : Traced ℓ π κ σ}

theorem Interleaves.cons (differ : list ≠ beside) (within : r.Within own list)
    (asks : InStep (Neighbours own list beside aside) Any (ask r) (ask r))
    (neighbours : Neighbours own list beside aside s other)
    (others : ∀ s other, Neighbours own list beside aside s other →
      Interleaves own list beside ((askEach ask rest).run s)
        ((askEach ask (rest.filter (·.isOf list))).run other)
        ((askEach ask (rest.filter (·.isOf beside))).run aside)) :
    Interleaves own list beside ((askEach ask (r :: rest)).run s)
      ((askEach ask ((r :: rest).filter (·.isOf list))).run other)
      ((askEach ask ((r :: rest).filter (·.isOf beside))).run aside) := by
  have its : r.isOf list = true := by simp [within.isOf]
  have notIts : r.isOf beside = false := by simp [within.isOf, differ]
  rw [List.filter_cons_of_pos its, List.filter_cons_of_neg (by simp [notIts]), askEach_run_cons,
    askEach_run_cons]
  have both := asks s other neighbours
  generalize (ask r).run s = ended, (ask r).run other = ended' at both
  cases both with
  | none => exact .left _
  | @some left right same =>
    obtain ⟨answer, s'⟩ := left
    obtain ⟨_, other'⟩ := right
    obtain ⟨rfl, -, later⟩ := same
    have final := others s' other' later
    simp only [Option.bind_some]
    generalize (askEach ask rest).run s' = all,
      (askEach ask (rest.filter (·.isOf list))).run other' = left,
      (askEach ask (rest.filter (·.isOf beside))).run aside = right at final ⊢
    cases final with
    | some answers last =>
      have joined := Interleaves.some (⟨r, answer⟩ :: answers) last
      simpa only [List.filter_cons, its, notIts, if_true, Bool.false_eq_true, if_false,
        Option.map_some] using joined
    | left right => exact .left right
    | right left => exact .right _

end

theorem askEach_interleaves {behaviour : Behaviour ℓ π κ σ} (keeps : behaviour.KeepsTo own)
    (differ : list ≠ beside) (depth : Nat) (requests : List (Request ℓ π κ))
    (within : ∀ r ∈ requests, r.Within own list ∨ r.Within own beside)
    {s other aside : Traced ℓ π κ σ} (neighbours : Neighbours own list beside aside s other) :
    Interleaves own list beside ((askEach (trace behaviour depth) requests).run s)
      ((askEach (trace behaviour depth) (requests.filter (·.isOf list))).run other)
      ((askEach (trace behaviour depth) (requests.filter (·.isOf beside))).run aside) := by
  induction requests generalizing s other aside with
  | nil => exact .some [] neighbours
  | cons r rest ih =>
    have ih {s other aside} (neighbours : Neighbours own list beside aside s other) :=
      ih (fun other inside => within other (List.mem_cons_of_mem _ inside)) neighbours
    rcases within r List.mem_cons_self with within | within
    · exact .cons differ within (trace_neighbours keeps differ depth within) neighbours
        fun _ _ => ih
    · exact (Interleaves.cons differ.symm within
        (trace_neighbours keeps differ.symm depth within) neighbours.symm
        fun _ _ neighbours => (ih neighbours.symm).symm).symm

/-! ## Two new lists -/

theorem alike_of_built {builder : ListBuilder} {view : ListView} {page other : Page ℓ σ}
    (built : builder.build page.document = .ok view)
    (there : page.list? list = some ⟨view, Hub.empty, [], true, 0⟩)
    (there' : other.list? list = page.list? list) (document : other.document = page.document)
    (user : other.user = page.user) (consistent : page.document.Consistent)
    (free : ¬ page.document.Below view.container Document.root) : Alike own list page other := by
  obtain ⟨items, arranged⟩ := ListBuilder.exists_arranges consistent free built
  exact ⟨_, _, _, _, there, there'.trans there, rfl, rfl, rfl, arranged, document ▸ arranged,
    by rw [document], by rw [user], by simp [Hub.empty]⟩

/-- Two lists on one document do not interfere: requests of both, in any order, end just if those of
each end when the other list is not there, and each list then comes to the same. -/
theorem outcome_interleaved {behaviour : Behaviour ℓ π κ σ} (keeps : behaviour.KeepsTo own)
    (page : Page ℓ σ) (consistent : page.document.Consistent) {first second : Nat}
    (differ : first ≠ second) {builder builder' : ListBuilder} {view view' : ListView}
    (built : builder.build page.document = .ok view)
    (built' : builder'.build page.document = .ok view')
    (there : page.list? first = some ⟨view, Hub.empty, [], true, 0⟩)
    (there' : page.list? second = some ⟨view', Hub.empty, [], true, 0⟩)
    (notBelow : ¬ page.document.Below view.container view'.container)
    (notAbove : ¬ page.document.Below view'.container view.container)
    {requests : List (Request ℓ π κ)}
    (within : ∀ r ∈ requests, r.Within own first ∨ r.Within own second) (depth : Nat) :
    match outcome behaviour own depth first (requests.filter (·.isOf first)) (page.forget second),
      outcome behaviour own depth second (requests.filter (·.isOf second)) (page.forget first) with
    | some alone, some alone' => outcome behaviour own depth first requests page = some alone ∧
      outcome behaviour own depth second requests page = some alone'
    | _, _ => (askEach (perform behaviour depth) requests).run page = none := by
  -- Each container is below the root, so one above the root would be above the other.
  have under {builder : ListBuilder} {view : ListView}
      (built : builder.build page.document = .ok view) :
      page.document.Below Document.root view.container :=
    consistent.below_of_mem_subtree
      (List.mem_filter.1 (ListBuilder.build_ok built).2.2.2).1
  have neighbours : Neighbours own first second ⟨page.forget first, []⟩ ⟨page, []⟩
      (⟨page.forget second, []⟩ : Traced ℓ π κ σ) := by
    refine ⟨⟨?_, ?_, ?_⟩, rfl, rfl⟩
    · exact alike_of_built built there (by rw [list?_forget, if_neg differ.symm]) rfl rfl consistent
        fun circle => notBelow (circle.trans (under built'))
    · exact alike_of_built built' there' (by rw [list?_forget, if_neg differ]) rfl rfl consistent
        fun circle => notAbove (circle.trans (under built))
    · intro mounted neighbour mountedThere neighbourThere
      cases there.symm.trans mountedThere
      cases there'.symm.trans neighbourThere
      exact consistent.apart notBelow notAbove
  have both := askEach_interleaves keeps differ depth requests within neighbours
  have plain := askEach_inStep requests (fun r _ => trace_inStep behaviour depth r) ⟨page, []⟩ page rfl
  simp only [outcome_eq]
  generalize (askEach (trace behaviour depth) requests).run ⟨page, []⟩ = all,
    (askEach (trace behaviour depth) (requests.filter (·.isOf first))).run _ = left,
    (askEach (trace behaviour depth) (requests.filter (·.isOf second))).run _ = right,
    (askEach (perform behaviour depth) requests).run page = ended at both plain ⊢
  cases both with
  | some answers neighbours =>
    have news := neighbours.heard
    have news' := neighbours.unheard
    have sights := neighbours.together.sight_eq
    have sights' := neighbours.symm.together.sight_eq
    simp only [Option.map_some, List.filter_filter, Bool.and_self]
    rw [news, news', sights, sights']
    exact ⟨rfl, rfl⟩
  | left right =>
    cases plain
    rfl
  | right left =>
    cases plain
    cases left <;> rfl

def numbered : Belongings Nat Nat Nat (Nat → Nat) Nat :=
  ⟨fun list name => name = list, fun list name => name = list, fun list name => name = list,
    fun list counts => counts list⟩

def counting : Behaviour Nat Nat Nat (Nat → Nat) where
  listen list notification :=
    .note (fun counts => Function.update counts list (counts list + 1)) <|
      if notification.kind == .push then .ask (.call list .updateView) fun _ => .done () else .done ()
  test list _ := .ask (.call list (.push (.object [("text", .string "c")]))) fun _ => .done true
  compare _ _ _ := .done .eq

theorem counting_keepsTo : counting.KeepsTo numbered where
  listen list name its notification := by
    obtain rfl : name = list := its
    refine ⟨⟨fun counts counts' same => ?_, fun other differ counts => ?_⟩, ?_⟩
    · have same : counts name = counts' name := same
      simp [numbered, same]
    · exact Function.update_of_ne differ _ _
    · split
      · exact ⟨⟨rfl, trivial⟩, fun _ => trivial⟩
      · trivial
  test list name its value := by
    obtain rfl : name = list := its
    exact ⟨⟨rfl, trivial⟩, fun _ => trivial⟩
  compare list name its x y := trivial

def pairDocument : Document := Document.ofHtml "<ul id=\"texts\">a</ul><ol id=\"others\"></ol>"

def othersBuilder : ListBuilder := { textsBuilder with element := some "others" }

def pairPage (view view' : ListView) : Page Nat (Nat → Nat) :=
  ((⟨pairDocument, [], fun _ => 0⟩ : Page Nat (Nat → Nat)).mount (some view)).mount (some view')

/-- What the first list frees with each change the second one takes, and the other way round. -/
def alternating : List (Request Nat Nat Nat) :=
  have text (name : String) : Json.Value := .object [("text", .string name)]
  [.call 0 (.subscribe Event.Kind.all 0), .call 1 (.subscribe Event.Kind.all 1),
    .call 0 (.push (text "a")), .call 1 (.pushAll [text "b", text "d"]), .call 0 .removeAll,
    .call 1 (.push (text "e")), .call 0 (.push (text "f")), .call 1 (.edit 0 (.string "g")),
    .call 0 (.filter 0), .call 1 (.filter 1), .call 0 (.sortBy 0), .drop 0, .call 1 (.remove 1),
    .call 0 .removeAll]

theorem pair_runs : ((textsBuilder.build pairDocument).toOption.any fun view =>
    (othersBuilder.build pairDocument).toOption.any fun view' =>
      (outcome counting numbered 3 0 (alternating.filter (·.isOf 0))
        ((pairPage view view').forget 1)).isSome &&
      (outcome counting numbered 3 1 (alternating.filter (·.isOf 1))
        ((pairPage view view').forget 0)).isSome &&
      pairDocument.parent? view.container == some Document.root &&
      pairDocument.parent? view'.container == some Document.root &&
      view.container != view'.container) = true := by
  decide +kernel

theorem outcome_interleaved_pair : ∃ (view view' : ListView)
    (alone alone' : List (Exchange Nat Nat Nat) ×
      (Option (Mounted Nat × String × List Nat) × Nat) × List (ListenerId × Notification)),
    textsBuilder.build pairDocument = .ok view ∧ othersBuilder.build pairDocument = .ok view' ∧
    ¬ pairDocument.Below view.container view'.container ∧
    ¬ pairDocument.Below view'.container view.container ∧
    outcome counting numbered 3 0 (alternating.filter (·.isOf 0)) ((pairPage view view').forget 1) =
      some alone ∧
    outcome counting numbered 3 1 (alternating.filter (·.isOf 1)) ((pairPage view view').forget 0) =
      some alone' ∧
    outcome counting numbered 3 0 alternating (pairPage view view') = some alone ∧
    outcome counting numbered 3 1 alternating (pairPage view view') = some alone' := by
  obtain ⟨view, isView, runs⟩ := (Option.any_eq_true _ _).1 pair_runs
  obtain ⟨view', isView', runs⟩ := (Option.any_eq_true _ _).1 runs
  simp only [Bool.and_eq_true, beq_iff_eq, bne_iff_ne, Option.isSome_iff_exists] at runs
  obtain ⟨⟨⟨⟨⟨alone, ends⟩, ⟨alone', ends'⟩⟩, up⟩, up'⟩, differ⟩ := runs
  rw [toOption_eq_some] at isView isView'
  have consistent : pairDocument.Consistent := (Document.ofHtml_wellFormed _).coherent.toConsistent
  have free {first second : NodeId} (up : pairDocument.parent? first = some Document.root)
      (up' : pairDocument.parent? second = some Document.root) (differ : first ≠ second) :
      ¬ pairDocument.Below first second := by
    intro below
    have alone : pairDocument.parent? Document.root = none := by decide +kernel
    obtain ⟨above, higher, below⟩ := below.eq_or_up.resolve_left differ
    cases up'.symm.trans higher
    cases below.eq_of_parent?_none alone
    cases alone.symm.trans up
  have within : ∀ r ∈ alternating, r.Within numbered 0 ∨ r.Within numbered 1 := by
    simp [alternating, Request.Within, Call.Within, numbered]
  have notBelow := free up up' differ
  have notAbove := free up' up differ.symm
  have same := outcome_interleaved counting_keepsTo (pairPage view view') consistent
    (by decide : 0 ≠ 1) isView isView' rfl rfl notBelow notAbove within 3
  rw [ends, ends'] at same
  exact ⟨view, view', alone, alone', isView, isView', notBelow, notAbove, ends, ends',
    same⟩

end Page

end LiveList
