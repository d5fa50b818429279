import LiveList.Proofs.Page.Calls
import LiveList.Proofs.Page.Changes

/-!
# Pages that stand

On a page that stands every list does, and no node belongs to two lists. Main statement: whatever is
asked of the lists of such a page, also inside callbacks, the page stands wherever a callback is
called or a request was answered, at any depth.
-/

namespace LiveList.Page

open Document (Plant)
open Document.Plant (ids)
open Event (Hub Kind ListenerId Notification Script)
open Json (Value)

variable {ℓ π κ σ α β : Type} {quiet : Prop} {page : Page ℓ σ}

def Owns (mounted : Mounted ℓ) (blocks : List (Nat × List Plant)) (id : NodeId) : Prop :=
  id = mounted.view.container ∨ id ∈ ids (plantsOf blocks)

/-- Every list stands, and no node belongs to two of them. -/
structure Standing (quiet : Prop) (page : Page ℓ σ) (blocks : Nat → List (Nat × List Plant)) :
    Prop where
  wf : page.document.WellFormed
  lists : ∀ list mounted, page.list? list = some mounted →
    mounted.Standing quiet page.document (blocks list)
  apart : ∀ list other mounted mounted', list ≠ other → page.list? list = some mounted →
    page.list? other = some mounted' → ∀ id, Owns mounted (blocks list) id →
      ¬ Owns mounted' (blocks other) id

def standing (quiet : Prop) : Course ℓ σ where
  sane page := ∃ blocks, Standing quiet page blocks
  leads page left := ∀ list mounted, page.list? list = some mounted →
    ∃ mounted', left.list? list = some mounted' ∧ mounted.Later mounted'
  refl _ _ mounted there := ⟨mounted, there, .refl mounted⟩
  trans first second list mounted there :=
    have ⟨_, there', later⟩ := first list mounted there
    have ⟨mounted'', there'', later'⟩ := second list _ there'
    ⟨mounted'', there'', later.trans later'⟩

section

variable {list : Nat} {mounted : Mounted ℓ} (there : page.list? list = some mounted)
  {blocks : Nat → List (Nat × List Plant)} (stands : Standing quiet page blocks) {left : Scene}
  {line : Option Entry} {new : List (Nat × List Plant)}
include there

theorem list?_change {other : Nat} {mounted' : Mounted ℓ}
    (there' : ({ page with document := left.document }.modifyList list
      (·.after left.view line)).list? other = some mounted') :
    other = list ∧ mounted' = mounted.after left.view line ∨
      other ≠ list ∧ page.list? other = some mounted' := by
  rcases list?_modifyList_eq_some there' with ⟨was, found, same, rfl⟩ | elsewhere
  · obtain rfl : mounted = was := Option.some.inj (there.symm.trans found)
    exact .inl ⟨same, rfl⟩
  · exact .inr elsewhere

include stands

theorem Standing.spared (carried : Carried quiet mounted page.document (blocks list) left line new)
    {other : Nat} {mounted' : Mounted ℓ} (differ : other ≠ list)
    (there' : page.list? other = some mounted') {id : NodeId} (owns : Owns mounted' (blocks other) id) :
    ¬ Owns (mounted.after left.view line) new id ∧
      left.document.node? id = page.document.node? id := by
  have notOld := stands.apart other list mounted' mounted differ there' there id owns
  rw [Owns, not_or] at notOld
  have live : page.document.node? id ≠ none := by
    have stood := (stands.lists other mounted' there').stands
    obtain ⟨node, container, -⟩ := stood.parent
    rcases owns with rfl | inside
    · simp [container]
    · obtain ⟨node, held⟩ := stood.holds.live inside
      simp [held]
  have notNew : id ∉ ids (plantsOf new) := fun inside => by
    cases carried.layout.within id (by simpa using inside) with
    | inl old =>
      exact notOld.2 old
    | inr dead =>
      exact live dead
  refine ⟨?_, carried.layout.elsewhere id notOld.1 notOld.2 (by simpa using notNew)⟩
  rw [Owns, not_or]
  exact ⟨carried.container ▸ notOld.1, notNew⟩

theorem standing_change
    (carried : Carried quiet mounted page.document (blocks list) left line new) :
    Standing quiet ({ page with document := left.document }.modifyList list
      (·.after left.view line)) (Function.update blocks list new) := by
  refine ⟨carried.layout.wellFormed stands.wf, ?_, ?_⟩
  · intro other mounted' there'
    rcases list?_change there there' with ⟨rfl, rfl⟩ | ⟨differ, was⟩
    · rw [Function.update_self]
      exact carried.standing
    · rw [Function.update_of_ne differ]
      have stood := stands.lists other mounted' was
      exact ⟨stood.stands.congr_nodes fun id owns => (stands.spared there carried differ was owns).2,
        stood.tracked, stood.calm⟩
  · intro first second mounted₁ mounted₂ differ there₁ there₂ id owns
    rcases list?_change there there₁ with ⟨rfl, rfl⟩ | ⟨differ₁, was₁⟩ <;>
      rcases list?_change there there₂ with ⟨rfl, rfl⟩ | ⟨differ₂, was₂⟩
    · exact absurd rfl differ
    · rw [Function.update_self] at owns
      rw [Function.update_of_ne differ₂]
      exact fun owns' => (stands.spared there carried differ₂ was₂ owns').1 owns
    · rw [Function.update_self]
      rw [Function.update_of_ne differ₁] at owns
      exact (stands.spared there carried differ₁ was₁ owns).1
    · rw [Function.update_of_ne differ₁] at owns
      rw [Function.update_of_ne differ₂]
      exact stands.apart first second mounted₁ mounted₂ differ was₁ was₂ id owns

end

theorem standing_modifyList {list : Nat} {f : Mounted ℓ → Mounted ℓ}
    (view : ∀ mounted, (f mounted).view = mounted.view)
    (journal : ∀ mounted, (f mounted).journal = mounted.journal)
    {blocks : Nat → List (Nat × List Plant)} (stands : Standing quiet page blocks) :
    Standing quiet (page.modifyList list f) blocks ∧
      (standing quiet).leads page (page.modifyList list f) := by
  have found : ∀ other mounted', (page.modifyList list f).list? other = some mounted' →
      ∃ mounted, page.list? other = some mounted ∧ mounted'.view = mounted.view ∧
        mounted'.journal = mounted.journal := fun other mounted' there' => by
    rcases list?_modifyList_eq_some there' with ⟨mounted, there, rfl, rfl⟩ | ⟨-, there⟩
    · exact ⟨mounted, there, view mounted, journal mounted⟩
    · exact ⟨mounted', there, rfl, rfl⟩
  refine ⟨⟨stands.wf, ?_, ?_⟩, ?_⟩
  · intro other mounted' there'
    obtain ⟨mounted, there, sameView, sameJournal⟩ := found other mounted' there'
    obtain ⟨stood, tracked, calm⟩ := stands.lists other mounted there
    exact ⟨sameView ▸ stood, by rw [sameView, sameJournal]; exact tracked, by rwa [sameJournal]⟩
  · intro first second mounted₁ mounted₂ differ there₁ there₂ id owns owns'
    obtain ⟨was₁, there₁, sameView₁, -⟩ := found first mounted₁ there₁
    obtain ⟨was₂, there₂, sameView₂, -⟩ := found second mounted₂ there₂
    rw [Owns, sameView₁] at owns
    rw [Owns, sameView₂] at owns'
    exact stands.apart first second was₁ was₂ differ there₁ there₂ id owns owns'
  · intro other mounted there
    rw [list?_modifyList, there]
    split
    · exact ⟨f mounted, rfl, Nat.le_of_eq (by rw [view]), [], journal mounted,
        fun _ => by rw [view]; exact .refl _⟩
    · exact ⟨mounted, rfl, .refl mounted⟩

theorem standing_coarse : (standing quiet : Course ℓ σ).Coarse := by
  rintro list f view journal page ⟨blocks, stands⟩ _ left ⟨⟩
  obtain ⟨stands', leads⟩ := standing_modifyList view journal stands
  exact ⟨rfl, ⟨blocks, stands'⟩, leads, trivial⟩

theorem change_keeps {list : Nat} {change : Change α} {line : α → Option Entry}
    (sane : (standing quiet).sane page)
    (carries : ∀ mounted, page.list? list = some mounted → ∀ blocks,
      mounted.Standing quiet page.document blocks → page.document.WellFormed → ∀ result left,
      change.on ⟨mounted.view, page.document⟩ = (result, left) →
      ∃ new, Carried quiet mounted page.document blocks left (line result) new) :
    (standing quiet).Keeps page (Page.change list change line) (Page.change list change line)
      fun _ _ => True := by
  obtain ⟨blocks, stands⟩ := sane
  intro result left ends
  obtain ⟨mounted, scene, there, run, rfl⟩ := change_eq_some ends
  obtain ⟨new, carried⟩ := carries mounted there _ (stands.lists list mounted there) stands.wf _ _ run
  have stands' := standing_change there stands carried
  refine ⟨ends, ?_⟩
  refine ⟨⟨_, stands'⟩, ?_, trivial⟩
  intro other mounted' there'
  rw [list?_modifyList]
  split
  case isTrue isList =>
    subst isList
    rw [there, Option.some.injEq] at there'
    subst there'
    exact ⟨_, congrArg (Option.map _) there, carried.later⟩
  case isFalse => exact ⟨mounted', there', .refl mounted'⟩

theorem patch_keeps {list : Nat} {patch : Patch α} {line : α → Option Entry}
    (sane : (standing quiet).sane page)
    (carries : ∀ mounted, page.list? list = some mounted → ∀ blocks,
      mounted.Standing quiet page.document blocks → page.document.WellFormed → ∀ result left,
      patch.on ⟨mounted.view, page.document⟩ = (result, left) →
      ∃ new, Carried quiet mounted page.document blocks left (result.toOption.bind line) new) :
    (standing quiet).Keeps page (Page.patch list patch line) (Page.patch list patch line)
      fun _ _ => True :=
  change_keeps sane carries

def Unstirred (quiet : Prop) (page left : Page ℓ σ) : Prop := quiet → left.lists = page.lists

theorem standing_steps (list : Nat) :
    (standing quiet : Course ℓ σ).Steps (Unstirred quiet) list where
  refl _ _ := rfl
  trans first second isQuiet := (second isQuiet).trans (first isQuiet)
  insert _ _ _ sane := patch_keeps sane fun _ _ _ stands wf _ _ run => insert_carried stands wf run
  insertAll _ _ sane := patch_keeps sane fun _ _ _ stands wf _ _ run =>
    insertAll_carried stands wf run
  remove _ _ sane := change_keeps sane fun _ _ _ stands wf _ _ run => remove_carried stands wf run
  removeAll _ sane := change_keeps sane fun _ _ _ stands wf _ _ run =>
    ⟨_, removeAll_carried stands wf run⟩
  edit _ _ _ sane := patch_keeps sane fun _ _ _ stands wf _ _ run => edit_carried stands wf run
  sort _ sane := patch_keeps sane fun _ _ _ stands wf _ _ run => sort_carried stands wf run
  updateView _ sane := patch_keeps sane fun _ _ _ stands wf _ _ run =>
    updateView_carried stands wf run
  addFilter _ _ _ sane := change_keeps sane fun _ _ _ stands wf _ _ run =>
    ⟨_, addFilter_carried stands wf run⟩
  showOnly := by
    intro page mid earlier matched ⟨blocks, stood⟩ there part sane leads silent
    have sound := (stood.lists list earlier there).stands.sound
    obtain ⟨mounted, there', later⟩ := leads list earlier there
    refine patch_keeps sane fun other found _ stands wf _ _ run => ?_
    obtain rfl : mounted = other := Option.some.inj (there'.symm.trans found)
    refine showOnly_carried stands wf later sound part ?_ run
    intro isQuiet
    have same : mid.list? list = page.list? list := by rw [list?, silent isQuiet]; rfl
    rw [Option.some.inj ((there'.symm.trans same).trans there)]
  arrange := by
    intro page mid earlier sorted ⟨blocks, stood⟩ there perm sane
    have sound := (stood.lists list earlier there).stands.sound
    have distinct : (sorted.filterMap Patch.indexOf).Nodup := by
      rw [(perm.filterMap _).nodup_iff, sound.filterMap_indexOf]
      exact sound.nodup
    exact patch_keeps sane fun _ _ _ stands wf _ _ run => arrange_carried stands wf distinct run

structure Behaviour.OnLists (behaviour : Behaviour ℓ π κ σ) : Prop where
  listen : ∀ listener notification, (behaviour.listen listener notification).Asks Request.OnList
  test : ∀ test value, (behaviour.test test value).Asks Request.OnList
  compare : ∀ order x y, (behaviour.compare order x y).Asks Request.OnList

theorem Behaviour.OnLists.asks {behaviour : Behaviour ℓ π κ σ} (onLists : behaviour.OnLists) :
    behaviour.Asks Request.OnList :=
  ⟨onLists.listen, onLists.test, onLists.compare⟩

def Behaviour.PurePredicates (behaviour : Behaviour ℓ π κ σ) : Prop :=
  ∀ test value, (behaviour.test test value).Asks fun _ => False

/-- Whatever is asked of the lists of a page that stands, it stands wherever a callback is called
and wherever a request was answered. -/
theorem perform_keeps {behaviour : Behaviour ℓ π κ σ} (onLists : behaviour.OnLists)
    {check : Page ℓ σ → Prop}
    (checks : ∀ page, (standing behaviour.PurePredicates).sane page → check page) (depth : Nat)
    (r : Request ℓ π κ) (onList : r.OnList)
    (sane : (standing behaviour.PurePredicates).sane page) :
    (standing behaviour.PurePredicates).Keeps page (perform behaviour depth r)
      (performAudited check behaviour depth r) fun _ _ => True := by
  induction depth generalizing page r with
  | zero => rintro answer left ⟨⟩
  | succ depth ih =>
    have notes : ∀ (page : Page ℓ σ) user, (standing behaviour.PurePredicates).sane page →
        (standing behaviour.PurePredicates).sane { page with user } ∧
          (standing behaviour.PurePredicates).leads page { page with user } :=
      fun page user ⟨blocks, stands⟩ => ⟨⟨blocks, stands.wf, stands.lists, stands.apart⟩,
        (standing behaviour.PurePredicates).refl page⟩
    have unstirred : ∀ test value page passes left,
        (runAction (perform behaviour depth) (behaviour.test test value)).run page =
          some (passes, left) → Unstirred behaviour.PurePredicates page left :=
      fun test value _ _ _ ends quiet => (runAction_silent _ (quiet test value) ends).2
    have kept := onLists.asks.kept (fun r onList page sane => ih r onList sane) notes unstirred
    have served := serve_keeps standing_coarse r onList (fun list call _ page sane =>
      answer_keeps (standing_steps list) (kept.audited checks) sane standing_coarse call) sane
    exact served.confirmed checks

end LiveList.Page
