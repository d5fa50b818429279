import LiveList.Proofs.Page.Trace
import LiveList.Proofs.View.Apart

namespace LiveList

open Document (Plant)
open Event (ListenerId Notification)
open Markup (Tree)

/-- What belongs to the lists of a page besides the lists themselves: the callbacks that each is given,
by name, and a share of the state of those who use the page. -/
structure Belongings (ℓ π κ σ τ : Type) where
  listener : Nat → ℓ → Prop
  test : Nat → π → Prop
  order : Nat → κ → Prop
  share : Nat → σ → τ

def Belongings.Keeps {ℓ π κ σ τ : Type} (own : Belongings ℓ π κ σ τ) (list : Nat)
    (change : σ → σ) : Prop :=
  (∀ user user', own.share list user = own.share list user' →
    own.share list (change user) = own.share list (change user')) ∧
  ∀ other, other ≠ list → ∀ user, own.share other (change user) = own.share other user

def Stroke.sketch : (stroke : Stroke) → Sketch → stroke.Result × Sketch
  | .insert record place => Sketch.attempt (Sketch.insert record place)
  | .insertAll items => Sketch.attempt (Sketch.insertAll items)
  | .remove index => Sketch.remove index
  | .removeAll => Sketch.removeAll
  | .edit index fields => Sketch.attempt (Sketch.edit index fields)
  | .showOnly _ matched => Sketch.attempt (Sketch.showOnly matched)
  | .arrange order => Sketch.attempt (Sketch.arrange order)
  | .sort => Sketch.attempt Sketch.sort
  | .updateView => Sketch.attempt Sketch.updateView
  | .addFilter name filter => Sketch.addFilter name filter

theorem Stroke.sketched (stroke : Stroke) : stroke.change.Sketched stroke.sketch := by
  cases stroke with
  | insert record place =>
    exact (Patch.insert_careful record place).sketched (Patch.insert_sketched record place)
  | insertAll items => exact (Patch.insertAll_careful items).sketched (Patch.insertAll_sketched items)
  | remove index => exact Change.remove_sketched index
  | removeAll => exact Change.removeAll_sketched
  | edit index fields =>
    exact (Patch.edit_careful index fields).sketched (Patch.edit_sketched index fields)
  | showOnly since matched =>
    exact (Patch.showOnly_careful matched).sketched (Patch.showOnly_sketched matched)
  | arrange order => exact (Patch.arrange_careful order).sketched (Patch.arrange_sketched order)
  | sort => exact Patch.sort_careful.sketched Patch.sort_sketched
  | updateView => exact Patch.updateView_careful.sketched Patch.updateView_sketched
  | addFilter name filter => exact Change.addFilter_sketched name filter

namespace Page

variable {ℓ π κ σ τ : Type}

/-- What those can see of a page who hold just one list and their own state: all of the list but the
names of nodes. -/
def sight (own : Belongings ℓ π κ σ τ) (list : Nat) (page : Page ℓ σ) :
    Option (Mounted ℓ × String × List Nat) × τ :=
  ((page.list? list).map fun mounted =>
      ({ mounted with view := { mounted.view with nodes := [] } }, mounted.view.html page.document,
        mounted.view.renderedIndices page.document),
    own.share list page.user)

structure AlikeIn (own : Belongings ℓ π κ σ τ) (list : Nat) (page other : Page ℓ σ)
    (mounted mounted' : Mounted ℓ) (items items' : Items Plant) : Prop where
  there : page.list? list = some mounted
  there' : other.list? list = some mounted'
  state : mounted' = { mounted with view := mounted'.view }
  container : mounted'.view.container = mounted.view.container
  sketch : mounted'.view.sketch items' = mounted.view.sketch items
  arranged : mounted.view.Arranges page.document items
  arranged' : mounted'.view.Arranges other.document items'
  raw : other.document.holdsRawText mounted'.view.container =
    page.document.holdsRawText mounted.view.container
  share : own.share list other.user = own.share list page.user
  listeners : ∀ registration ∈ mounted.hub.registrations, own.listener list registration.listener

def Alike (own : Belongings ℓ π κ σ τ) (list : Nat) (page other : Page ℓ σ) : Prop :=
  ∃ mounted mounted' items items', AlikeIn own list page other mounted mounted' items items'

variable {own : Belongings ℓ π κ σ τ} {list beside : Nat} {page other aside : Page ℓ σ}
  {mounted mounted' : Mounted ℓ} {items items' : Items Plant}

namespace AlikeIn

theorem sight_eq (alike : AlikeIn own list page other mounted mounted' items items') :
    other.sight own list = page.sight own list := by
  have html : mounted'.view.html other.document = mounted.view.html page.document := by
    rw [Arranged.html_eq alike.arranged', Arranged.html_eq alike.arranged, alike.sketch, alike.raw]
  have indices : mounted'.view.renderedIndices other.document =
      mounted.view.renderedIndices page.document := by
    rw [Arranged.renderedIndices_eq alike.arranged', Arranged.renderedIndices_eq alike.arranged,
      alike.sketch]
  have state : { mounted' with view := { mounted'.view with nodes := [] } } =
      { mounted with view := { mounted.view with nodes := [] } } := by
    rw [ListView.eq_of_sketch alike.sketch alike.container, alike.state]
  rw [sight, sight, alike.there, alike.there', alike.share, Option.map_some, Option.map_some, html,
    indices, state]

theorem of_same {page' : Page ℓ σ}
    (alike : AlikeIn own list page other mounted mounted' items items')
    (lists : page'.list? list = page.list? list)
    (arranged : mounted.view.Arranges page'.document items)
    (raw : page'.document.holdsRawText mounted.view.container =
      page.document.holdsRawText mounted.view.container)
    (share : own.share list page'.user = own.share list page.user) :
    AlikeIn own list page' other mounted mounted' items items' :=
  { alike with
    there := lists.trans alike.there
    arranged
    raw := alike.raw.trans raw.symm
    share := alike.share.trans share.symm }

theorem modifyList (alike : AlikeIn own list page other mounted mounted' items items')
    {f : Mounted ℓ → Mounted ℓ}
    (viewless : ∀ mounted view, f { mounted with view } = { f mounted with view })
    (listeners : ∀ registration ∈ (f mounted).hub.registrations,
      own.listener list registration.listener) :
    AlikeIn own list (page.modifyList list f) (other.modifyList list f) (f mounted) (f mounted')
      items items' := by
  have view (mounted : Mounted ℓ) : (f mounted).view = mounted.view := by
    have same : f mounted = { f mounted with view := mounted.view } := viewless mounted mounted.view
    exact (congrArg Mounted.view same).trans rfl
  refine ⟨list?_modifyList_self alike.there f, list?_modifyList_self alike.there' f, ?_, ?_, ?_, ?_, ?_,
    ?_, alike.share, listeners⟩
  · rw [view, ← viewless, ← alike.state]
  · rw [view, view, alike.container]
  · rw [view, view, alike.sketch]
  · rw [view]
    exact alike.arranged
  · rw [view]
    exact alike.arranged'
  · rw [view, view]
    exact alike.raw

theorem struck (alike : AlikeIn own list page other mounted mounted' items items')
    (stroke : Stroke) : ∃ result left left' later later',
      stroke.change.on ⟨mounted.view, page.document⟩ = (result, left) ∧
      stroke.change.on ⟨mounted'.view, other.document⟩ = (result, left') ∧
      Arranged page.document mounted.view.container items.content left.view left.document later [] ∧
      AlikeIn own list (page.struck list stroke result left) (other.struck list stroke result left')
        (mounted.after left.view (stroke.line result))
        (mounted'.after left'.view (stroke.line result)) later later' := by
  obtain ⟨left, later, run, arranged, same⟩ := stroke.sketched alike.arranged
  obtain ⟨left', later', run', arranged', same'⟩ := stroke.sketched alike.arranged'
  rw [alike.sketch] at run' same'
  have container : left'.view.container = left.view.container := by
    rw [arranged'.container, arranged.container, alike.container]
  refine ⟨_, left, left', later, later', run, run', arranged, list?_modifyList_self alike.there _,
    list?_modifyList_self alike.there' _, ?_, container, same'.symm.trans same, .of_arranged arranged,
    .of_arranged arranged', ?_, alike.share, alike.listeners⟩
  · rw [alike.state]
    rfl
  · have raw := alike.raw
    rw [← arranged.layout.holdsRawText_top, ← arranged'.layout.holdsRawText_top] at raw
    rw [← arranged.container, ← arranged'.container] at raw
    exact raw

end AlikeIn

/-- A list is alike on the page and on another one, and so is a list beside it with a third page. The
containers of the two lists are apart. -/
structure Together (own : Belongings ℓ π κ σ τ) (list beside : Nat) (page other aside : Page ℓ σ) :
    Prop where
  alike : Alike own list page other
  besides : Alike own beside page aside
  apart : ∀ mounted neighbour, page.list? list = some mounted → page.list? beside = some neighbour →
    page.document.Apart mounted.view.container neighbour.view.container

namespace Together

theorem symm (together : Together own list beside page other aside) :
    Together own beside list page aside other where
  alike := together.besides
  besides := together.alike
  apart neighbour mounted there there' := (together.apart mounted neighbour there' there).symm

variable (together : Together own list beside page other aside)
include together

theorem sight_eq : page.sight own list = other.sight own list := by
  obtain ⟨mounted, mounted', items, items', alike⟩ := together.alike
  exact alike.sight_eq.symm

theorem user {change : σ → σ} (keeps : own.Keeps list change) (differ : beside ≠ list) :
    Together own list beside { page with user := change page.user }
      { other with user := change other.user } aside := by
  obtain ⟨⟨mounted, mounted', items, items', alike⟩, ⟨neighbour, neighbour', sides, sides', besides⟩,
    apart⟩ := together
  exact ⟨⟨mounted, mounted', items, items', { alike with share := keeps.1 _ _ alike.share }⟩,
    ⟨neighbour, neighbour', sides, sides',
      { besides with share := besides.share.trans (keeps.2 beside differ _).symm }⟩, apart⟩

theorem modifyList (differ : list ≠ beside) {f : Mounted ℓ → Mounted ℓ}
    (viewless : ∀ mounted view, f { mounted with view } = { f mounted with view })
    (listeners : ∀ mounted, page.list? list = some mounted →
      (∀ registration ∈ mounted.hub.registrations, own.listener list registration.listener) →
      ∀ registration ∈ (f mounted).hub.registrations, own.listener list registration.listener) :
    Together own list beside (page.modifyList list f) (other.modifyList list f) aside := by
  obtain ⟨⟨mounted, mounted', items, items', alike⟩, ⟨neighbour, neighbour', sides, sides', besides⟩,
    apart⟩ := together
  have lists : (page.modifyList list f).list? beside = page.list? beside :=
    list?_modifyList_of_ne differ f
  have turned := alike.modifyList viewless (listeners mounted alike.there alike.listeners)
  refine ⟨⟨_, _, items, items', turned⟩, ⟨neighbour, neighbour', sides, sides',
    besides.of_same lists besides.arranged rfl rfl⟩, fun first second there there' => ?_⟩
  have same : f mounted = { f mounted with view := mounted.view } := viewless mounted mounted.view
  cases turned.there.symm.trans there
  rw [same]
  exact apart mounted second alike.there (lists.symm.trans there')

theorem struck (differ : list ≠ beside) (stroke : Stroke) :
    ∃ result mounted mounted' left left', page.list? list = some mounted ∧
      other.list? list = some mounted' ∧
      stroke.change.on ⟨mounted.view, page.document⟩ = (result, left) ∧
      stroke.change.on ⟨mounted'.view, other.document⟩ = (result, left') ∧
      Together own list beside (page.struck list stroke result left)
        (other.struck list stroke result left') aside := by
  obtain ⟨⟨mounted, mounted', items, items', alike⟩, ⟨neighbour, neighbour', sides, sides', besides⟩,
    apart⟩ := together
  obtain ⟨result, left, left', later, later', run, run', arranged, alike'⟩ := alike.struck stroke
  have apart := apart mounted neighbour alike.there besides.there
  have lists : (page.struck list stroke result left).list? beside = page.list? beside :=
    list?_modifyList_of_ne differ _
  have start := alike.arranged.layout
  have layout := arranged.layout
  have side := besides.arranged.layout
  refine ⟨result, mounted, mounted', left, left', alike.there, alike.there', run, run',
    ⟨_, _, later, later', alike'⟩, ⟨neighbour, neighbour', sides, sides',
      besides.of_same lists ⟨rfl, start.beside layout side apart, besides.arranged.remembered⟩
        (start.holdsRawText_beside layout side apart) rfl⟩, fun first second there there' => ?_⟩
  cases alike'.there.symm.trans there
  cases besides.there.symm.trans (lists.symm.trans there')
  have container : (mounted.after left.view (stroke.line result)).view.container =
      mounted.view.container := arranged.container
  rw [container]
  exact start.apart_beside layout side apart

end Together

end Page

end LiveList
