import LiveList.Proofs.Document.Containment
import LiveList.Proofs.Page.Standing

namespace LiveList

open Document (Plant)
open Document.Plant (ids)

namespace ListBuilder

theorem compileTemplate_rooted {markup : String} {template : Template}
    (compiled : compileTemplate markup = .ok template) : template.hasElementRoot := by
  unfold compileTemplate at compiled
  dsimp only at compiled
  split at compiled
  · simp at compiled
  split at compiled
  · simp at compiled
  split at compiled
  case isTrue rooted =>
    rw [Except.ok.injEq] at compiled
    exact compiled ▸ rooted
  case isFalse => simp at compiled

theorem build_ok {builder : ListBuilder} {d : Document} {view : ListView}
    (built : builder.build d = .ok view) :
    view.collection = Collection.empty ∧ view.nodes = [] ∧ view.template.hasElementRoot ∧
      view.container ∈ d.attachedElements := by
  obtain ⟨model, -, built⟩ := bind_eq_ok.1 built
  obtain ⟨element, -, built⟩ := bind_eq_ok.1 built
  obtain ⟨source, -, built⟩ := bind_eq_ok.1 built
  obtain ⟨container, found, built⟩ := bind_eq_ok.1 built
  obtain ⟨markup, -, built⟩ := bind_eq_ok.1 built
  obtain ⟨template, compiled, built⟩ := bind_eq_ok.1 built
  cases built
  have named : d.elementById element = some container := by
    unfold required at found
    split at found
    · rw [Except.ok.injEq] at found
      exact found ▸ ‹_›
    · simp at found
  exact ⟨rfl, rfl, compileTemplate_rooted compiled,
    (List.mem_filter.1 (List.mem_of_head? named)).1⟩

end ListBuilder

namespace Page

variable {ℓ π κ σ : Type}

structure Elsewhere (page : Page ℓ σ) (d : Document) : Prop where
  wf : d.WellFormed
  contains : ∀ list mounted, page.list? list = some mounted → d.contains mounted.view.container
  children : ∀ list mounted, page.list? list = some mounted →
    d.children mounted.view.container = page.document.children mounted.view.container
  below : ∀ list mounted, page.list? list = some mounted → ∀ id, id ≠ mounted.view.container →
    page.document.Below mounted.view.container id → d.node? id = page.document.node? id

def forget (page : Page ℓ σ) (list : Nat) : Page ℓ σ := { page with lists := page.lists.set list none }

/-- A list is built for a container that is empty and not part of what another list shows; it is
asked for something; the document changes elsewhere; or a list that no longer exists is forgotten. -/
inductive Reached (behaviour : Behaviour ℓ π κ σ) : Page ℓ σ → Prop
  | start (d : Document) (user : σ) : d.WellFormed → Reached behaviour ⟨d, [], user⟩
  | mount {page : Page ℓ σ} {builder : ListBuilder} {view : ListView} : Reached behaviour page →
      builder.build page.document = .ok view → page.document.children view.container = [] →
      (∀ list mounted, page.list? list = some mounted →
        ¬ page.document.Below mounted.view.container view.container) →
      Reached behaviour (page.mount (some view))
  | refuse {page : Page ℓ σ} : Reached behaviour page → Reached behaviour (page.mount none)
  | ask {page left : Page ℓ σ} {depth : Nat} {r : Request ℓ π κ} {answer : r.Answer} :
      Reached behaviour page → r.OnList →
      (perform behaviour depth r).run page = some (answer, left) → Reached behaviour left
  | elsewhere {page : Page ℓ σ} {d : Document} (user : σ) : Reached behaviour page →
      page.Elsewhere d → Reached behaviour { page with document := d, user }
  | forget {page : Page ℓ σ} {list : Nat} : Reached behaviour page → page.alive list = false →
      Reached behaviour (page.forget list)

variable {quiet : Prop} {page : Page ℓ σ} {blocks : Nat → List (Nat × List Plant)}

theorem list?_forget (page : Page ℓ σ) (list other : Nat) :
    (page.forget list).list? other = if list = other then none else page.list? other := by
  simp only [list?, forget, List.getElem?_set]
  split
  · split <;> rfl
  · rfl

theorem list?_of_forget {list other : Nat} {mounted : Mounted ℓ}
    (there : (page.forget list).list? other = some mounted) :
    page.list? other = some mounted := by
  rw [list?_forget] at there
  split at there
  · cases there
  · exact there

theorem standing_built {d : Document} {builder : ListBuilder} {view : ListView}
    (built : builder.build d = .ok view) (bare : d.children view.container = []) :
    Mounted.Standing quiet (⟨view, Event.Hub.empty, [], true, 0⟩ : Mounted ℓ) d [] := by
  obtain ⟨collection, nodes, rooted, attached⟩ := ListBuilder.build_ok built
  obtain ⟨node, held⟩ := Document.contains_iff.1 (Document.contains_of_attached attached)
  rw [Document.children_of_node? held] at bare
  have empty : view.collection.indices = [] := by rw [collection]; rfl
  exact ⟨⟨collection ▸ Collection.empty_sound, rooted, ⟨node, held, bare⟩, .nil, by simp [ids],
    by simp [ids], by rw [nodes]; exact .refl _, by simp, by simp, by simp⟩,
    ⟨fun _ => by simp, fun _ => empty.symm, fun _ => empty, fun _ => by simp [Faithful]⟩,
    fun _ => trivial⟩

theorem Standing.mount (stands : Standing quiet page blocks) {builder : ListBuilder} {view : ListView}
    (built : builder.build page.document = .ok view)
    (bare : page.document.children view.container = [])
    (apart : ∀ list mounted, page.list? list = some mounted →
      ¬ page.document.Below mounted.view.container view.container) :
    Standing quiet (page.mount (some view)) (Function.update blocks page.lists.length []) := by
  -- The new container belongs to no other list.
  have free : ∀ list mounted, page.list? list = some mounted →
      ¬ Owns mounted (blocks list) view.container := fun list mounted there owns => by
    apply apart list mounted there
    cases owns with
    | inl same =>
      exact same ▸ .self
    | inr inside =>
      exact (stands.lists list mounted there).stands.below_container inside
  refine ⟨stands.wf, ?_, ?_⟩
  · intro list mounted there
    rcases list?_mount_eq_some there with ⟨rfl, rfl⟩ | ⟨other, was⟩
    · rw [Function.update_self]
      exact standing_built built bare
    · rw [Function.update_of_ne other]
      exact stands.lists list mounted was
  · intro first second mounted₁ mounted₂ differ there₁ there₂ id owns owns'
    rcases list?_mount_eq_some there₁ with ⟨rfl, rfl⟩ | ⟨other₁, was₁⟩ <;>
      rcases list?_mount_eq_some there₂ with ⟨rfl, rfl⟩ | ⟨other₂, was₂⟩
    · exact absurd rfl differ
    · rw [Function.update_self] at owns
      rw [Function.update_of_ne other₂] at owns'
      obtain rfl : id = view.container := by simpa [Owns, ids] using owns
      exact free second mounted₂ was₂ owns'
    · rw [Function.update_of_ne other₁] at owns
      rw [Function.update_self] at owns'
      obtain rfl : id = view.container := by simpa [Owns, ids] using owns'
      exact free first mounted₁ was₁ owns
    · rw [Function.update_of_ne other₁] at owns
      rw [Function.update_of_ne other₂] at owns'
      exact stands.apart first second mounted₁ mounted₂ differ was₁ was₂ id owns owns'

theorem Standing.fewer (stands : Standing quiet page blocks) {lists : List (Option (Mounted ℓ))}
    (old : ∀ list mounted, ({ page with lists } : Page ℓ σ).list? list = some mounted →
      page.list? list = some mounted) : Standing quiet { page with lists } blocks :=
  ⟨stands.wf, fun list mounted there => stands.lists list mounted (old list mounted there),
    fun first second _ _ differ there₁ there₂ =>
      stands.apart first second _ _ differ (old _ _ there₁) (old _ _ there₂)⟩

theorem Standing.refuse (stands : Standing quiet page blocks) :
    Standing quiet (page.mount none) blocks :=
  stands.fewer fun _ _ there => list?_of_refuse there

theorem Standing.forget (stands : Standing quiet page blocks) (list : Nat) :
    Standing quiet (page.forget list) blocks :=
  stands.fewer fun _ _ there => list?_of_forget there

theorem Standing.elsewhere (stands : Standing quiet page blocks) {d : Document}
    (elsewhere : page.Elsewhere d) (user : σ) :
    Standing quiet { page with document := d, user } blocks := by
  refine ⟨elsewhere.wf, ?_, stands.apart⟩
  intro list mounted there
  obtain ⟨stood, tracked, calm⟩ := stands.lists list mounted there
  obtain ⟨node, held⟩ := Document.contains_iff.1 (elsewhere.contains list mounted there)
  have children := elsewhere.children list mounted there
  rw [Document.children_of_node? held, stood.children_container] at children
  exact ⟨stood.congr ⟨node, held, children⟩ fun id inside => elsewhere.below list mounted there id
    (fun same => stood.outside (same ▸ inside)) (stood.below_container inside), tracked, calm⟩

theorem Reached.standing {behaviour : Behaviour ℓ π κ σ} (onLists : behaviour.OnLists)
    (reached : Reached behaviour page) : (Page.standing behaviour.PurePredicates).sane page := by
  induction reached with
  | start d user wf => exact ⟨fun _ => [], wf, by simp [list?], by simp [list?]⟩
  | mount _ built bare apart ih =>
    obtain ⟨blocks, stands⟩ := ih
    exact ⟨_, stands.mount built bare apart⟩
  | refuse _ ih =>
    obtain ⟨blocks, stands⟩ := ih
    exact ⟨_, stands.refuse⟩
  | ask _ onList run ih =>
    exact (perform_keeps onLists (fun _ sane => sane) _ _ onList ih _ _ run).2.1
  | elsewhere user _ elsewhere ih =>
    obtain ⟨blocks, stands⟩ := ih
    exact ⟨_, stands.elsewhere elsewhere user⟩
  | forget _ _ ih =>
    obtain ⟨blocks, stands⟩ := ih
    exact ⟨_, stands.forget _⟩

theorem Reached.wellFormed {behaviour : Behaviour ℓ π κ σ} (onLists : behaviour.OnLists)
    (reached : Reached behaviour page) : page.document.WellFormed :=
  have ⟨_, stands⟩ := reached.standing onLists
  stands.wf

def performEach (behaviour : Behaviour ℓ π κ σ) (depth : Nat) :
    List (Request ℓ π κ) → Run ℓ σ Unit
  | [] => pure ()
  | r :: rest => do
    let _ ← perform behaviour depth r
    performEach behaviour depth rest

theorem Reached.each {behaviour : Behaviour ℓ π κ σ} {depth : Nat} {requests : List (Request ℓ π κ)}
    (onLists : ∀ r ∈ requests, r.OnList) {left : Page ℓ σ} (reached : Reached behaviour page)
    (run : (performEach behaviour depth requests).run page = some ((), left)) :
    Reached behaviour left := by
  induction requests generalizing page with
  | nil =>
    cases run
    exact reached
  | cons r rest ih =>
    rw [performEach, StateT.run_bind] at run
    obtain ⟨⟨answer, mid⟩, first, others⟩ := Option.bind_eq_some_iff.1 run
    exact ih (fun other inside => onLists other (List.mem_cons_of_mem _ inside))
      (reached.ask (onLists r List.mem_cons_self) first) others

def textsDocument : Document := Document.ofHtml "<ul id=\"texts\"></ul>"

def textsBuilder : ListBuilder :=
  { ListBuilder.start with
    model := some ⟨0, some [("text", .string "")], none, []⟩
    element := some "texts"
    source := some (.inlineMarkup "<li>\x7b\x7b text | upper \x7d\x7d</li>") }

def textsPage : Page Unit Unit :=
  (⟨textsDocument, [], ()⟩ : Page Unit Unit).mount (textsBuilder.build textsDocument).toOption

def pushText (text : String) : Request Unit Unit Unit :=
  .call 0 (.push (.object [("text", .string text)]))

def idle : Behaviour Unit Unit Unit Unit := ⟨fun _ _ => .done (),
  fun _ _ => .done true, fun _ _ _ => .done .eq⟩

theorem reached_textsPage (behaviour : Behaviour Unit Unit Unit Unit) :
    Reached behaviour textsPage := by
  have start : Reached behaviour ⟨textsDocument, [], ()⟩ :=
    .start textsDocument () (Document.ofHtml_wellFormed _)
  have bare : (textsBuilder.build textsDocument).toOption.all
      (fun view => (textsDocument.children view.container).isEmpty) := by decide +kernel
  unfold textsPage
  cases built : textsBuilder.build textsDocument with
  | error cause => exact start.refuse
  | ok view =>
    rw [built] at bare
    exact start.mount built (by simpa [Except.toOption] using bare) (by simp [list?])

theorem exists_texts_view : ∃ view, textsBuilder.build textsDocument = .ok view := by
  have holds : (textsBuilder.build textsDocument).toOption.isSome := by decide +kernel
  cases built : textsBuilder.build textsDocument with
  | error cause =>
    rw [built] at holds
    cases holds
  | ok view => exact ⟨view, rfl⟩

theorem not_below_texts {view : ListView} (built : textsBuilder.build textsDocument = .ok view) :
    ¬ textsDocument.Below view.container Document.root := by
  have holds : textsDocument.parent? Document.root = none ∧
      (textsBuilder.build textsDocument).toOption.all (·.container != Document.root) := by
    decide +kernel
  rw [built] at holds
  exact fun below => bne_iff_ne.1 holds.2 (below.eq_of_parent?_none holds.1)

end Page

end LiveList
