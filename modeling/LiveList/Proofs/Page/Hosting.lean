import LiveList.Proofs.Page.Deed
import LiveList.Proofs.Page.Interleaving

namespace LiveList

open Document (Plant)

namespace Page

variable {ℓ π κ σ : Type} {page left : Page ℓ σ} {list : Nat} {mounted : Mounted ℓ}

/-- Each list arranges its container and keeps its records under their indices, and the containers
are apart. -/
structure Hosts (page : Page ℓ σ) : Prop where
  sound : ∀ list mounted, page.list? list = some mounted → mounted.view.collection.Sound
  arranged : ∀ list mounted, page.list? list = some mounted →
    ∃ items, mounted.view.Arranges page.document items
  apart : ∀ first second mounted mounted', first ≠ second → page.list? first = some mounted →
    page.list? second = some mounted' →
    page.document.Apart mounted.view.container mounted'.view.container

namespace Hosts

theorem of_views (hosts : Hosts page) (document : left.document = page.document)
    (views : ∀ list mounted', left.list? list = some mounted' →
      ∃ mounted, page.list? list = some mounted ∧ mounted'.view = mounted.view) : Hosts left where
  sound list mounted' there' := by
    obtain ⟨mounted, there, same⟩ := views list mounted' there'
    exact same ▸ hosts.sound list mounted there
  arranged list mounted' there' := by
    obtain ⟨mounted, there, same⟩ := views list mounted' there'
    rw [same, document]
    exact hosts.arranged list mounted there
  apart first second mounted mounted' differ there there' := by
    obtain ⟨was, there, same⟩ := views first mounted there
    obtain ⟨was', there', same'⟩ := views second mounted' there'
    rw [same, same', document]
    exact hosts.apart first second was was' differ there there'

theorem modifyList (hosts : Hosts page) {f : Mounted ℓ → Mounted ℓ}
    (view : ∀ mounted, (f mounted).view = mounted.view) : Hosts (page.modifyList list f) := by
  refine hosts.of_views rfl fun other mounted' there => ?_
  rcases list?_modifyList_eq_some there with ⟨mounted, was, rfl, rfl⟩ | ⟨-, was⟩
  · exact ⟨mounted, was, view mounted⟩
  · exact ⟨mounted', was, rfl⟩

theorem struck (hosts : Hosts page) (there : page.list? list = some mounted) {stroke : Stroke}
    {result : stroke.Result} {scene : Scene}
    (run : stroke.change.on ⟨mounted.view, page.document⟩ = (result, scene)) (line : Option Entry) :
    Hosts ({ page with document := scene.document }.modifyList list (·.after scene.view line)) := by
  obtain ⟨items, start⟩ := hosts.arranged list mounted there
  obtain ⟨left, later, run', arranged, -⟩ := stroke.sketched start
  cases run.symm.trans run'
  have container : scene.view.container = mounted.view.container := arranged.container
  -- Only the list that was struck has another view.
  have found (other : Nat) (mounted' : Mounted ℓ)
      (there' : ({ page with document := scene.document }.modifyList list
        (·.after scene.view line)).list? other = some mounted') :
      other = list ∧ mounted'.view = scene.view ∨ other ≠ list ∧ page.list? other = some mounted' := by
    rcases list?_modifyList_eq_some there' with ⟨_, -, same, rfl⟩ | elsewhere
    · exact .inl ⟨same, rfl⟩
    · exact .inr elsewhere
  have side {other : Nat} {neighbour : Mounted ℓ} (differ : other ≠ list)
      (there' : page.list? other = some neighbour) :
      page.document.Apart mounted.view.container neighbour.view.container :=
    hosts.apart list other mounted neighbour (Ne.symm differ) there there'
  refine ⟨fun other mounted' there' => ?_, fun other mounted' there' => ?_,
    fun first second mounted₁ mounted₂ differ there₁ there₂ => ?_⟩
  · rcases found other mounted' there' with ⟨-, same⟩ | ⟨-, was⟩
    · rw [same]
      obtain ⟨-, ⟨-, -, unchanged⟩ | ⟨entry, -, deed⟩⟩ := stroke.does run
      · exact unchanged ▸ hosts.sound list mounted there
      · exact deed.sound (hosts.sound list mounted there)
    · exact hosts.sound other mounted' was
  · rcases found other mounted' there' with ⟨-, same⟩ | ⟨differ, was⟩
    · rw [same]
      exact ⟨later, .of_arranged arranged⟩
    · obtain ⟨sides, beside⟩ := hosts.arranged other mounted' was
      exact ⟨sides, rfl, start.layout.beside arranged.layout beside.layout (side differ was),
        beside.remembered⟩
  · have aparts {other : Nat} {neighbour : Mounted ℓ} (other_differ : other ≠ list)
        (was : page.list? other = some neighbour) :
        scene.document.Apart scene.view.container neighbour.view.container := by
      obtain ⟨sides, beside⟩ := hosts.arranged other neighbour was
      rw [container]
      exact start.layout.apart_beside arranged.layout beside.layout (side other_differ was)
    rcases found first mounted₁ there₁ with ⟨rfl, same₁⟩ | ⟨differ₁, was₁⟩ <;>
      rcases found second mounted₂ there₂ with ⟨rfl, same₂⟩ | ⟨differ₂, was₂⟩
    · exact absurd rfl differ
    · rw [same₁]
      exact aparts differ₂ was₂
    · rw [same₂]
      exact (aparts differ₁ was₁).symm
    · have same {other : Nat} {neighbour : Mounted ℓ} (other_differ : other ≠ list)
          (was : page.list? other = some neighbour) :
          scene.document.subtree neighbour.view.container =
            page.document.subtree neighbour.view.container := by
        obtain ⟨sides, beside⟩ := hosts.arranged other neighbour was
        rw [(start.layout.beside arranged.layout beside.layout (side other_differ was)).subtree_eq,
          beside.layout.subtree_eq]
      change ∀ id ∈ scene.document.subtree _, id ∉ scene.document.subtree _
      rw [same differ₁ was₁, same differ₂ was₂]
      exact hosts.apart first second mounted₁ mounted₂ differ was₁ was₂

theorem mount (hosts : Hosts page) (consistent : page.document.Consistent) {builder : ListBuilder}
    {view : ListView} (built : builder.build page.document = .ok view)
    (free : ¬ page.document.Below view.container Document.root)
    (apart : ∀ list mounted, page.list? list = some mounted →
      page.document.Apart mounted.view.container view.container) :
    Hosts (page.mount (some view)) := by
  refine ⟨fun list mounted there => ?_, fun list mounted there => ?_,
    fun first second mounted₁ mounted₂ differ there₁ there₂ => ?_⟩
  · rcases list?_mount_eq_some there with ⟨-, rfl⟩ | ⟨-, was⟩
    · rw [(ListBuilder.build_ok built).1]
      exact Collection.empty_sound
    · exact hosts.sound list mounted was
  · rcases list?_mount_eq_some there with ⟨-, rfl⟩ | ⟨-, was⟩
    · exact ListBuilder.exists_arranges consistent free built
    · exact hosts.arranged list mounted was
  · rcases list?_mount_eq_some there₁ with ⟨rfl, rfl⟩ | ⟨differ₁, was₁⟩ <;>
      rcases list?_mount_eq_some there₂ with ⟨rfl, rfl⟩ | ⟨differ₂, was₂⟩
    · exact absurd rfl differ
    · exact (apart second mounted₂ was₂).symm
    · exact apart first mounted₁ was₁
    · exact hosts.apart first second mounted₁ mounted₂ differ was₁ was₂

theorem elsewhere (hosts : Hosts page) {d : Document}
    (grounded : page.document.Grounded → d.Grounded)
    (same : ∀ list mounted, page.list? list = some mounted →
      ∀ id ∈ page.document.subtree mounted.view.container, d.node? id = page.document.node? id)
    (user : σ) : Hosts { page with document := d, user } := by
  have arranges {list : Nat} {mounted : Mounted ℓ} {items : Items Plant}
      (there : page.list? list = some mounted) (arranged : mounted.view.Arranges page.document items) :
      mounted.view.Arranges d items :=
    ListView.Arranges.congr arranged (grounded arranged.layout.grounded) (same list mounted there)
  refine ⟨hosts.sound, fun list mounted there => ?_,
    fun first second mounted₁ mounted₂ differ there₁ there₂ => ?_⟩
  · obtain ⟨items, arranged⟩ := hosts.arranged list mounted there
    exact ⟨items, arranges there arranged⟩
  · obtain ⟨items₁, arranged₁⟩ := hosts.arranged first mounted₁ there₁
    obtain ⟨items₂, arranged₂⟩ := hosts.arranged second mounted₂ there₂
    have subtree {list : Nat} {mounted : Mounted ℓ} {items : Items Plant}
        (there : page.list? list = some mounted)
        (arranged : mounted.view.Arranges page.document items) :
        d.subtree mounted.view.container = page.document.subtree mounted.view.container := by
      rw [(arranges there arranged).layout.subtree_eq, arranged.layout.subtree_eq]
    change ∀ id ∈ d.subtree _, id ∉ d.subtree _
    rw [subtree there₁ arranged₁, subtree there₂ arranged₂]
    exact hosts.apart first second mounted₁ mounted₂ differ there₁ there₂

end Hosts

def hosting : Course ℓ σ where
  sane := Hosts
  leads _ _ := True
  refl _ := trivial
  trans _ _ := trivial

theorem hosting_coarse : (hosting : Course ℓ σ).Coarse := by
  rintro list f view - page hosts _ left ⟨⟩
  exact ⟨rfl, hosts.modifyList view, trivial, trivial⟩

theorem hosting_change (stroke : Stroke) (line : stroke.Result → Option Entry) :
    (hosting : Course ℓ σ).Steady (Page.change list stroke.change line) := by
  intro page hosts result left ends
  obtain ⟨mounted, scene, there, run, rfl⟩ := change_eq_some ends
  exact ⟨ends, Hosts.struck hosts there run _, trivial, trivial⟩

theorem hosting_steps : (hosting : Course ℓ σ).Steps (fun _ _ => True) list where
  refl _ := trivial
  trans _ _ := trivial
  insert record place := hosting_change (.insert record place) _
  insertAll items := hosting_change (.insertAll items) _
  remove index := hosting_change (.remove index) _
  removeAll := hosting_change .removeAll _
  edit index fields := hosting_change (.edit index fields) _
  sort := hosting_change .sort _
  updateView := hosting_change .updateView _
  addFilter name filter := hosting_change (.addFilter name filter) _
  showOnly _ _ _ sane _ _ := hosting_change (.showOnly 0 _) _ _ sane
  arrange _ _ _ sane := hosting_change (.arrange _) _ _ sane

variable {behaviour : Behaviour ℓ π κ σ}

theorem perform_hosts (onLists : behaviour.OnLists) (depth : Nat) (r : Request ℓ π κ)
    (onList : r.OnList) (hosts : Hosts page) :
    hosting.Keeps page (perform behaviour depth r) (perform behaviour depth r) fun _ _ => True := by
  induction depth generalizing page r with
  | zero => rintro answer left ⟨⟩
  | succ depth ih =>
    have kept : Kept hosting (fun _ _ => True) (behaviour.callbacks (perform behaviour depth))
        (behaviour.callbacks (perform behaviour depth)) :=
      onLists.asks.kept (fun r onList page hosts => ih r onList hosts)
        (fun page user hosts => ⟨Hosts.of_views hosts rfl fun _ mounted there => ⟨mounted, there, rfl⟩,
          trivial⟩) fun _ _ _ _ _ _ => trivial
    exact serve_keeps hosting_coarse r onList (fun _ call _ page hosts =>
      answer_keeps hosting_steps kept hosts hosting_coarse call) hosts

/-- A list is built for a container that is apart from all others, whatever it holds; lists are asked
for something; the document changes where no list is; or a list that no longer exists is forgotten. -/
inductive Attained (behaviour : Behaviour ℓ π κ σ) : Page ℓ σ → Prop
  | start (d : Document) (user : σ) : Attained behaviour ⟨d, [], user⟩
  | mount {page : Page ℓ σ} {builder : ListBuilder} {view : ListView} : Attained behaviour page →
      page.document.Consistent → builder.build page.document = .ok view →
      ¬ page.document.Below view.container Document.root →
      (∀ list mounted, page.list? list = some mounted →
        page.document.Apart mounted.view.container view.container) →
      Attained behaviour (page.mount (some view))
  | refuse {page : Page ℓ σ} : Attained behaviour page → Attained behaviour (page.mount none)
  | ask {page left : Page ℓ σ} {depth : Nat} {r : Request ℓ π κ} {answer : r.Answer} :
      Attained behaviour page → r.OnList →
      (perform behaviour depth r).run page = some (answer, left) → Attained behaviour left
  | elsewhere {page : Page ℓ σ} {d : Document} (user : σ) : Attained behaviour page →
      (page.document.Grounded → d.Grounded) →
      (∀ list mounted, page.list? list = some mounted →
        ∀ id ∈ page.document.subtree mounted.view.container, d.node? id = page.document.node? id) →
      Attained behaviour { page with document := d, user }
  | forget {page : Page ℓ σ} {list : Nat} : Attained behaviour page → page.alive list = false →
      Attained behaviour (page.forget list)

theorem Attained.hosts (onLists : behaviour.OnLists) (attained : Attained behaviour page) :
    Hosts page := by
  induction attained with
  | start d user => exact ⟨by simp [list?], by simp [list?], by simp [list?]⟩
  | mount _ consistent built free apart ih => exact ih.mount consistent built free apart
  | refuse _ ih =>
    exact ih.of_views rfl fun list mounted there => ⟨mounted, list?_of_refuse there, rfl⟩
  | ask _ onList run ih => exact (perform_hosts onLists _ _ onList ih _ _ run).2.1
  | elsewhere user _ grounded same ih => exact ih.elsewhere grounded same user
  | forget _ _ ih =>
    exact ih.of_views rfl fun list mounted there => ⟨mounted, list?_of_forget there, rfl⟩

theorem attained_textsPage (behaviour : Behaviour Unit Unit Unit Unit) :
    Attained behaviour textsPage := by
  have start : Attained behaviour ⟨textsDocument, [], ()⟩ := .start textsDocument ()
  unfold textsPage
  cases built : textsBuilder.build textsDocument with
  | error cause => exact start.refuse
  | ok view =>
    exact start.mount (Document.ofHtml_wellFormed _).coherent.toConsistent built (not_below_texts built)
      (by simp [list?])

end Page

end LiveList
