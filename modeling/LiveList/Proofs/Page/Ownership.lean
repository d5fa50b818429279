import LiveList.Proofs.Page.Reached
import LiveList.Proofs.View.Tending

namespace LiveList

def Call.Unseen {ℓ π κ : Type} : Call ℓ π κ → Prop
  | .addFilter .. | .subscribe .. => True
  | _ => False

/-- A request that leaves the document to one list: it is asked of that list, or it changes no
document. -/
def Request.LeavesTo {ℓ π κ : Type} (owner : Nat) : Request ℓ π κ → Prop
  | .call list c => list = owner ∨ c.Unseen
  | .unsubscribe .. | .drop _ => True
  | .setInnerHtml .. | .setAttribute .. | .removeElement _ => False

theorem Request.LeavesTo.onList {ℓ π κ : Type} {owner : Nat} {r : Request ℓ π κ}
    (leaves : r.LeavesTo owner) : r.OnList := by
  cases r with
  | call | unsubscribe | drop => trivial
  | setInnerHtml | setAttribute | removeElement => exact leaves

namespace Page

open Document (Plant Layout Contained)

variable {ℓ π κ σ α : Type} {d₀ : Document} {above : NodeId} {old : List Plant} {owner : Nat}
  {page : Page ℓ σ}

def owning (owner : Nat) (d₀ : Document) (above : NodeId) (old : List Plant) : Course ℓ σ where
  sane page := ∃ mounted now, page.list? owner = some mounted ∧
    Tended d₀ above old mounted.view page.document now []
  leads _ _ := True
  refl _ := trivial
  trans _ _ := trivial

theorem owning_change {change : Change α} (tends : change.Tends) (line : α → Option Entry) :
    (owning owner d₀ above old : Course ℓ σ).Steady (Page.change owner change line) := by
  rintro page ⟨mounted, now, there, tended⟩ result left ends
  obtain ⟨other, scene, there', run, rfl⟩ := change_eq_some ends
  obtain rfl : mounted = other := Option.some.inj (there.symm.trans there')
  obtain ⟨now', tended'⟩ := tends tended result scene run
  exact ⟨ends, ⟨mounted.after scene.view (line result), now', list?_modifyList_self there _, tended'⟩,
    trivial, trivial⟩

theorem owning_steps :
    (owning owner d₀ above old : Course ℓ σ).Steps (fun _ _ => True) owner where
  refl _ := trivial
  trans _ _ := trivial
  insert record place := owning_change (Patch.insert_tends record place) _
  insertAll items := owning_change (Patch.insertAll_tends items) _
  remove index := owning_change (Change.remove_tends index) _
  removeAll := owning_change Change.removeAll_tends _
  edit index fields := owning_change (Patch.edit_tends index fields) _
  sort := owning_change Patch.sort_tends _
  updateView := owning_change Patch.updateView_tends _
  addFilter name filter := owning_change (Change.addFilter_tends name filter) _
  showOnly _ _ _ sane _ _ := owning_change (Patch.showOnly_tends _) _ _ sane
  arrange _ _ _ sane := owning_change (Patch.arrange_tends _) _ _ sane

theorem owning_coarse : (owning owner d₀ above old : Course ℓ σ).Coarse := by
  rintro list f view - page ⟨mounted, now, there, tended⟩ _ left ⟨⟩
  refine ⟨rfl, ?_, trivial, trivial⟩
  by_cases same : list = owner
  · subst same
    exact ⟨f mounted, now, list?_modifyList_self there f, (view mounted).symm ▸ tended⟩
  · exact ⟨mounted, now, (list?_modifyList_of_ne same f).trans there, tended⟩

theorem owning_addFilter {list : Nat} (other : list ≠ owner) (name : String)
    (filter : Template.Filter) :
    (owning owner d₀ above old : Course ℓ σ).Steady
      (Page.change list (Change.addFilter name filter) fun _ => some (.registered name)) := by
  rintro page ⟨mounted, now, there, tended⟩ replaced left ends
  obtain ⟨changed, scene, -, run, rfl⟩ := change_eq_some ends
  obtain ⟨-, rfl⟩ := Prod.mk.inj run
  exact ⟨ends, ⟨mounted, now, (list?_modifyList_of_ne other _).trans there, tended⟩, trivial, trivial⟩

theorem owning_answer {callbacks watched : Callbacks (Run ℓ σ) ℓ π κ}
    (kept : Kept (owning owner d₀ above old) (fun _ _ => True) callbacks watched) {list : Nat}
    {call : Call ℓ π κ} (sole : Request.LeavesTo owner (.call list call))
    (sane : (owning owner d₀ above old).sane page) :
    (owning owner d₀ above old).Keeps page (answer callbacks list call) (answer watched list call)
      fun _ _ => True := by
  by_cases isOwner : list = owner
  · subst isOwner
    exact answer_keeps owning_steps kept sane owning_coarse call
  · have unseen := sole.resolve_left isOwner
    cases call with
    | addFilter name filter => exact owning_addFilter isOwner name filter page sane
    | subscribe kinds listener => exact subscribe_keeps owning_coarse sane kinds listener
    | _ => exact unseen.elim

theorem performAudited_keeps {behaviour : Behaviour ℓ π κ σ}
    (leaves : behaviour.Asks (Request.LeavesTo owner)) {check : Page ℓ σ → Prop}
    (checks : ∀ page, (owning owner d₀ above old).sane page → check page) (depth : Nat)
    (r : Request ℓ π κ) (sole : r.LeavesTo owner) (sane : (owning owner d₀ above old).sane page) :
    (owning owner d₀ above old).Keeps page (perform behaviour depth r)
      (performAudited check behaviour depth r) fun _ _ => True := by
  induction depth generalizing page r with
  | zero => rintro answer left ⟨⟩
  | succ depth ih =>
    have kept : Kept (owning owner d₀ above old) (fun _ _ => True) (behaviour.callbacks _)
        (behaviour.callbacks (performAudited check behaviour depth)) :=
      leaves.kept (fun r sole page sane => ih r sole sane) (fun _ _ sane => ⟨sane, trivial⟩)
        fun _ _ _ _ _ _ => trivial
    refine (serve_keeps owning_coarse r sole.onList ?_ sane).confirmed checks
    rintro list call rfl page sane
    exact owning_answer (kept.audited checks) sole sane

/-- A list built for any container, empty or not, and asked for anything while the document is left
to it, has changed only the content of that container wherever a callback is called, after every
answer, at any depth, and in the end. Elsewhere in the document nodes may stand below themselves; a
walk down from a root that does would have no end. -/
theorem runAction_contained {behaviour : Behaviour ℓ π κ σ} {page left : Page ℓ σ}
    (consistent : page.document.Consistent) (untangled : ¬ page.document.Tangled Document.root)
    {builder : ListBuilder} {view : ListView}
    (built : builder.build page.document = .ok view)
    (leaves : behaviour.Asks (Request.LeavesTo page.lists.length)) {action : Action ℓ π κ σ α}
    (sole : action.Asks (Request.LeavesTo page.lists.length)) {depth : Nat} {a : α}
    (run : (runAction (perform behaviour depth) action).run (page.mount (some view)) =
      some (a, left)) :
    (runAction (performAudited (fun later => Contained page.document view.container later.document)
      behaviour depth) action).run (page.mount (some view)) = some (a, left) ∧
      Contained page.document view.container left.document := by
  obtain ⟨-, nodes, -, attached⟩ := ListBuilder.build_ok built
  obtain ⟨old, start⟩ := Layout.of_attached consistent untangled attached
  have checks : ∀ later : Page ℓ σ,
      (owning page.lists.length page.document view.container old).sane later →
      Contained page.document view.container later.document :=
    fun later ⟨_, _, _, tended⟩ => start.contained tended.layout
  have sane : (owning page.lists.length page.document view.container old).sane
      (page.mount (some view)) := by
    refine ⟨⟨view, Event.Hub.empty, [], true, 0⟩, old, ?_, rfl, start, ?_⟩
    · rw [list?_mount, if_pos rfl, Option.map_some]
    · rw [nodes]
      exact List.nil_subperm
  obtain ⟨same, sane', -⟩ := runAction_keeps
    (fun r sole page sane => performAudited_keeps leaves checks depth r sole sane)
    (fun _ _ sane => ⟨sane, trivial⟩) action sole sane a left run
  exact ⟨same, checks left sane'⟩

def crowdedPage : Page Unit Unit :=
  have read := Document.ofHtml "<p>a</p><ul id=\"texts\">b<i>c</i></ul>"
  ⟨((((read.createElement "b").1.createElement "u").1.appendChild 7 8).appendChild 8 7), [], ()⟩

def redrawing : Behaviour Unit Unit Unit Unit where
  listen _ _ := .ask (.call 0 .updateView) fun _ => .done ()
  test _ _ := .done true
  compare _ _ _ := .done .eq

def pushTwice : Action Unit Unit Unit Unit Unit :=
  .ask (pushText "a") fun _ => .ask (.call 0 (.subscribe [.push] ())) fun _ =>
    .ask (pushText "b") fun _ => .ask (.call 0 (.remove 0)) fun _ => .done ()

theorem crowdedPage_runs :
    (textsBuilder.build crowdedPage.document).toOption.any fun view =>
      ((runAction (perform redrawing 2) pushTwice).run (crowdedPage.mount (some view))).isSome := by
  decide +kernel

theorem runAction_contained_crowded : ∃ view left,
    crowdedPage.document.Consistent ∧ ¬ crowdedPage.document.Tangled Document.root ∧
    textsBuilder.build crowdedPage.document = .ok view ∧
    redrawing.Asks (Request.LeavesTo crowdedPage.lists.length) ∧
    Event.Script.Asks (Request.LeavesTo crowdedPage.lists.length) pushTwice ∧
    (runAction (perform redrawing 2) pushTwice).run (crowdedPage.mount (some view)) =
      some ((), left) ∧
    (runAction (performAudited (fun later =>
      Contained crowdedPage.document view.container later.document) redrawing 2) pushTwice).run
      (crowdedPage.mount (some view)) = some ((), left) ∧
    Contained crowdedPage.document view.container left.document := by
  have consistent : crowdedPage.document.Consistent :=
    ((((Document.ofHtml_wellFormed _).coherent.toConsistent.create _).create _).appendChild 7
      8).appendChild 8 7
  have untangled : ¬ crowdedPage.document.Tangled Document.root := by
    rintro ⟨parent, up, -⟩
    have alone : crowdedPage.document.parent? Document.root = none := by decide +kernel
    rw [alone] at up
    cases up
  have leaves : redrawing.Asks (Request.LeavesTo crowdedPage.lists.length) :=
    ⟨fun _ _ => ⟨.inl rfl, fun _ => trivial⟩, fun _ _ => trivial, fun _ _ _ => trivial⟩
  have sole : Event.Script.Asks (Request.LeavesTo crowdedPage.lists.length) pushTwice :=
    ⟨.inl rfl, fun _ => ⟨.inl rfl, fun _ => ⟨.inl rfl, fun _ => ⟨.inl rfl, fun _ => trivial⟩⟩⟩⟩
  obtain ⟨view, isView, runs⟩ := (Option.any_eq_true _ _).1 crowdedPage_runs
  obtain ⟨⟨⟨⟩, left⟩, run⟩ := Option.isSome_iff_exists.1 runs
  have built : textsBuilder.build crowdedPage.document = .ok view := toOption_eq_some.1 isView
  exact ⟨view, left, consistent, untangled, built, leaves, sole, run,
    runAction_contained consistent untangled built leaves sole run⟩

end Page

end LiveList
