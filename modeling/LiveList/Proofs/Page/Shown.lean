import LiveList.Proofs.Page.Reached

namespace LiveList

open Document (Plant)
open Document.Plant (ids trees)
open Markup (Tree)

namespace ListView

def visible (view : ListView) : List (Nat × Record) :=
  view.collection.records.filter fun entry => OrderedMap.contains view.nodes entry.1

/-- A text is the markup of a record: the stored JSON is rendered into a document, the index is set
on each element among the roots, and the markup of the roots is put together. -/
def Renders (view : ListView) (scratch : Document) (index : Nat) (record : Record) (markup : String) :
    Prop :=
  ∃ d roots, view.template.renderInto view.setting record.json scratch = (d, .ok roots) ∧
    markup = String.join (roots.map (stamp d roots index).outerHtml)

theorem renders_of_draw {view : ListView} {index : Nat} {record : Record} {forest : List Tree}
    (carries : record.Carries index) (drawn : view.draw record = .ok forest) {scratch : Document}
    (wf : scratch.WellFormed) : view.Renders scratch index record (Tree.printForest forest) := by
  obtain ⟨d', plants, rendered, grows, same⟩ := renderRecord_ok wf.grounded drawn
  rw [renderRecord] at rendered
  split at rendered
  · simp at rendered
  case h_2 d roots run =>
    simp only [carries.given, Prod.mk.injEq, Except.ok.injEq] at rendered
    obtain ⟨rfl, rfl⟩ := rendered
    exact ⟨d, _, run, by rw [grows.join_outerHtml wf.grounded, same]⟩

end ListView

variable {ℓ : Type} {quiet : Prop} {mounted : Mounted ℓ} {d : Document}
  {blocks : List (Nat × List Plant)}

theorem Stands.map_fst_visible {view : ListView} (stands : Stands view d blocks)
    (ordered : (indicesOf blocks).Sublist view.collection.indices) :
    view.visible.map Prod.fst = indicesOf blocks := by
  have keys : view.visible.map Prod.fst =
      view.collection.indices.filter (OrderedMap.contains view.nodes) := by
    rw [ListView.visible, Collection.indices, OrderedMap.keys, List.filter_map]
    rfl
  have members : ∀ index, index ∈ view.visible.map Prod.fst ↔ index ∈ indicesOf blocks :=
    fun index => by
      rw [keys, List.mem_filter, OrderedMap.contains_iff, stands.keys_nodes.mem_iff]
      exact ⟨And.right, fun shown => ⟨stands.known index shown, shown⟩⟩
  have part : (view.visible.map Prod.fst).Sublist view.collection.indices := keys ▸ List.filter_sublist
  exact (sublist_of_subset stands.sound.nodup part ordered fun index => (members index).1).antisymm
    (sublist_of_subset stands.sound.nodup ordered part fun index => (members index).2)

theorem Stands.visible_blocks {view : ListView} (stands : Stands view d blocks)
    (ordered : (indicesOf blocks).Sublist view.collection.indices) (faithful : Faithful view blocks) :
    List.Forall₂ (fun entry block => entry.2.Carries entry.1 ∧
      view.draw entry.2 = .ok (trees block.2)) view.visible blocks := by
  have keys := stands.map_fst_visible ordered
  have aligned : List.Forall₂ (fun entry block => entry.1 = block.1) view.visible blocks := by
    have equal : List.Forall₂ (· = ·) (view.visible.map Prod.fst) (blocks.map Prod.fst) := by
      rw [List.forall₂_eq_eq_eq]
      exact keys
    exact List.forall₂_map_left_iff.1 (List.forall₂_map_right_iff.1 equal)
  rw [List.forall₂_iff_zip] at aligned ⊢
  refine ⟨aligned.1, fun {entry block} inside => ?_⟩
  obtain ⟨isEntry, isBlock⟩ := List.of_mem_zip inside
  have same : entry.1 = block.1 := aligned.2 inside
  obtain ⟨record, held, drawn⟩ := faithful block.1 block.2 isBlock
  have here := stands.sound.get?_iff.2 (List.mem_filter.1 isEntry).1
  rw [← same, here, Option.some.injEq] at held
  exact ⟨stands.sound.carried _ _ (List.mem_filter.1 isEntry).1, held ▸ drawn⟩

theorem printForest_plantsOf (blocks : List (Nat × List Plant)) :
    Tree.printForest (trees (plantsOf blocks)) =
      String.join (blocks.map fun block => Tree.printForest (trees block.2)) := by
  induction blocks with
  | nil => simp [trees, Tree.printForest, Tree.forestMarkup]
  | cons block rest ih =>
    rw [List.map_cons, String.join_cons, ← ih]
    simp [Tree.printForest]

theorem Stands.html_eq {view : ListView} (stands : Stands view d blocks)
    (notRaw : d.holdsRawText view.container = false) :
    view.html d = String.join (blocks.map fun block => Tree.printForest (trees block.2)) := by
  rw [ListView.html, Document.innerHtml_of_holds stands.holds stands.nodup stands.children_container,
    notRaw, ← Tree.printForest, printForest_plantsOf]

def ListView.drawnAt (view : ListView) (index : Nat) : List Tree :=
  match view.collection.get? index with
  | none => []
  | some record => (view.draw record).toOption.getD []

theorem Faithful.map_trees {view : ListView} (faithful : Faithful view blocks) :
    blocks.map (fun block => trees block.2) = (indicesOf blocks).map view.drawnAt := by
  rw [indicesOf, List.map_map]
  refine List.map_congr_left fun block inside => ?_
  obtain ⟨record, held, drawn⟩ := faithful block.1 block.2 inside
  simp [ListView.drawnAt, held, drawn, Except.toOption]

theorem ListView.exists_drawAll {κ : Type} {view : ListView} {items : List (κ × Record)}
    (each : ∀ item ∈ items, ∃ forest, view.draw item.2 = .ok forest) :
    ∃ forests, view.drawAll items = .ok forests := by
  induction items with
  | nil => exact ⟨[], rfl⟩
  | cons item rest ih =>
    obtain ⟨forest, first⟩ := each item List.mem_cons_self
    obtain ⟨forests, others⟩ := ih fun item inside => each item (List.mem_cons_of_mem _ inside)
    exact ⟨(item.1, forest) :: forests, by simp [drawAll, first, others]⟩

theorem Patch.updateView_shown {view : ListView} (stands : Stands view d blocks) (wf : d.WellFormed)
    (faithful : Faithful view blocks) (all : indicesOf blocks = view.collection.indices) :
    ∃ d' new, updateView.on ⟨view, d⟩ = (.ok (), ⟨{ view with nodes := rootsOf new }, d'⟩) ∧
      Follows view d blocks { view with nodes := rootsOf new } d' new [] ∧
      new.map (fun block => trees block.2) = blocks.map fun block => trees block.2 := by
  have drawable : ∀ item ∈ view.collection.listed view.collection.indices,
      ∃ forest, view.draw item.2 = .ok forest := fun item inside => by
    have held := Collection.get?_of_mem_listed inside
    obtain ⟨block, shown, same⟩ := List.mem_map.1 (all ▸ Collection.mem_indices.2 ⟨_, held⟩ :
      item.1 ∈ indicesOf blocks)
    obtain ⟨record, held', drawn⟩ := faithful block.1 block.2 shown
    rw [same, held, Option.some.injEq] at held'
    exact ⟨_, held' ▸ drawn⟩
  obtain ⟨forests, drawn⟩ := ListView.exists_drawAll drawable
  obtain ⟨d', new, run, follows, shown, faithful'⟩ :=
    rerender_follows stands wf stands.sound.nodup (fun _ inside => inside) drawn
  rw [on_updateView]
  exact ⟨d', new, run, follows, by rw [faithful'.map_trees, faithful.map_trees, shown, all]⟩

namespace Page

variable {π κ σ : Type}

theorem perform_updateView {page : Page ℓ σ} {list : Nat} (held : page.held? list = some mounted)
    {result : Except Error Unit} {left : Scene}
    (run : Patch.updateView.on ⟨mounted.view, page.document⟩ = (result, left))
    (behaviour : Behaviour ℓ π κ σ) (depth : Nat) :
    ∃ page' mounted', (perform behaviour (depth + 1) (.call list .updateView)).run page =
        some (some result, page') ∧ page'.list? list = some mounted' ∧
      mounted'.view = left.view ∧ page'.document = left.document := by
  have there := list?_of_held? held
  have began : (page.modifyList list fun m => { m with running := m.running + 1 }).list? list =
      some { mounted with running := mounted.running + 1 } := list?_modifyList_self there _
  have updated := patch_run began run fun _ => some .updated
  have answered : (answer (behaviour.callbacks (perform behaviour depth)) list .updateView).run _ =
      some (result, _) := updated
  exact ⟨_, { mounted.after left.view (result.toOption.bind fun _ => some .updated) with
    running := mounted.running + 1 - 1 }, serve_call_some held answered,
    list?_modifyList_self (list?_modifyList_self began _) _, rfl, rfl⟩

/-- However a list came to its state, its container shows the records in display order, each as the
template gives it now for its stored JSON. If all records are shown, updating the view succeeds and
changes nothing. -/
theorem html_eq_renderings {behaviour : Behaviour ℓ π κ σ} (onLists : behaviour.OnLists)
    (pure : behaviour.PurePredicates) {page : Page ℓ σ} (reached : Reached behaviour page) {list : Nat}
    (there : page.list? list = some mounted) (filtersFirst : FiltersFirst mounted.journal)
    (notRaw : page.document.holdsRawText mounted.view.container = false) :
    (∀ scratch : Document, scratch.WellFormed → ∃ pieces,
      List.Forall₂ (fun entry piece => mounted.view.Renders scratch entry.1 entry.2 piece)
        mounted.view.visible pieces ∧
      mounted.view.html page.document = String.join pieces) ∧
    (page.held? list = some mounted → mounted.view.visible = mounted.view.collection.records →
      ∀ depth, ∃ left mounted', (perform behaviour (depth + 1) (.call list .updateView)).run page =
          some (some (.ok ()), left) ∧ left.list? list = some mounted' ∧
        mounted'.view.html left.document = mounted.view.html page.document) := by
  obtain ⟨blocks, standing⟩ := reached.standing onLists
  obtain ⟨stands, tracked, calm⟩ := standing.lists list mounted there
  have faithful := tracked.faithful filtersFirst
  have ordered := tracked.ordered (calm pure).inOrder
  refine ⟨fun scratch wf => ⟨(blocks list).map fun block => Tree.printForest (trees block.2), ?_,
    stands.html_eq notRaw⟩, fun held all depth => ?_⟩
  · rw [List.forall₂_map_right_iff]
    exact (stands.visible_blocks ordered faithful).imp fun entry block ⟨carries, drawn⟩ =>
      ListView.renders_of_draw carries drawn wf
  · have shown : indicesOf (blocks list) = mounted.view.collection.indices := by
      rw [← stands.map_fst_visible ordered, all]
      rfl
    obtain ⟨d', new, run, follows, same⟩ :=
      Patch.updateView_shown stands standing.wf faithful shown
    obtain ⟨left, mounted', done, there', view, document⟩ := perform_updateView held run behaviour depth
    -- Drawing again leaves the container its tag, so its texts are still written out escaped.
    have notRaw' : d'.holdsRawText mounted.view.container = false := by
      obtain ⟨node, before, held⟩ := follows.layout.parent
      have tags : d'.tag? mounted.view.container = page.document.tag? mounted.view.container := by
        simp [Document.tag?, Document.kind?, before, held, Document.Node.withChildren]
      rw [Document.holdsRawText, tags]
      exact notRaw
    refine ⟨left, mounted', done, there', ?_⟩
    rw [view, document, follows.stands.html_eq notRaw', stands.html_eq notRaw]
    have pieces := congrArg (List.map Tree.printForest) same
    rw [List.map_map, List.map_map] at pieces
    exact congrArg String.join pieces

theorem texts_shown :
    ((performEach idle 1 [pushText "a", pushText "<b>", pushText "c", .call 0 (.remove 0)]).run
      textsPage).any fun (_, left) => (left.list? 0).any fun mounted =>
        mounted.journal == [.removed 0, .inserted [2], .inserted [1], .inserted [0]] &&
          !left.document.holdsRawText mounted.view.container &&
          mounted.view.html left.document ==
            "<li data-id=\"1\">&lt;B&gt;</li><li data-id=\"2\">C</li>" := by
  decide +kernel

theorem html_eq_renderings_texts : ∃ (left : Page Unit Unit) (mounted : Mounted Unit),
    Reached idle left ∧ left.list? 0 = some mounted ∧ FiltersFirst mounted.journal ∧
    mounted.view.html left.document =
      "<li data-id=\"1\">&lt;B&gt;</li><li data-id=\"2\">C</li>" ∧
    ∃ pieces, List.Forall₂ (fun entry piece =>
        mounted.view.Renders Document.empty entry.1 entry.2 piece) mounted.view.visible pieces ∧
      mounted.view.html left.document = String.join pieces := by
  obtain ⟨⟨_, left⟩, run, shown⟩ := (Option.any_eq_true _ _).1 texts_shown
  obtain ⟨mounted, there, holds⟩ := (Option.any_eq_true _ _).1 shown
  simp only [Bool.and_eq_true, beq_iff_eq, Bool.not_eq_true'] at holds
  obtain ⟨⟨journal, notRaw⟩, html⟩ := holds
  have filtersFirst : FiltersFirst mounted.journal := by
    rw [journal]
    trivial
  have onList : ∀ r ∈ [pushText "a", pushText "<b>", pushText "c", .call 0 (.remove 0)],
      Request.OnList r := by
    simp [pushText, Request.OnList]
  have reached := (reached_textsPage idle).each onList run
  have onLists : idle.OnLists := ⟨fun _ _ => trivial, fun _ _ => trivial, fun _ _ _ => trivial⟩
  have shown := html_eq_renderings onLists (fun _ _ => trivial) reached there filtersFirst notRaw
  exact ⟨left, mounted, reached, there, filtersFirst, html,
    shown.1 Document.empty Document.empty_wellFormed⟩

end Page

end LiveList
