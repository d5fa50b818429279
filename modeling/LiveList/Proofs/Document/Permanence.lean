import LiveList.Proofs.Document.Containment
import LiveList.Proofs.Document.Locality

/-!
# The root of a document

Removing spares the root itself, but attaching does not: a root that was moved below another node is
freed with that node, and the next node that is created takes its slot. Main statement: in a run from
the empty document the root is in its place after every step if and only if no call attaches it, and
then no edit of the run frees its slot or hands it out.
-/

namespace LiveList.Document

open Markup (Tree)

def Kind.tag? : Kind → Option String
  | .element tag _ => some tag
  | _ => none

def Harmless (f : Node → Node) : Prop :=
  ∀ node, (f node).kind.tag? = node.kind.tag? ∧
    ∀ parent, (f node).parent = some parent → node.parent = some parent

/-- The second document comes from the first by primitive edits that do not free the slot of the root,
do not hand it out, and do not harm the node in it. -/
inductive SparesRoot (d : Document) : Document → Prop where
  | refl : SparesRoot d d
  | create {d' : Document} (kind : Kind) :
    SparesRoot d d' → (d'.create kind).2 ≠ root → SparesRoot d (d'.create kind).1
  | modify {d' : Document} (id : NodeId) (f : Node → Node) :
    SparesRoot d d' → (id = root → Harmless f) → SparesRoot d (d'.modify id f)
  | release {d' : Document} (id : NodeId) :
    SparesRoot d d' → id ≠ root → SparesRoot d (d'.release id)

/-- The root is live, alone and no element, and every other live element is one. -/
structure RootStays (d : Document) : Prop where
  contains : d.contains root
  tag? : d.tag? root = some rootTag
  parent? : d.parent? root = none
  not_free : root ∉ d.free
  isElement_root : d.isElement root = false
  isElement_iff : ∀ id, id ≠ root →
    (d.isElement id ↔ ∃ tag attributes, d.kind? id = some (.element tag attributes))

namespace Operation

def NeverMoved (d : Document) : List Operation → Prop
  | [] => True
  | operation :: rest =>
    (operation.attached? d).map Prod.snd ≠ some root ∧ NeverMoved (operation.apply d) rest

instance decidableNeverMoved : ∀ d operations, Decidable (NeverMoved d operations)
  | _, [] => .isTrue trivial
  | d, operation :: rest =>
    have := decidableNeverMoved (operation.apply d) rest
    inferInstanceAs (Decidable (_ ∧ _))

def created (d : Document) : Operation → List NodeId
  | .createElement tag => [(d.createElement tag).2]
  | .createText content => [(d.createText content).2]
  | .createComment body => [(d.createComment body).2]
  | .parseFragment markup => (d.parseFragment markup).2
  | _ => []

end Operation

variable {d d' d'' : Document} {id parent child reference : NodeId}

/-! ## What spared documents agree on -/

theorem tag?_eq (d : Document) (id : NodeId) :
    d.tag? id = (d.node? id).bind fun node => node.kind.tag? := by
  rw [tag?, kind?]
  cases d.node? id with
  | none => rfl
  | some node => cases node with | mk kind _ _ => cases kind <;> rfl

theorem node?_create_of_ne {kind : Kind} (differ : (d.create kind).2 ≠ id) :
    (d.create kind).1.node? id = d.node? id := by
  revert differ
  unfold create
  cases d.free with
  | nil =>
    intro differ
    rw [node?, node?, Array.getElem?_push, if_neg (Ne.symm differ)]
  | cons slot free =>
    intro differ
    rw [node?, node?, Array.getElem?_setIfInBounds_ne differ]

namespace SparesRoot

theorem trans (first : SparesRoot d d') (second : SparesRoot d' d'') : SparesRoot d d'' := by
  induction second with
  | refl => exact first
  | create kind _ fresh ih => exact .create kind ih fresh
  | modify id f _ harmless ih => exact .modify id f ih harmless
  | release id _ notRoot ih => exact .release id ih notRoot

theorem node?_root (spares : SparesRoot d d') :
    ∃ f, Harmless f ∧ d'.node? root = (d.node? root).map f := by
  induction spares with
  | refl => exact ⟨id, fun _ => ⟨rfl, fun _ up => up⟩, by simp⟩
  | create kind _ fresh ih => rwa [node?_create_of_ne fresh]
  | modify id g _ harmless ih =>
    obtain ⟨f, before, same⟩ := ih
    rw [node?_modify, same]
    split
    case isTrue atRoot =>
      refine ⟨g ∘ f, fun node => ?_, Option.map_map ..⟩
      obtain ⟨tag, up⟩ := harmless atRoot (f node)
      exact ⟨tag.trans (before node).1, fun parent here => (before node).2 parent (up parent here)⟩
    case isFalse => exact ⟨f, before, rfl⟩
  | release id _ notRoot ih => rwa [node?_release, if_neg notRoot]

theorem contains_root (spares : SparesRoot d d') : d'.contains root = d.contains root := by
  obtain ⟨f, -, same⟩ := spares.node?_root
  simp [contains, same]

theorem tag?_root (spares : SparesRoot d d') : d'.tag? root = d.tag? root := by
  obtain ⟨f, harmless, same⟩ := spares.node?_root
  rw [tag?_eq, tag?_eq, same]
  cases d.node? root with
  | none => rfl
  | some node => exact (harmless node).1

theorem parent?_root (spares : SparesRoot d d') (alone : d.parent? root = none) :
    d'.parent? root = none := by
  obtain ⟨f, harmless, same⟩ := spares.node?_root
  rw [Option.eq_none_iff_forall_ne_some]
  intro parent up
  obtain ⟨_, held, upper⟩ := parent?_eq_some.1 up
  rw [same, Option.map_eq_some_iff] at held
  obtain ⟨node, before, rfl⟩ := held
  simp [parent?, before, (harmless node).2 parent upper] at alone

end SparesRoot

theorem WellFormed.of_spares (wf : d.WellFormed) (spares : SparesRoot d d') (coherent : d'.Coherent) :
    d'.WellFormed :=
  let ⟨⟨tidy, linked, nodup⟩, ranked⟩ := coherent
  ⟨tidy, spares.contains_root.trans wf.rootLive, spares.parent?_root wf.rootAlone, linked, nodup,
    ranked⟩

theorem WellFormed.rootStays (wf : d.WellFormed) (tagged : d.tag? root = some rootTag) :
    d.RootStays where
  contains := wf.rootLive
  tag? := tagged
  parent? := wf.rootAlone
  not_free := fun isFree => by
    have dead := ((wf.tidy.mem_free root).1 isFree).2
    have live := wf.rootLive
    simp [Document.contains, dead] at live
  isElement_root := by simp [isElement]
  isElement_iff := fun id notRoot => by
    rw [isElement, Document.tag?]
    cases d.kind? id with
    | none => simp
    | some kind => cases kind <;> simp [notRoot]

/-! ## Operations that spare the root -/

namespace SparesRoot

theorem setParent (id : NodeId) {up : Option NodeId} (stays : id = root → up = none) :
    SparesRoot d (d.setParent id up) :=
  .modify id _ .refl fun atRoot node => ⟨rfl, fun parent same => by simp [stays atRoot] at same⟩

theorem modifyChildren (id : NodeId) (f : List NodeId → List NodeId) :
    SparesRoot d (d.modifyChildren id f) :=
  .modify id _ .refl fun _ _ => ⟨rfl, fun _ up => up⟩

theorem modifyAttributes (id : NodeId) (f : Markup.Attributes → Markup.Attributes) :
    SparesRoot d (d.modifyAttributes id f) := by
  refine .modify id _ .refl fun _ node => ?_
  cases node with | mk kind _ _ => cases kind <;> exact ⟨rfl, fun _ up => up⟩

theorem detach (id : NodeId) : SparesRoot d (d.detach id) := by
  unfold Document.detach
  split
  · exact .refl
  · exact (modifyChildren _ _).trans (setParent id fun _ => rfl)

theorem foldl_detach (list : List NodeId) : SparesRoot d (list.foldl Document.detach d) := by
  induction list generalizing d with
  | nil => exact .refl
  | cons first rest ih => exact (detach first).trans ih

theorem attach (notRoot : child ≠ root) (place : List NodeId → List NodeId) :
    SparesRoot d (d.attach parent child place) :=
  ((detach child).trans (modifyChildren parent place)).trans
    (setParent child fun same => absurd same notRoot)

theorem guarded_attach (notRoot : parent ≠ child → d.contains parent → d.contains child →
    child ≠ root) (place : List NodeId → List NodeId) :
    SparesRoot d (if parent = child || !d.contains parent || !d.contains child then d
      else d.attach parent child place) := by
  split
  · exact .refl
  case isFalse attaches =>
    simp only [Bool.or_eq_true, decide_eq_true_eq, Bool.not_eq_true', not_or, Bool.not_eq_false]
      at attaches
    exact attach (notRoot attaches.1.1 attaches.1.2 attaches.2) place

theorem insertBefore (notRoot : reference ≠ child → d.contains child → ∀ parent,
    d.parent? reference = some parent → child ≠ root) :
    SparesRoot d (d.insertBefore reference child).1 := by
  unfold Document.insertBefore
  split
  · exact .refl
  case isFalse attaches =>
    simp only [Bool.or_eq_true, decide_eq_true_eq, Bool.not_eq_true', not_or, Bool.not_eq_false]
      at attaches
    cases up : d.parent? reference with
    | none => exact .refl
    | some parent =>
      simp only
      split
      · exact attach (notRoot attaches.1 attaches.2 parent up) _
      · exact detach child

theorem foldl_release {list : List NodeId} (notRoot : root ∉ list) :
    SparesRoot d (list.foldl Document.release d) := by
  induction list generalizing d with
  | nil => exact .refl
  | cons first rest ih =>
    rw [List.mem_cons, not_or] at notRoot
    exact (SparesRoot.release first .refl (Ne.symm notRoot.1)).trans (ih notRoot.2)

end SparesRoot

namespace WellFormed

variable (wf : d.WellFormed)
include wf

theorem create_ne_root (kind : Kind) : (d.create kind).2 ≠ root :=
  wf.grounded.root_ne_of_dead (node?_create_of_dead wf.tidy kind)

theorem spares_create (kind : Kind) : SparesRoot d (d.create kind).1 :=
  .create kind .refl (wf.create_ne_root kind)

theorem spares_create_below (kind : Kind) (parent : NodeId) :
    SparesRoot d ((d.create kind).1.appendChild parent (d.create kind).2) :=
  (wf.spares_create kind).trans (.guarded_attach (fun _ _ _ => wf.create_ne_root kind) _)

theorem create_below (kind : Kind) (parent : NodeId) :
    ((d.create kind).1.appendChild parent (d.create kind).2).WellFormed :=
  wf.of_spares (wf.spares_create_below kind parent) (wf.coherent.create_below kind parent)

theorem spares_removeNode (id : NodeId) : SparesRoot d (d.removeNode id) := by
  unfold Document.removeNode
  split
  · exact .refl
  case isFalse removes =>
    simp only [Bool.or_eq_true, decide_eq_true_eq, not_or] at removes
    have detached : SparesRoot d (d.detach id) := .detach id
    -- A root without a parent is below no other node, so it is not freed with one.
    refine detached.trans (.foldl_release fun inside => removes.1 ?_)
    have below := (wf.coherent.detach id).below_of_mem_subtree inside
    exact below.eq_of_parent?_none (detached.parent?_root wf.rootAlone)

omit wf in
theorem spares_removeNodes (wf : d.WellFormed) (list : List NodeId) :
    SparesRoot d (d.removeNodes list) := by
  induction list generalizing d with
  | nil => exact .refl
  | cons first rest ih =>
    have removed := wf.spares_removeNode first
    exact removed.trans (ih (wf.of_spares removed (wf.coherent.removeNode first)))

omit wf in
theorem spares_graftForest (wf : d.WellFormed) (parent : NodeId) (forest : List Tree) :
    SparesRoot d (d.graftForest parent forest) := by
  induction forest using Tree.forest_induction generalizing d parent with
  | nil => exact .refl
  | text content rest ih =>
    exact (wf.spares_create_below _ parent).trans (ih (wf.create_below (.text content) parent) parent)
  | comment body rest ih =>
    exact (wf.spares_create_below _ parent).trans (ih (wf.create_below (.comment body) parent) parent)
  | element tag attributes children rest below beside =>
    have top := wf.create_below (.element tag attributes) parent
    have inner := below top (d.create (.element tag attributes)).2
    have grown := top.of_spares inner (top.coherent.graftForest _ children)
    exact ((wf.spares_create_below _ parent).trans inner).trans (beside grown parent)

theorem spares_setInnerHtml (id : NodeId) (markup : String) :
    SparesRoot d (d.setInnerHtml id markup) :=
  have cleared : SparesRoot d (d.clearChildren id) := wf.spares_removeNodes _
  cleared.trans
    ((wf.of_spares cleared (wf.coherent.clearChildren id)).spares_graftForest id _)

theorem spares_parseFragment (markup : String) : SparesRoot d (d.parseFragment markup).1 := by
  have held : SparesRoot d (d.createElement holderTag).1 := wf.spares_create _
  have started := wf.of_spares held (wf.coherent.create _)
  generalize createdEq : d.createElement holderTag = created at held started
  obtain ⟨d₁, holder⟩ := created
  have read : SparesRoot d₁ (d₁.parseInto holder markup) := started.spares_graftForest holder _
  have grown := started.of_spares read (started.coherent.graftForest holder _)
  simp only [parseFragment, createdEq]
  generalize d₁.parseInto holder markup = d₂ at read grown
  have loose : SparesRoot d₂ ((d₂.children holder).foldl Document.detach d₂) := .foldl_detach _
  have detached := grown.of_spares loose (grown.coherent.foldl_detach _)
  exact ((held.trans read).trans loose).trans (detached.spares_removeNode holder)

theorem spares_apply {operation : Operation}
    (stays : (operation.attached? d).map Prod.snd ≠ some root) :
    SparesRoot d (operation.apply d) := by
  cases operation with
  | createElement tag => exact wf.spares_create _
  | createText content => exact wf.spares_create _
  | createComment body => exact wf.spares_create _
  | appendChild parent child | prependChild parent child =>
    refine .guarded_attach (fun differ parentLive childLive same => stays ?_) _
    simp [Operation.attached?, ← same, differ, parentLive, childLive]
  | insertBefore reference child =>
    refine .insertBefore fun differ childLive parent up same => stays ?_
    simp [Operation.attached?, ← same, differ, childLive, up]
  | detach id => exact .detach id
  | removeNode id => exact wf.spares_removeNode id
  | clearChildren id => exact wf.spares_removeNodes _
  | setInnerHtml id markup => exact wf.spares_setInnerHtml id markup
  | parseFragment markup => exact wf.spares_parseFragment markup
  | setAttribute id name value => exact .modifyAttributes id _
  | removeAttribute id name => exact .modifyAttributes id _

theorem root_not_mem_created (operation : Operation) : root ∉ operation.created d := by
  cases operation with
  | createElement tag =>
    exact fun inside => wf.create_ne_root (.element (String.ofList (Markup.lowerName tag.toList)) [])
      (List.mem_singleton.1 inside).symm
  | createText content =>
    exact fun inside => wf.create_ne_root (.text content) (List.mem_singleton.1 inside).symm
  | createComment body =>
    exact fun inside => wf.create_ne_root (.comment body) (List.mem_singleton.1 inside).symm
  | parseFragment markup =>
    -- What a fragment is read into was free before, and the root was not.
    obtain ⟨plants, grows, names, -⟩ := exists_grows_parseFragment wf.grounded markup
    rw [Operation.created, names]
    exact fun inside => grows.root_not_mem wf.grounded ((Plant.map_root_sublist plants).mem inside)
  | _ => exact List.not_mem_nil

end WellFormed

/-! ## Runs -/

theorem parent?_guarded_attach
    (attaches : parent ≠ child ∧ d.contains parent ∧ d.contains child)
    (place : List NodeId → List NodeId) :
    (if parent = child || !d.contains parent || !d.contains child then d
      else d.attach parent child place).parent? child = some parent := by
  obtain ⟨differ, parentLive, childLive⟩ := attaches
  rw [if_neg (by simp [differ, parentLive, childLive])]
  exact parent?_attach_child childLive place

theorem Coherent.parent?_apply (coherent : d.Coherent) {operation : Operation}
    (attached : operation.attached? d = some (parent, child)) :
    (operation.apply d).parent? child = some parent := by
  cases operation with
  | appendChild above below | prependChild above below =>
    rw [Operation.attached?, Option.ite_none_right_eq_some, Option.some.injEq, Prod.mk.injEq]
      at attached
    obtain ⟨attaches, rfl, rfl⟩ := attached
    exact parent?_guarded_attach attaches _
  | insertBefore reference below =>
    rw [Operation.attached?, Option.ite_none_right_eq_some, Option.map_eq_some_iff] at attached
    obtain ⟨⟨differ, belowLive⟩, above, up, same⟩ := attached
    obtain ⟨rfl, rfl⟩ := Prod.mk.inj same
    have aboveLive := coherent.contains_parent up
    simp only [Operation.apply, Document.insertBefore, up, contains_detach, aboveLive, if_true]
    rw [if_neg (by simp [differ, belowLive])]
    exact parent?_attach_child belowLive _
  | _ => cases attached

namespace WellFormed

theorem rootStays_iff_neverMoved (wf : d.WellFormed) (tagged : d.tag? root = some rootTag)
    {operations : List Operation} (acyclic : Operation.AllAcyclic d operations) :
    Operation.NeverMoved d operations ↔
      ∀ before, before <+: operations → (Operation.applyAll d before).RootStays := by
  induction operations generalizing d with
  | nil =>
    refine iff_of_true trivial fun before isPrefix => ?_
    rw [List.prefix_nil.1 isPrefix]
    exact wf.rootStays tagged
  | cons operation rest ih =>
    have next (stays : (operation.attached? d).map Prod.snd ≠ some root) :=
      have spares := wf.spares_apply stays
      ih (wf.of_spares spares (wf.coherent.apply acyclic.1)) (spares.tag?_root.trans tagged)
        acyclic.2
    constructor
    · intro never before isPrefix
      rcases List.prefix_cons_iff.1 isPrefix with rfl | ⟨done, rfl, ahead⟩
      · exact wf.rootStays tagged
      · exact (next never.1).1 never.2 done ahead
    · intro always
      have stays : (operation.attached? d).map Prod.snd ≠ some root := by
        intro moves
        -- The root would have a parent right behind the call.
        obtain ⟨⟨parent, _⟩, attached, rfl⟩ := Option.map_eq_some_iff.1 moves
        have moved := wf.coherent.parent?_apply attached
        have alone := (always [operation] (List.prefix_append [operation] rest)).parent?
        rw [Operation.applyAll, List.foldl_cons, List.foldl_nil, moved] at alone
        cases alone
      exact ⟨stays, (next stays).2 fun done isPrefix =>
        always (operation :: done) ((List.prefix_cons_inj operation).2 isPrefix)⟩

theorem spares_of_neverMoved (wf : d.WellFormed) {operations : List Operation}
    (acyclic : Operation.AllAcyclic d operations) (never : Operation.NeverMoved d operations)
    {before behind : List Operation} {operation : Operation}
    (split : operations = before ++ operation :: behind) :
    SparesRoot (Operation.applyAll d before) (operation.apply (Operation.applyAll d before)) ∧
      root ∉ operation.created (Operation.applyAll d before) := by
  induction before generalizing d operations with
  | nil =>
    subst split
    exact ⟨wf.spares_apply never.1, wf.root_not_mem_created operation⟩
  | cons first before ih =>
    subst split
    exact ih (wf.of_spares (wf.spares_apply never.1) (wf.coherent.apply acyclic.1)) acyclic.2
      never.2 rfl

end WellFormed

/-- Only calls that attach the root endanger it, and each of them does. -/
theorem root_stays {operations : List Operation}
    (acyclic : Operation.AllAcyclic empty operations) :
    (Operation.NeverMoved empty operations ↔
      ∀ before, before <+: operations → (Operation.applyAll empty before).RootStays) ∧
    (Operation.NeverMoved empty operations → ∀ before operation behind,
      operations = before ++ operation :: behind →
      SparesRoot (Operation.applyAll empty before)
        (operation.apply (Operation.applyAll empty before)) ∧
      root ∉ operation.created (Operation.applyAll empty before)) :=
  ⟨empty_wellFormed.rootStays_iff_neverMoved rfl acyclic,
    fun never _ _ _ split => empty_wellFormed.spares_of_neverMoved acyclic never split⟩

theorem Operation.Acyclic.of_idle {operation : Operation} (idle : operation.attached? d = none) :
    operation.Acyclic d := by
  intro parent child attached
  rw [idle] at attached
  cases attached

def besieging : List Operation :=
  [.setInnerHtml root "<p>a</p>", .createElement "b", .appendChild root 3, .prependChild root root,
    .insertBefore 4 root, .insertBefore root 1, .setAttribute root "id" "x", .detach root,
    .removeNode root, .clearChildren root, .parseFragment "y<i>z</i>"]

theorem root_stays_besieging :
    Operation.AllAcyclic empty besieging ∧ Operation.NeverMoved empty besieging ∧
      (∀ before, before <+: besieging → (Operation.applyAll empty before).RootStays) ∧
      ∀ before operation behind, besieging = before ++ operation :: behind →
        SparesRoot (Operation.applyAll empty before)
          (operation.apply (Operation.applyAll empty before)) ∧
        root ∉ operation.created (Operation.applyAll empty before) := by
  have acyclic : Operation.AllAcyclic empty besieging := by
    refine ⟨nofun, nofun, ?_, ?_, ?_, ?_, nofun, nofun, nofun, nofun, nofun, trivial⟩
    · exact Operation.acyclic_of_alone root 3 (by decide +kernel) (by decide) (by decide +kernel)
    · exact .of_idle (by decide +kernel)
    · exact .of_idle (by decide +kernel)
    · exact .of_idle (by decide +kernel)
  have never : Operation.NeverMoved empty besieging := by decide +kernel
  obtain ⟨stays, spares⟩ := root_stays acyclic
  exact ⟨acyclic, never, stays.1 never, spares never⟩

def losing : List Operation :=
  [.createElement "p", .appendChild 1 root, .removeNode 1, .createElement "b"]

example : ¬ Operation.NeverMoved empty losing ∧
    ¬ (Operation.applyAll empty (losing.take 3)).contains root ∧
    (Operation.applyAll empty losing).kind? root = some (.element "b" []) ∧
    (Operation.applyAll empty losing).isElement root = false := by
  decide +kernel

end LiveList.Document
