import LiveList.Proofs.Document.Containment
import LiveList.Proofs.Document.Locality
import LiveList.Proofs.Document.Reparsing
import LiveList.Proofs.Markup.Verbatim

namespace LiveList.Document

open Markup (Attributes NamedBy NormalForest PlainTag RawContent Tree Verbatim isRawText)
open Plant (ids trees)

def HoldsText (d : Document) (id : NodeId) (text : String) : Prop :=
  ∃ child, d.children id = [child] ∧ d.kind? child = some (.text text) ∧ d.innerHtml id = text

def rawMarkup (tag text : String) : String := "<" ++ tag ++ ">" ++ text ++ "</" ++ tag ++ ">"

variable {d : Document} {id : NodeId} {tag text markup : String}

theorem trees_eq_singleton_iff {plants : List Plant} {tree : Tree} : trees plants = [tree] ↔
    ∃ child kind children, plants = [.node child kind children] ∧
      Plant.grow kind (trees children) = tree := by
  constructor
  · intro same
    match plants with
    | [] => simp [trees] at same
    | [.node child kind children] =>
      rw [trees, trees, List.singleton_inj] at same
      exact ⟨child, kind, children, rfl, same⟩
    | .node .. :: .node .. :: _ =>
      rw [trees, trees] at same
      cases (List.cons.inj same).2
  · rintro ⟨child, kind, children, rfl, rfl⟩
    rw [trees, trees]

theorem grow_eq_text_iff {kind : Kind} {below : List Tree} :
    Plant.grow kind below = .text text ↔ kind = .text text := by
  cases kind <;> simp [Plant.grow]

namespace Coherent

variable (coherent : d.Coherent) (live : d.contains id)
include coherent live

theorem only_text_iff : (∃ child, d.children id = [child] ∧ d.kind? child = some (.text text)) ↔
    d.forest (d.children id) = [.text text] := by
  obtain ⟨⟨_, kind, plants⟩, rfl, held, nodup⟩ :=
    coherent.exists_plant live (coherent.untangled id)
  obtain ⟨top, below, -⟩ := Holds.cons_iff.1 held
  obtain ⟨-, belowNodup⟩ := by simpa [ids] using nodup
  have list : d.children (Plant.node _ kind plants).root = plants.map Plant.root :=
    children_of_node? top
  rw [list, forest_of_holds below belowNodup, trees_eq_singleton_iff]
  constructor
  · rintro ⟨child, single, isText⟩
    obtain ⟨⟨_, kind, children⟩, rfl, rfl⟩ := List.map_eq_singleton_iff.1 single
    have same := (below.kind?_root List.mem_cons_self).symm.trans isText
    exact ⟨_, kind, children, rfl, grow_eq_text_iff.2 (Option.some.inj same)⟩
  · rintro ⟨child, kind, children, rfl, grown⟩
    obtain rfl := grow_eq_text_iff.1 grown
    exact ⟨child, rfl, below.kind?_root List.mem_cons_self⟩

theorem holdsText_iff (raw : d.holdsRawText id) :
    d.HoldsText id text ↔ d.forest (d.children id) = [.text text] := by
  rw [← coherent.only_text_iff live]
  constructor
  · rintro ⟨child, single, isText, -⟩
    exact ⟨child, single, isText⟩
  · rintro ⟨child, single, isText⟩
    have forest := (coherent.only_text_iff live).1 ⟨child, single, isText⟩
    refine ⟨child, single, isText, ?_⟩
    rw [innerHtml, raw, forest]
    simp [Tree.forestMarkup, Tree.markup]

theorem forest_setInnerHtml (rootLive : d.contains root) (apart : ¬ d.Below id root)
    (markup : String) :
    (d.setInnerHtml id markup).forest ((d.setInnerHtml id markup).children id) =
      Markup.parse markup ∧
    (d.setInnerHtml id markup).kind? id = d.kind? id := by
  have up : ∀ child ∈ d.children id, d.parent? child = some id := fun child inside =>
    (coherent.linked id child).1 inside
  -- The children are freed first. Neither the node nor the root is among what they hold.
  have stays : ∀ other, ¬ d.Tangled id → (other = id ∨ other = root) →
      other ∉ (d.children id).flatMap d.subtree := by
    intro other untangled same inside
    obtain ⟨child, isChild, inside⟩ := List.mem_flatMap.1 inside
    have below := coherent.toConsistent.below_of_mem_subtree inside
    rcases same with rfl | rfl
    · exact coherent.untangled child ⟨_, up child isChild, below⟩
    · exact apart ((Below.step (up child isChild) .self).trans below)
  have untangled := coherent.untangled id
  have notRoot : root ∉ d.children id := fun inside => apart (.step (up root inside) .self)
  obtain ⟨freed, bare⟩ := coherent.freed_clearChildren live notRoot
  have liveStill := (freed.contains_iff id).2 ⟨live, stays id untangled (.inl rfl)⟩
  have grounded : (d.clearChildren id).Grounded :=
    ⟨(coherent.clearChildren id).toConsistent,
      (freed.contains_iff root).2 ⟨rootLive, stays root untangled (.inr rfl)⟩⟩
  obtain ⟨plants, grows, same⟩ :=
    exists_grows_graftForest grounded liveStill (Markup.parse markup)
  rw [Document.setInnerHtml, parseInto]
  constructor
  · rw [grows.children_above liveStill, bare, List.nil_append, forest_of_holds grows.holds grows.nodup,
      same]
  · rw [← freed.kind? id (stays id untangled (.inl rfl)), kind?,
      grows.elsewhere id (grows.not_mem_of_contains liveStill), if_pos rfl, Option.map_map]
    rfl

end Coherent

theorem plainTag_of_isRawText (raw : isRawText tag) : PlainTag tag := by
  rw [isRawText, List.contains_iff_mem] at raw
  simp only [Markup.rawTextTags, List.mem_cons, List.not_mem_nil, or_false] at raw
  rcases raw with rfl | rfl
  · exact Markup.plainTag_of_all rfl (by decide) (by decide)
  · exact Markup.plainTag_of_all rfl (by decide) (by decide)

theorem isVoid_of_isRawText (raw : isRawText tag) : Markup.isVoid tag = false :=
  Bool.eq_false_iff.2 fun void => by simp [Markup.Lexer.isRawText_of_isVoid void] at raw

theorem parse_rawMarkup (raw : isRawText tag) (content : RawContent tag [.text text]) :
    Markup.parse (rawMarkup tag text) = [.element tag [] [.text text]] := by
  have normal : NormalForest [.element tag [] [.text text]] := by
    refine ⟨⟨⟨plainTag_of_isRawText raw, ⟨by simp [OrderedMap.keys], List.nodup_nil⟩, ?_⟩, ?_⟩,
      fun _ => rfl, trivial⟩
    · simp [isVoid_of_isRawText raw]
    · rwa [if_pos raw]
  have printed : rawMarkup tag text = Tree.printForest [.element tag [] [.text text]] := by
    rw [← String.toList_inj, rawMarkup, Tree.printForest]
    simp [Tree.forestMarkup, Tree.markup, isVoid_of_isRawText raw, raw, Markup.openingMarkup,
      Markup.closingMarkup]
  rw [printed, Markup.parse_printForest normal]

theorem exists_element_ofHtml {attributes : Attributes} {below : List Tree}
    (read : Markup.parse markup = [.element tag attributes below]) :
    ∃ top, (ofHtml markup).children root = [top] ∧
      (ofHtml markup).kind? top = some (.element tag attributes) ∧
      (ofHtml markup).forest ((ofHtml markup).children top) = below := by
  obtain ⟨plants, grows, same⟩ := exists_grows_ofHtml markup
  rw [read, trees_eq_singleton_iff] at same
  obtain ⟨top, kind, inner, rfl, grown⟩ := same
  obtain ⟨rfl, rfl⟩ : kind = .element tag attributes ∧ trees inner = below := by
    cases kind <;> simp_all [Plant.grow]
  obtain ⟨here, held, -⟩ := Holds.cons_iff.1 grows.holds
  obtain ⟨-, nodup⟩ := by simpa [ids] using grows.nodup
  refine ⟨top, ?_, grows.holds.kind?_root List.mem_cons_self, ?_⟩
  · exact grows.children_above empty_wellFormed.rootLive
  · rw [children_of_node? here, forest_of_holds held nodup]

theorem contains_of_kind? {kind : Kind} (held : d.kind? id = some kind) : d.contains id := by
  obtain ⟨node, isNode, -⟩ := Option.map_eq_some_iff.1 held
  exact contains_iff.2 ⟨node, isNode⟩

theorem holdsRawText_of_kind? {attributes : Attributes}
    (kind : d.kind? id = some (.element tag attributes)) (raw : isRawText tag) :
    d.holdsRawText id := by
  rw [holdsRawText, tag?, kind]
  exact raw

/-- Reading an element with raw text behind its start tag keeps every text that does not end it.
Setting the text as the content of such an element reads it like any other markup, and keeps it
just if it is verbatim. -/
theorem setInnerHtml_holdsText_iff (coherent : d.Coherent) (rootLive : d.contains root)
    {attributes : Attributes} (element : d.kind? id = some (.element tag attributes))
    (apart : ¬ d.Below id root) (raw : isRawText tag) (notEmpty : text ≠ "")
    (unended : ∀ left right, text.toList = left ++ right →
      Markup.Lexer.startsFolded (['<', '/'] ++ tag.toList) right = false) :
    (∃ top, (ofHtml (rawMarkup tag text)).children root = [top] ∧
      (ofHtml (rawMarkup tag text)).kind? top = some (.element tag []) ∧
      (ofHtml (rawMarkup tag text)).HoldsText top text) ∧
    (d.setInnerHtml id text).forest ((d.setInnerHtml id text).children id) = Markup.parse text ∧
    ((d.setInnerHtml id text).HoldsText id text ↔ Verbatim text.toList) := by
  obtain ⟨forest, sameKind⟩ :=
    coherent.forest_setInnerHtml (contains_of_kind? element) rootLive apart text
  have kind := sameKind.trans element
  refine ⟨?_, forest, ?_⟩
  · obtain ⟨top, single, topKind, below⟩ :=
      exists_element_ofHtml (parse_rawMarkup raw (.inr ⟨text, rfl, notEmpty, unended⟩))
    have read := (ofHtml_wellFormed (rawMarkup tag text)).coherent
    exact ⟨top, single, topKind, (read.holdsText_iff (contains_of_kind? topKind)
      (holdsRawText_of_kind? topKind raw)).2 below⟩
  · rw [(coherent.setInnerHtml id text).holdsText_iff (contains_of_kind? kind)
      (holdsRawText_of_kind? kind raw), forest, Markup.parse_eq_text_iff notEmpty]

def scriptPage : Document := ofHtml "<script>x</script>"

theorem setInnerHtml_scriptPage :
    (scriptPage.setInnerHtml 1 "if (a < 2 && b) c();").HoldsText 1 "if (a < 2 && b) c();" ∧
    (∃ top, (ofHtml (rawMarkup "script" "a = '&lt;';")).HoldsText top "a = '&lt;';") ∧
    ¬ (scriptPage.setInnerHtml 1 "a = '&lt;';").HoldsText 1 "a = '&lt;';" := by
  have wf : scriptPage.WellFormed := ofHtml_wellFormed _
  have element : scriptPage.kind? 1 = some (.element "script" []) := by decide +kernel
  have apart : ¬ scriptPage.Below 1 root := fun below =>
    absurd (below.eq_of_parent?_none wf.rootAlone) (by decide)
  have unended {text : String} (none : ∀ right ∈ text.toList.tails,
      Markup.Lexer.startsFolded (['<', '/'] ++ "script".toList) right = false) :
      ∀ left right, text.toList = left ++ right →
        Markup.Lexer.startsFolded (['<', '/'] ++ "script".toList) right = false :=
    fun left right split => none right ((List.mem_tails _ _).2 ⟨left, split.symm⟩)
  have kept := setInnerHtml_holdsText_iff wf.coherent wf.rootLive element apart rfl
    (by decide) (@unended "if (a < 2 && b) c();" (by decide))
  have lost := setInnerHtml_holdsText_iff wf.coherent wf.rootLive element apart rfl
    (by decide) (@unended "a = '&lt;';" (by decide))
  obtain ⟨top, -, -, read⟩ := lost.1
  exact ⟨kept.2.2.2 (by decide +kernel), ⟨top, read⟩,
    fun held => absurd (lost.2.2.1 held) (by decide +kernel)⟩

end LiveList.Document
