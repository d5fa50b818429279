import LiveList.Proofs.Document.Growth
import LiveList.Proofs.Markup.Reading

namespace LiveList.Document

open Markup (NamedBy NormalForest NormalTree PlainName PlainTag RawContent Tree startsWithText)

variable {d : Document} {id : NodeId} {forest : List Tree}

theorem exists_forest_eq (forest : List Tree) :
    ∃ d : Document, d.WellFormed ∧ d.forest (d.children root) = forest := by
  obtain ⟨plants, grows, same⟩ :=
    exists_grows_graftForest empty_wellFormed.grounded empty_wellFormed.rootLive forest
  refine ⟨_, grows.wellFormed (.some empty_wellFormed.rootLive) empty_wellFormed, ?_⟩
  have bare : empty.children root = [] := rfl
  rw [grows.children_above empty_wellFormed.rootLive, bare, List.nil_append,
    forest_of_holds grows.holds grows.nodup, same]

theorem innerHtml_eq_printForest (notRaw : d.holdsRawText id = false)
    (holds : d.forest (d.children id) = forest) : d.innerHtml id = Tree.printForest forest := by
  rw [innerHtml, notRaw, holds, Tree.printForest]

/-- Trees in normal form are read from their markup as they are. They stand in some document, and
any document that holds them prints this markup. -/
theorem forest_ofHtml_innerHtml (normal : NormalForest forest) :
    (∃ d : Document, d.WellFormed ∧ d.forest (d.children root) = forest) ∧
    ∀ (d : Document) (id : NodeId), d.holdsRawText id = false →
      d.forest (d.children id) = forest →
      (ofHtml (d.innerHtml id)).forest ((ofHtml (d.innerHtml id)).children root) = forest := by
  refine ⟨exists_forest_eq forest, ?_⟩
  intro d id notRaw holds
  rw [forest_ofHtml, innerHtml_eq_printForest notRaw holds, Markup.parse_printForest normal]

def scriptedForest : List Tree :=
  [.element "div" [("title", "a \"<b>\" &amp; c"), ("hidden", "")]
      [.text "1 < 2 & 3", .element "br" [] [], .text "\"", .comment " -- > "],
    .element "script" [] [.text "if (a < b && c) d('</div>');"]]

theorem normalForest_scripted : NormalForest scriptedForest := by
  have div : PlainTag "div" := Markup.plainTag_of_all rfl (by decide) (by decide)
  have br : PlainTag "br" := Markup.plainTag_of_all rfl (by decide) (by decide)
  have script : PlainTag "script" := Markup.plainTag_of_all rfl (by decide) (by decide)
  have title : PlainName "title" := Markup.plainName_of_all (by decide) rfl rfl
  have hidden : PlainName "hidden" := Markup.plainName_of_all (by decide) rfl rfl
  have bare : NamedBy PlainName [] := ⟨by simp [OrderedMap.keys], List.nodup_nil⟩
  have comment : Markup.PlainComment " -- > " := Text.breakOn_eq_none.1 rfl
  have content : RawContent "script" [.text "if (a < b && c) d('</div>');"] := by
    refine .inr ⟨_, rfl, by decide, ?_⟩
    intro left right split
    have tails : ∀ right ∈ "if (a < b && c) d('</div>');".toList.tails,
        Markup.Lexer.startsFolded (['<', '/'] ++ "script".toList) right = false := by decide
    exact tails right ((List.mem_tails _ _).2 ⟨left, split.symm⟩)
  have inner : NormalForest [.text "1 < 2 & 3", .element "br" [] [], .text "\"",
      .comment " -- > "] :=
    ⟨by simp [NormalTree], fun _ => rfl, ⟨⟨br, bare, fun _ => rfl⟩, trivial⟩,
      by simp [startsWithText], by simp [NormalTree], fun _ => rfl, comment,
      by simp [startsWithText], trivial⟩
  have notVoid : ∀ tag ∈ ["div", "script"], Markup.isVoid tag = false := by decide
  exact ⟨⟨⟨div, ⟨by simp [OrderedMap.keys, title, hidden], by decide⟩, by simp [notVoid]⟩, inner⟩,
    by simp [startsWithText], ⟨⟨script, bare, by simp [notVoid]⟩, content⟩,
    by simp [startsWithText], trivial⟩

theorem forest_ofHtml_innerHtml_scripted : NormalForest scriptedForest ∧
    ∃ d : Document, d.holdsRawText root = false ∧ d.forest (d.children root) = scriptedForest ∧
      (ofHtml (d.innerHtml root)).forest ((ofHtml (d.innerHtml root)).children root) =
        scriptedForest := by
  have printed : (ofHtml (Tree.printForest scriptedForest)).forest
      ((ofHtml (Tree.printForest scriptedForest)).children root) = scriptedForest := by
    rw [forest_ofHtml, Markup.parse_printForest normalForest_scripted]
  have notRaw : (ofHtml (Tree.printForest scriptedForest)).holdsRawText root = false := by
    decide +kernel
  exact ⟨normalForest_scripted, _, notRaw, printed,
    (forest_ofHtml_innerHtml normalForest_scripted).2 _ _ notRaw printed⟩

end LiveList.Document
