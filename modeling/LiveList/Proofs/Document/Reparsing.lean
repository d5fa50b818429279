import LiveList.Proofs.Document.Growth
import LiveList.Proofs.Markup.Merging
import LiveList.Proofs.Markup.Read

namespace LiveList.Markup

/-- Nothing in the print of trees takes more than was written for it: an element with raw text holds
nothing or one text that does not end it, once its texts are merged, and braces that the name of an
attribute leaves open are closed nowhere behind it. -/
structure Confined (forest : List Tree) : Prop where
  rawText : Tree.EachForest
    (fun tag _ children => isRawText tag → RawContent tag (Tree.merged children))
    (fun _ => True) forest
  names : ∀ printed ∈ Tree.forestNames false [] forest, Settled printed

instance (text : List Char) : Decidable (LeavesOpen text) :=
  decidable_of_iff (∃ tail ∈ text.tails, braces <+: tail ∧ ¬ closingBraces <:+: tail.drop 2) <| by
    constructor
    · rintro ⟨tail, isTail, ⟨right, rfl⟩, absent⟩
      obtain ⟨left, rfl⟩ := (List.mem_tails _ _).1 isTail
      exact ⟨left, right, rfl, absent⟩
    · rintro ⟨left, right, rfl, absent⟩
      exact ⟨braces ++ right, (List.mem_tails _ _).2 ⟨left, rfl⟩, ⟨right, rfl⟩, absent⟩

instance (printed : String × List Char) : Decidable (Settled printed) :=
  inferInstanceAs (Decidable (LeavesOpen _ → _))

theorem rawContent_text_iff {tag content : String} : RawContent tag [.text content] ↔
    content ≠ "" ∧ ∀ right ∈ content.toList.tails,
      Lexer.startsFolded (['<', '/'] ++ tag.toList) right = false := by
  constructor
  · rintro (none | ⟨_, same, notEmpty, held⟩)
    · cases none
    · cases same
      refine ⟨notEmpty, fun right isTail => ?_⟩
      obtain ⟨left, whole⟩ := (List.mem_tails _ _).1 isTail
      exact held left right whole.symm
  · rintro ⟨notEmpty, held⟩
    exact .inr ⟨content, rfl, notEmpty, fun left right whole =>
      held right ((List.mem_tails _ _).2 ⟨left, whole.symm⟩)⟩

instance (tag : String) : (children : List Tree) → Decidable (RawContent tag children)
  | [] => isTrue (.inl rfl)
  | [.text _] => decidable_of_iff _ rawContent_text_iff.symm
  | .element .. :: _ | .comment _ :: _ => isFalse (by simp [RawContent])
  | .text _ :: _ :: _ => isFalse (by simp [RawContent])

instance (forest : List Tree) : Decidable (Confined forest) :=
  decidable_of_iff (_ ∧ _) ⟨fun ⟨rawText, names⟩ => ⟨rawText, names⟩,
    fun ⟨rawText, names⟩ => ⟨rawText, names⟩⟩

theorem parse_printForest_parse {markup : String} (confined : Confined (parse markup)) :
    parse (Tree.printForest (parse markup)) = Tree.merged (parse markup) :=
  parse_printForest_of_sealed ((readForest_parse markup).and confined.rawText
    fun _ _ _ read whole => ⟨read, whole⟩) confined.names

end LiveList.Markup

namespace LiveList.Document

open Markup (Confined Tree)

theorem holdsRawText_root (markup : String) : (ofHtml markup).holdsRawText root = false := by
  obtain ⟨plants, grows, -⟩ := exists_grows_ofHtml markup
  have slot := grows.elsewhere root (grows.not_mem_of_contains empty_wellFormed.rootLive)
  simp only [if_true] at slot
  rw [holdsRawText, tag?, kind?, slot]
  rfl

theorem innerHtml_ofHtml (markup : String) :
    (ofHtml markup).innerHtml root = Tree.printForest (Markup.parse markup) := by
  rw [innerHtml, holdsRawText_root, forest_ofHtml, Tree.printForest]

def reread (d : Document) : Document := ofHtml (d.innerHtml root)

/-- Reading once is enough: the markup that is printed for what was read prints itself, and is read
as the same trees once texts that stand side by side are merged. -/
theorem innerHtml_reread {markup : String}
    (confined : Confined ((ofHtml markup).forest ((ofHtml markup).children root))) :
    (ofHtml markup).reread.innerHtml root = (ofHtml markup).innerHtml root ∧
    (ofHtml markup).reread.forest ((ofHtml markup).reread.children root) =
      Tree.merged ((ofHtml markup).forest ((ofHtml markup).children root)) ∧
    ∀ content ∈ Tree.forestTexts ((ofHtml markup).forest ((ofHtml markup).children root)),
      content ≠ "" := by
  rw [forest_ofHtml] at confined ⊢
  have again := Markup.parse_printForest_parse confined
  refine ⟨?_, ?_, fun content => Markup.ne_empty_of_mem_texts⟩
  · rw [reread, innerHtml_ofHtml, innerHtml_ofHtml, again, Tree.printForest_merged]
  · rw [reread, forest_ofHtml, innerHtml_ofHtml, again]

/-- Tags that are not closed, that close nothing and that close more than one element, a text between
brackets that is none, braces in names, closed there and not, and a script whose text reads like an
end tag up to its last letter. -/
def tangledMarkup : String :=
  "a<!x>b<P \x7b\x7b A > \x7d\x7d=1 TITLE='\x22&lt;' title=2 \x7b\x7b><i>c&amp;lt;<b>< d</q></P >e" ++
    "<script>1 </scrip></script\n>f<br/>g</br><!-- h"

theorem innerHtml_reread_tangled :
    Confined ((ofHtml tangledMarkup).forest ((ofHtml tangledMarkup).children root)) ∧
    (ofHtml tangledMarkup).reread.innerHtml root = (ofHtml tangledMarkup).innerHtml root ∧
    (ofHtml tangledMarkup).reread.forest ((ofHtml tangledMarkup).reread.children root) =
      Tree.merged ((ofHtml tangledMarkup).forest ((ofHtml tangledMarkup).children root)) := by
  have confined : Confined
      ((ofHtml tangledMarkup).forest ((ofHtml tangledMarkup).children root)) := by
    decide +kernel
  exact ⟨confined, (innerHtml_reread confined).1, (innerHtml_reread confined).2.1⟩

/-- The end tag ends the raw text but not the script, so the text behind it is not escaped in print. -/
def spoiltScript : String := "<script>a</scriptx>&lt;/script&gt;"

def spoiltName : String := "<p \x7b\x7b>&#125;&#125;</p>"

theorem innerHtml_reread_spoilt :
    (ofHtml spoiltScript).reread.innerHtml root ≠ (ofHtml spoiltScript).innerHtml root ∧
    (ofHtml spoiltName).reread.innerHtml root ≠ (ofHtml spoiltName).innerHtml root := by
  decide +kernel

end LiveList.Document
