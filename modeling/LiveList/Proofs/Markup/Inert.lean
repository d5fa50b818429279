import LiveList.Markup.Forest
import LiveList.Proofs.Markup.Printed

namespace LiveList.Markup

def Inert (text : String) : Prop := '<' ∉ text.toList ∧ '&' ∉ text.toList

instance (text : String) : Decidable (Inert text) := inferInstanceAs (Decidable (_ ∧ _))

theorem decode_append_of_not_mem {text : List Char} (absent : '&' ∉ text) (rest : List Char) :
    decode (text ++ rest) = text ++ decode rest := by
  induction text with
  | nil => rfl
  | cons c text ih =>
    obtain ⟨differ, absent⟩ := by simpa using absent
    rw [List.cons_append, decode_cons_of_ne (Ne.symm differ), ih absent, List.cons_append]

theorem parse_of_not_mem {markup : String} (noBracket : '<' ∉ markup.toList) :
    parse markup =
      if markup = "" then [] else [.text (String.ofList (decode markup.toList))] := by
  rw [parse, Lexer.tokens]
  split
  case isTrue empty =>
    rw [empty, String.toList_empty, Lexer.tokensFrom_nil]
    rfl
  case isFalse notEmpty =>
    have there : markup.toList ≠ [] := fun nothing => notEmpty (String.toList_eq_nil_iff.1 nothing)
    obtain ⟨c, rest, chars⟩ := List.exists_cons_of_ne_nil there
    rw [chars] at noBracket ⊢
    obtain ⟨differ, noBracket⟩ := by simpa using noBracket
    have span := Lexer.spanText_append_of_opens noBracket (.inl rfl)
    rw [List.append_nil] at span
    rw [Lexer.tokensFrom_of_ne_nil none (by simp), Lexer.step_text (Ne.symm differ), span,
      Lexer.tokensFrom_nil]
    rfl

namespace Tree

def isEmptyText : Tree → Bool
  | .text content => content = ""
  | _ => false

mutual

def filledTree : Tree → Tree
  | .text content => .text content
  | .comment body => .comment body
  | .element tag attributes children => .element tag attributes (filled children)

def filled : List Tree → List Tree
  | [] => []
  | tree :: rest => if tree.isEmptyText then filled rest else filledTree tree :: filled rest

end

theorem filled_text (content : String) (rest : List Tree) :
    filled (.text content :: rest) =
      if content = "" then filled rest else .text content :: filled rest := by
  simp [filled, isEmptyText, filledTree]

theorem filled_comment (body : String) (rest : List Tree) :
    filled (.comment body :: rest) = .comment body :: filled rest := rfl

theorem filled_element (tag : String) (attributes : Attributes) (children rest : List Tree) :
    filled (.element tag attributes children :: rest) =
      .element tag attributes (filled children) :: filled rest := rfl

theorem filled_append (left right : List Tree) :
    filled (left ++ right) = filled left ++ filled right := by
  induction left with
  | nil => rfl
  | cons tree rest ih =>
    rw [List.cons_append, filled, filled, ih]
    split <;> rfl

theorem forestMarkup_filled (raw : Bool) (forest : List Tree) :
    forestMarkup raw (filled forest) = forestMarkup raw forest := by
  induction forest using forest_induction generalizing raw with
  | nil => rfl
  | text content rest ih =>
    rw [filled_text]
    split
    case isTrue empty => cases raw <;> simp [forestMarkup, markup, empty, escapeText, ih]
    case isFalse => rw [forestMarkup, forestMarkup, ih]
  | comment body rest ih => rw [filled_comment, forestMarkup, forestMarkup, ih]
  | element tag attributes children rest below beside =>
    rw [filled_element, forestMarkup, forestMarkup, markup, markup, below, beside]

theorem printForest_filled (forest : List Tree) : printForest (filled forest) = printForest forest := by
  rw [printForest, forestMarkup_filled, printForest]

end Tree

end LiveList.Markup
