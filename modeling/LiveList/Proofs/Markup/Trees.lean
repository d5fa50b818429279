import LiveList.Markup.Tree

namespace LiveList.Markup.Tree

theorem forest_induction {motive : List Tree → Prop} (nil : motive [])
    (text : ∀ content rest, motive rest → motive (.text content :: rest))
    (comment : ∀ body rest, motive rest → motive (.comment body :: rest))
    (element : ∀ tag attributes children rest, motive children → motive rest →
      motive (.element tag attributes children :: rest)) :
    ∀ forest, motive forest
  | [] => nil
  | .text content :: rest => text content rest (forest_induction nil text comment element rest)
  | .comment body :: rest => comment body rest (forest_induction nil text comment element rest)
  | .element tag attributes children :: rest =>
    element tag attributes children rest (forest_induction nil text comment element children)
      (forest_induction nil text comment element rest)

@[simp] theorem forestMarkup_append (raw : Bool) (left right : List Tree) :
    forestMarkup raw (left ++ right) = forestMarkup raw left ++ forestMarkup raw right := by
  induction left with
  | nil => rfl
  | cons first rest ih => simp [forestMarkup, ih]

section

variable (element : String → Attributes → List Tree → Prop) (comment : String → Prop)

mutual

def EachTree : Tree → Prop
  | .text _ => True
  | .comment body => comment body
  | .element tag attributes children => element tag attributes children ∧ EachForest children

def EachForest : List Tree → Prop
  | [] => True
  | tree :: rest => EachTree tree ∧ EachForest rest

end

end

section

variable {element : String → Attributes → List Tree → Prop} {comment : String → Prop}
  [∀ tag attributes children, Decidable (element tag attributes children)]
  [∀ body, Decidable (comment body)]

mutual

instance decidableEachTree : (tree : Tree) → Decidable (EachTree element comment tree)
  | .text _ => isTrue trivial
  | .comment body => inferInstanceAs (Decidable (comment body))
  | .element _ _ children => @instDecidableAnd _ _ _ (decidableEachForest children)

instance decidableEachForest : (forest : List Tree) → Decidable (EachForest element comment forest)
  | [] => isTrue trivial
  | tree :: rest => @instDecidableAnd _ _ (decidableEachTree tree) (decidableEachForest rest)

end

end

variable {element element' : String → Attributes → List Tree → Prop} {comment comment' : String → Prop}

theorem eachForest_iff {forest : List Tree} :
    EachForest element comment forest ↔ ∀ tree ∈ forest, EachTree element comment tree := by
  induction forest with
  | nil => simp [EachForest]
  | cons tree rest ih => simp [EachForest, ih]

theorem eachForest_reverse {forest : List Tree} :
    EachForest element comment forest.reverse ↔ EachForest element comment forest := by
  simp [eachForest_iff]

theorem EachForest.imp {forest : List Tree} (each : EachForest element comment forest)
    (elements : ∀ tag attributes children, element tag attributes children →
      element' tag attributes children) (comments : ∀ body, comment body → comment' body) :
    EachForest element' comment' forest := by
  induction forest using forest_induction with
  | nil => trivial
  | text content rest ih => exact ⟨trivial, ih each.2⟩
  | comment body rest ih => exact ⟨comments body each.1, ih each.2⟩
  | element tag attributes children rest below beside =>
    exact ⟨⟨elements _ _ _ each.1.1, below each.1.2⟩, beside each.2⟩

theorem EachForest.and {both : String → Attributes → List Tree → Prop} {forest : List Tree}
    (each : EachForest element comment forest) (each' : EachForest element' comment' forest)
    (elements : ∀ tag attributes children, element tag attributes children →
      element' tag attributes children → both tag attributes children) :
    EachForest both comment forest := by
  induction forest using forest_induction with
  | nil => trivial
  | text content rest ih => exact ⟨trivial, ih each.2 each'.2⟩
  | comment body rest ih => exact ⟨each.1, ih each.2 each'.2⟩
  | element tag attributes children rest below beside =>
    exact ⟨⟨elements _ _ _ each.1.1 each'.1.1, below each.1.2 each'.1.2⟩, beside each.2 each'.2⟩

end LiveList.Markup.Tree
