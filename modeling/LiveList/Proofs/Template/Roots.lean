import LiveList.Proofs.Markup.Trees
import LiveList.Proofs.Outcome
import LiveList.Template.Evaluation

namespace LiveList

namespace Template

open Json (Value)
open Markup (Tree)

def isElementTree : Tree → Bool
  | .element .. => true
  | _ => false

variable {setting : Setting} {scope : Scope}

theorem exists_element_of_nodeSprouts {node : Node} (isElement : node.isElement)
    (done : (nodeSprouts setting scope node).2 = none) :
    ((nodeSprouts setting scope node).1.flatMap Sprout.trees).any isElementTree := by
  cases node with
  | element tag attributes children =>
    rw [nodeSprouts, elementSprout] at *
    split at done
    · simp at done
    · simp [Sprout.trees, isElementTree]
  | _ => simp [Node.isElement] at isElement

theorem forestTrees_eq_flatMap (sprouts : List Sprout) :
    Sprout.forestTrees sprouts = sprouts.flatMap Sprout.trees := by
  induction sprouts with
  | nil => simp [Sprout.forestTrees]
  | cons first rest ih => simp [Sprout.forestTrees, ih]

theorem exists_element_of_forestSprouts {nodes : List Node} (isElement : nodes.any Node.isElement)
    (done : (forestSprouts setting scope nodes).2 = none) :
    (Sprout.forestTrees (forestSprouts setting scope nodes).1).any isElementTree := by
  induction nodes with
  | nil => simp at isElement
  | cons node rest ih =>
    rw [List.any_cons, Bool.or_eq_true] at isElement
    rw [forestSprouts] at done ⊢
    generalize nodeEq : nodeSprouts setting scope node = first at done ⊢
    obtain ⟨made, stopped⟩ := first
    cases stopped with
    | some failure => simp at done
    | none =>
      simp only [forestTrees_eq_flatMap, List.flatMap_append, List.any_append, Bool.or_eq_true]
      cases isElement with
      | inl atFirst =>
        have done' : (nodeSprouts setting scope node).2 = none := by rw [nodeEq]
        have atTop := exists_element_of_nodeSprouts atFirst done'
        rw [nodeEq] at atTop
        exact .inl atTop
      | inr later =>
        refine .inr ?_
        rw [← forestTrees_eq_flatMap]
        exact ih later done

namespace Directive

theorem isElementTree_overTree (step : Step) (record : Value) (tree : Tree) :
    isElementTree (overTree step record tree).1 = isElementTree tree := by
  cases tree with
  | element tag attributes children =>
    rw [overTree]
    split <;> rfl
  | _ => rfl

theorem any_isElementTree_overForest (step : Step) (record : Value) (forest : List Tree) :
    (overForest step record forest).1.any isElementTree = forest.any isElementTree := by
  induction forest with
  | nil => rfl
  | cons tree rest ih =>
    have first := isElementTree_overTree step record tree
    rw [overForest]
    split
    case h_1 changed failure same => simp [← first, same]
    case h_2 changed same => simp [← first, same, ih]

theorem any_isElementTree_overSteps (record : Value) (steps : List Step) (forest : List Tree) :
    (overSteps record steps forest).1.any isElementTree = forest.any isElementTree := by
  induction steps generalizing forest with
  | nil => rfl
  | cons step rest ih =>
    have first := any_isElementTree_overForest step record forest
    rw [overSteps]
    split
    case h_1 changed failure same => rw [← first, same]
    case h_2 changed same => rw [ih, ← first, same]

end Directive

theorem any_isElementTree_trees {template : Template} {record : Value} {forest : List Tree}
    (rooted : template.hasElementRoot) (given : template.trees setting record = .ok forest) :
    forest.any isElementTree := by
  unfold Template.trees at given
  split at given
  · simp at given
  case h_2 sprouts sproutsEq =>
    split at given
    · simp at given
    case h_2 applied appliedEq =>
      rw [Except.ok.injEq] at given
      subst given
      have kept := Directive.any_isElementTree_overSteps record Directive.steps
        (Sprout.forestTrees sprouts)
      rw [← Directive.applyToForest, appliedEq] at kept
      have made := exists_element_of_forestSprouts rooted
        (congrArg Prod.snd sproutsEq : (template.sprouts setting record).2 = none)
      rw [← Template.sprouts, sproutsEq] at made
      exact kept.trans made

end Template

end LiveList
