import LiveList.Proofs.Markup.Reading

namespace LiveList.Markup

namespace Tree

def joinText (content : String) : List Tree → List Tree
  | .text more :: rest => .text (content ++ more) :: rest
  | rest => .text content :: rest

/-- Puts a tree in front of others. A text joins the one behind it, and an empty text goes. -/
def join : Tree → List Tree → List Tree
  | .text content, rest => if content = "" then rest else joinText content rest
  | tree, rest => tree :: rest

mutual

def mergedTree : Tree → Tree
  | .text content => .text content
  | .comment body => .comment body
  | .element tag attributes children => .element tag attributes (merged children)

def merged : List Tree → List Tree
  | [] => []
  | tree :: rest => join (mergedTree tree) (merged rest)

end

theorem forestMarkup_join (raw : Bool) (tree : Tree) (rest : List Tree) :
    forestMarkup raw (join tree rest) = markup raw tree ++ forestMarkup raw rest := by
  cases tree with
  | element | comment => rfl
  | text content =>
    rw [join]
    split
    case isTrue empty => cases raw <;> simp [markup, empty, escapeText]
    case isFalse =>
      unfold joinText
      split
      · cases raw <;> simp [forestMarkup, markup, escapeText_append]
      · rfl

theorem forestMarkup_merged (raw : Bool) (forest : List Tree) :
    forestMarkup raw (merged forest) = forestMarkup raw forest := by
  induction forest using forest_induction generalizing raw with
  | nil => rfl
  | text content rest ih | comment body rest ih =>
    rw [merged, forestMarkup_join, ih]
    rfl
  | element tag attributes children rest below beside =>
    rw [merged, forestMarkup_join, beside, mergedTree, markup, below]
    rfl

theorem printForest_merged (forest : List Tree) : printForest (merged forest) = printForest forest := by
  rw [printForest, forestMarkup_merged, printForest]

end Tree

structure SealedElement (tag : String) (attributes : Attributes) (children : List Tree) : Prop where
  read : ReadElement tag attributes children
  sealed : isRawText tag → RawContent tag (Tree.merged children)

def SealedForest : List Tree → Prop := Tree.EachForest SealedElement PlainComment

namespace Tree

theorem legibleForest_join {tree : Tree} {rest : List Tree}
    (legible : startsWithText [tree] = false → LegibleTree tree) (legibleRest : LegibleForest rest) :
    LegibleForest (join tree rest) := by
  cases tree with
  | element | comment => exact ⟨legible rfl, by simp [startsWithText], legibleRest⟩
  | text content =>
    rw [join]
    split
    case isTrue => exact legibleRest
    case isFalse notEmpty =>
      unfold joinText
      split
      case h_1 more rest =>
        obtain ⟨-, noText, legibleRest⟩ := legibleRest
        exact ⟨by simp [LegibleTree, notEmpty], noText, legibleRest⟩
      case h_2 noText =>
        refine ⟨notEmpty, ?_, legibleRest⟩
        intro _
        unfold startsWithText
        split
        · exact absurd rfl (noText _ _)
        · rfl

theorem legibleForest_merged {forest : List Tree} (whole : SealedForest forest) :
    LegibleForest (merged forest) := by
  induction forest using forest_induction with
  | nil => trivial
  | text content rest ih => exact legibleForest_join (by simp [mergedTree, startsWithText]) (ih whole.2)
  | comment body rest ih => exact legibleForest_join (fun _ => whole.1) (ih whole.2)
  | element tag attributes children rest below beside =>
    obtain ⟨⟨element, inside⟩, whole⟩ := whole
    refine legibleForest_join (fun _ => ⟨⟨element.read.plainTag, element.read.attributes,
      ?_⟩, ?_⟩) (beside whole)
    · intro void
      rw [element.read.leaf void]
      rfl
    · split
      case isTrue raw => exact element.sealed raw
      case isFalse => exact below inside

theorem contentMarkup_merged (tag : String) (children : List Tree) :
    contentMarkup tag (merged children) = contentMarkup tag children := by
  rw [contentMarkup, forestMarkup_merged, contentMarkup]

theorem forestNames_join (raw : Bool) (behind : List Char) (tree : Tree) (rest : List Tree) :
    forestNames raw behind (join tree rest) =
      treeNames (forestMarkup raw rest ++ behind) tree ++ forestNames raw behind rest := by
  cases tree with
  | element | comment => rfl
  | text content =>
    rw [join]
    split
    · rfl
    · unfold joinText
      split <;> rfl

theorem forestNames_merged (raw : Bool) (behind : List Char) (forest : List Tree) :
    forestNames raw behind (merged forest) = forestNames raw behind forest := by
  induction forest using forest_induction generalizing raw behind with
  | nil => rfl
  | text content rest ih | comment body rest ih =>
    rw [merged, forestNames_join, ih]
    rfl
  | element tag attributes children rest below beside =>
    rw [merged, forestNames_join, beside, forestMarkup_merged, mergedTree, treeNames,
      contentMarkup_merged, below]
    rfl

end Tree

/-- Reading undoes printing, up to texts that are empty or stand side by side. -/
theorem parse_printForest_of_sealed {forest : List Tree} (whole : SealedForest forest)
    (settled : ∀ printed ∈ Tree.forestNames false [] forest, Settled printed) :
    parse (Tree.printForest forest) = Tree.merged forest := by
  rw [← Tree.forestNames_merged] at settled
  rw [← Tree.printForest_merged,
    parse_printForest_of_legible (Tree.legibleForest_merged whole) settled]

def PlainForest : List Tree → Prop :=
  Tree.EachForest (fun tag attributes children =>
    PlainElement tag attributes children ∧ isRawText tag = false) PlainComment

theorem parse_printForest_of_plain {forest : List Tree} (plain : PlainForest forest) :
    parse (Tree.printForest forest) = Tree.merged forest := by
  have whole : SealedForest forest := plain.imp (fun _ _ _ ⟨element, notRaw⟩ =>
    ⟨element.read, fun raw => by simp [notRaw] at raw⟩) fun _ => id
  have names : PlainNames forest :=
    plain.imp (fun _ _ _ ⟨element, _⟩ => element.attributes.names) fun _ _ => trivial
  exact parse_printForest_of_sealed whole (settled_forestNames names false [])

end LiveList.Markup
