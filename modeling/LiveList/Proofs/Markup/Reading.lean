import LiveList.Markup.Forest
import LiveList.Proofs.Markup.Printed

namespace LiveList.Markup

theorem Attributes.ofPairs_of_nodup {pairs : List (String × String)}
    (distinct : (OrderedMap.keys pairs).Nodup) : Attributes.ofPairs pairs = pairs := by
  suffices more : ∀ made : Attributes, (OrderedMap.keys (made ++ pairs)).Nodup →
      pairs.foldl (fun attributes pair => if attributes.contains pair.1 then attributes
        else attributes.put pair.1 pair.2) made = made ++ pairs from more [] distinct
  intro made distinct
  clear * - distinct
  induction pairs generalizing made with
  | nil => simp
  | cons first rest ih =>
    obtain ⟨name, value⟩ := first
    have absent : name ∉ OrderedMap.keys made := by
      simp only [OrderedMap.keys, List.map_append, List.map_cons, List.nodup_append] at distinct
      exact fun inside => distinct.2.2 name inside name List.mem_cons_self rfl
    have missing : OrderedMap.contains made name = false := by
      rw [Bool.eq_false_iff, ne_eq, OrderedMap.contains_iff]
      exact absent
    rw [List.foldl_cons]
    simp only [missing, Bool.false_eq_true, if_false, OrderedMap.put_of_not_mem absent]
    rw [ih _ (by simpa using distinct)]
    simp

namespace Growth

variable {frames : List Frame} {trees : List Tree}

theorem step_closing (tag : String) (attributes : Attributes) (before : List Tree) :
    step ⟨⟨tag, attributes, before⟩ :: frames, trees⟩ (.closing tag) =
      ⟨frames, .element tag attributes trees.reverse :: before⟩ := by
  simp [step, List.findIdx?_cons, closeMany, close]

theorem foldl_rawContent {tag : String} {children : List Tree} (content : RawContent tag children) :
    (forestTokens children).foldl step ⟨frames, trees⟩ = ⟨frames, children.reverse ++ trees⟩ := by
  rcases content with rfl | ⟨text, rfl, -⟩ <;> rfl

theorem foldl_forestTokens {forest : List Tree} (legible : LegibleForest forest) :
    (forestTokens forest).foldl step ⟨frames, trees⟩ = ⟨frames, forest.reverse ++ trees⟩ := by
  induction forest using Tree.forest_induction generalizing frames trees with
  | nil => rfl
  | text content rest ih =>
    obtain ⟨-, -, legible⟩ := legible
    change (forestTokens rest).foldl step ⟨frames, .text content :: trees⟩ = _
    rw [ih legible]
    simp
  | comment body rest ih =>
    obtain ⟨-, -, legible⟩ := legible
    change (forestTokens rest).foldl step ⟨frames, .comment body :: trees⟩ = _
    rw [ih legible]
    simp
  | element tag attributes children rest below beside =>
    obtain ⟨⟨read, content⟩, -, legible⟩ := legible
    have same := Attributes.ofPairs_of_nodup read.attributes.distinct
    rw [forestTokens, List.foldl_append, treeTokens, List.foldl_cons, step, same]
    by_cases void : isVoid tag
    · simp [void, beside legible, read.leaf void, add]
    · have inside : (forestTokens children).foldl step ⟨⟨tag, attributes, trees⟩ :: frames, []⟩ =
          ⟨⟨tag, attributes, trees⟩ :: frames, children.reverse⟩ := by
        rw [← List.append_nil children.reverse]
        split at content
        · exact foldl_rawContent content
        · exact below content
      simp only [void, Bool.or_self, Bool.false_eq_true, if_false, List.foldl_append, inside,
        List.foldl_cons, List.foldl_nil, step_closing, List.reverse_reverse, beside legible]
      simp

end Growth

theorem parse_printForest_of_legible {forest : List Tree} (legible : LegibleForest forest)
    (settled : ∀ printed ∈ Tree.forestNames false [] forest, Settled printed) :
    parse (Tree.printForest forest) = forest := by
  have tokens := Lexer.tokensFrom_forestMarkup legible settled (.inl rfl)
  rw [List.append_nil, Lexer.tokensFrom_nil, List.append_nil] at tokens
  rw [parse, Lexer.tokens, Tree.printForest, String.toList_ofList, tokens, forestOfTokens,
    Growth.foldl_forestTokens legible]
  simp [Growth.finish, Growth.closeMany]

theorem parse_printForest {forest : List Tree} (normal : NormalForest forest) :
    parse (Tree.printForest forest) = forest :=
  parse_printForest_of_legible (legibleForest_of_normal normal)
    (settled_forestNames (plainNames_of_normal normal) false [])

end LiveList.Markup
