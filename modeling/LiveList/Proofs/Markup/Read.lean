import LiveList.Proofs.Markup.Reading
import Mathlib.Data.List.TakeWhile

namespace LiveList.Markup

def Token.Read : Token → Prop
  | .opening tag attributes _ => PlainTag tag ∧ ∀ pair ∈ attributes, ReadName pair.1
  | .comment body => PlainComment body
  | .text content => content ≠ ""
  | .closing _ => True

theorem decode_ne_nil {text : List Char} (notEmpty : text ≠ []) : decode text ≠ [] := by
  obtain ⟨c, rest, rfl⟩ := List.exists_cons_of_ne_nil notEmpty
  rw [decode]
  split
  · split <;> simp
  · simp

namespace Lexer

variable {text : List Char} {c : Char}

theorem spanUnquoted_closed (stop : Char → Bool) (text : List Char)
    (bare : ¬ braces <:+: (spanUnquoted stop text).1) :
    ∀ c ∈ (spanUnquoted stop text).1, stop c = false := by
  fun_induction spanUnquoted stop text with
  | case1 => simp
  | case2 c rest run behind read _ more last same ih =>
    -- A run starts with the braces.
    refine absurd ?_ bare
    unfold readBraces at read
    split at read
    · cases read
    · obtain ⟨⟨body, _⟩, -, parts⟩ := Option.map_eq_some_iff.1 read
      cases parts
      exact ⟨[], body ++ ['\x7d', '\x7d'] ++ more, by simp [braces]⟩
  | case3 => simp
  | case4 c rest _ passes more last same ih =>
    rw [same] at ih
    have bareMore : ¬ braces <:+: more := fun inside =>
      bare (inside.trans (List.suffix_cons c more).isInfix)
    intro d inside
    rcases List.mem_cons.1 inside with rfl | later
    · simpa using passes
    · exact ih bareMore d later

theorem endsName_lowerLetter (c : Char) : endsName (Text.lowerLetter c) = endsName c :=
  Text.apply_lowerLetter (by decide) c

theorem endsTag_lowerLetter (c : Char) : endsTag (Text.lowerLetter c) = endsTag c :=
  Text.apply_lowerLetter (by decide) c

theorem lowerName_lowerName (name : List Char) : lowerName (lowerName name) = lowerName name := by
  simp [lowerName, Text.lowerLetter_lowerLetter]

theorem lowerLetter_eq_brace : Text.lowerLetter c = '\x7b' ↔ c = '\x7b' := by
  have same := Text.apply_lowerLetter (p := (· == '\x7b')) (by decide) c
  rwa [Bool.eq_iff_iff, beq_iff_eq, beq_iff_eq] at same

theorem not_infix_lowerName {name : List Char} (bare : ¬ braces <:+: name) :
    ¬ braces <:+: lowerName name := by
  intro inside
  obtain ⟨run, there, same⟩ := List.infix_map_iff.1 inside
  obtain ⟨c, d, rfl⟩ := List.length_eq_two.1 (show run.length = 2 by
    simpa [braces] using (congrArg List.length same).symm)
  simp only [braces, List.map_cons, List.map_nil, List.cons.injEq, and_true] at same
  obtain rfl := lowerLetter_eq_brace.1 same.1.symm
  obtain rfl := lowerLetter_eq_brace.1 same.2.symm
  exact bare there

theorem plainName_lowerName {name : List Char} (notEmpty : name ≠ [])
    (closed : ∀ c ∈ name, endsName c = false) (bare : ¬ braces <:+: name) :
    PlainName (String.ofList (lowerName name)) := by
  refine ⟨fun empty => notEmpty ?_, ?_, ?_, ?_⟩
  · simpa [lowerName] using String.toList_eq_nil_iff.2 empty
  · rw [String.toList_ofList, lowerName_lowerName]
  · intro c inside
    rw [String.toList_ofList, lowerName, List.mem_map] at inside
    obtain ⟨d, inName, rfl⟩ := inside
    rw [endsName_lowerLetter, closed d inName]
  · rw [String.toList_ofList]
    exact not_infix_lowerName bare

theorem readName_attributeName {text : List Char} (named : (spanUnquoted endsName text).1 ≠ []) :
    ReadName (attributeName (spanUnquoted endsName text).1) := by
  have closed := spanUnquoted_closed endsName text
  have whole := spanUnquoted_fst endsName text
  generalize (spanUnquoted endsName text).1 = name at named closed whole
  by_cases braced : (Text.breakOn ['\x7b', '\x7b'] name).isSome
  · have kept : attributeName name = String.ofList name := by rw [attributeName, if_pos braced]
    rw [kept]
    refine ⟨fun empty => named (by simpa using String.toList_eq_nil_iff.2 empty), ?_, ?_⟩
    · rw [String.toList_ofList, kept]
    · rw [String.toList_ofList, whole]
  · have bare : ¬ braces <:+: name := Text.breakOn_eq_none.1 (by simpa [braces] using braced)
    rw [attributeName, if_neg braced]
    exact (plainName_lowerName named (closed bare) bare).read

theorem plainName_of_read {name : String} (read : ReadName name)
    (bare : ¬ braces <:+: name.toList) : PlainName name := by
  have closed := spanUnquoted_closed endsName name.toList
  rw [read.whole] at closed
  have plain := plainName_lowerName (fun empty => read.ne_empty (String.toList_eq_nil_iff.1 empty))
    (closed bare) bare
  have absent : Text.breakOn ['\x7b', '\x7b'] name.toList = none := Text.breakOn_eq_none.2 bare
  have kept : String.ofList (lowerName name.toList) = name := by
    simpa [attributeName, absent] using read.kept
  rwa [kept] at plain

theorem readAttributes_read (text : List Char) :
    ∀ pair ∈ (readAttributes text).attributes, ReadName pair.1 := by
  fun_induction readAttributes text with
  | case1 | case2 | case3 => simp
  | case4 => assumption
  | case5 => assumption
  | case6 text c rest _ _ _ _ _ _ _ first more named ih =>
    intro pair inside
    rcases List.mem_cons.1 inside with rfl | later
    · exact readName_attributeName named
    · exact ih pair later

theorem readOpening_read (letter : Text.isLetter c) (rest : List Char) :
    (readOpening (c :: rest)).1.Read := by
  have opens : (!endsTag c) = true := by
    rw [Bool.not_eq_true', Bool.eq_false_iff]
    intro stops
    simp only [endsTag, Bool.or_eq_true, beq_iff_eq] at stops
    rcases stops with (blank | rfl) | rfl
    · rw [Text.isBlank_of_isLetter letter] at blank
      cases blank
    · exact absurd letter (by decide)
    · exact absurd letter (by decide)
  refine ⟨⟨⟨Text.lowerLetter c, lowerName (rest.takeWhile (!endsTag ·)), ?_, ?_⟩, ?_,
    ?_⟩, readAttributes_read _⟩
  · rw [String.toList_ofList, List.takeWhile_cons, opens]
    rfl
  · rw [Text.isLetter_lowerLetter, letter]
  · rw [String.toList_ofList, lowerName_lowerName]
  · intro d inside
    rw [String.toList_ofList, lowerName, List.mem_map] at inside
    obtain ⟨e, inTag, rfl⟩ := inside
    have passes := List.mem_takeWhile_imp inTag
    rw [endsTag_lowerLetter]
    simpa using passes

theorem readComment_read (text : List Char) : (readComment text).1.Read := by
  unfold readComment
  cases found : Text.breakOn "-->".toList text with
  | none =>
    have absent := Text.breakOn_eq_none.1 found
    simpa [Token.Read, PlainComment] using absent
  | some parts =>
    obtain ⟨body, behind⟩ := parts
    have absent := Text.not_infix_of_breakOn (by decide) found
    simpa [Token.Read, PlainComment] using absent

theorem step_read (raw : Option String) (text : List Char) :
    ∀ token ∈ (step raw text).token, token.Read := by
  unfold step
  split
  · intro token yielded
    dsimp only at yielded
    split at yielded
    · cases yielded
    case isFalse notEmpty =>
      cases yielded
      exact fun empty => notEmpty (String.ofList_eq_empty_iff.1 empty)
  · split
    · rintro _ ⟨⟩
      exact readComment_read _
    · rintro _ ⟨⟩
    · rintro _ ⟨⟩
    · rintro _ ⟨⟩
      trivial
    · rintro _ ⟨⟩
    · split
      case h_6.isTrue opens =>
        rintro _ ⟨⟩
        unfold opensTag at opens
        split at opens
        case h_1 c rest same =>
          obtain ⟨-, rfl⟩ := List.cons.inj same
          exact readOpening_read opens rest
        case h_2 => cases opens
      · rintro _ ⟨⟩
        exact fun empty => decode_ne_nil (List.cons_ne_nil _ _) (String.ofList_eq_empty_iff.1 empty)

theorem tokensFrom_read (raw : Option String) (text : List Char) :
    ∀ token ∈ tokensFrom raw text, token.Read := by
  fun_induction tokensFrom raw text with
  | case1 => simp
  | case2 raw text _ _ next ih =>
    intro token inside
    cases List.mem_append.1 inside with
    | inl first =>
      exact step_read raw text token (Option.mem_toList.1 first)
    | inr later =>
      exact ih token later

end Lexer

def ReadForest : List Tree → Prop := Tree.EachForest ReadElement PlainComment

structure Frame.Read (frame : Frame) : Prop where
  plainTag : PlainTag frame.tag
  attributes : NamedBy ReadName frame.attributes
  notVoid : isVoid frame.tag = false
  before : ReadForest frame.before

structure Growth.Read (growth : Growth) : Prop where
  frames : ∀ frame ∈ growth.frames, frame.Read
  trees : ReadForest growth.trees

namespace Growth.Read

variable {growth : Growth}

theorem close (read : growth.Read) : growth.close.Read := by
  obtain ⟨frames, trees⟩ := growth
  cases frames with
  | nil => exact read
  | cons frame rest =>
    have open' := read.frames frame List.mem_cons_self
    refine ⟨fun other inside => read.frames other (List.mem_cons_of_mem _ inside),
      ⟨⟨open'.plainTag, open'.attributes, ?_⟩, ?_⟩, open'.before⟩
    · intro void
      rw [open'.notVoid] at void
      cases void
    · exact Tree.eachForest_reverse.2 read.trees

theorem closeMany (read : growth.Read) (n : Nat) : (growth.closeMany n).Read := by
  induction n generalizing growth with
  | zero => exact read
  | succ n ih => exact ih read.close

theorem step (read : growth.Read) {token : Token} (sound : token.Read) : (growth.step token).Read := by
  cases token with
  | text content => exact ⟨read.frames, trivial, read.trees⟩
  | comment body => exact ⟨read.frames, sound, read.trees⟩
  | closing tag =>
    unfold Growth.step
    dsimp only
    split
    · exact read.closeMany _
    · exact read
  | opening tag attributes selfClosing =>
    obtain ⟨plainTag, names⟩ := sound
    have made := NamedBy.ofPairs names
    unfold Growth.step
    dsimp only
    split
    case isTrue => exact ⟨read.frames, ⟨⟨plainTag, made, fun _ => rfl⟩, trivial⟩, read.trees⟩
    case isFalse remains =>
      have notVoid : isVoid tag = false := by
        rw [Bool.or_eq_true, not_or, Bool.not_eq_true, Bool.not_eq_true] at remains
        exact remains.2
      refine ⟨?_, trivial⟩
      intro frame inside
      rcases List.mem_cons.1 inside with rfl | old
      · exact ⟨plainTag, made, notVoid, read.trees⟩
      · exact read.frames frame old

end Growth.Read

theorem readForest_parse (markup : String) : ReadForest (parse markup) := by
  have sound := Lexer.tokensFrom_read none markup.toList
  suffices grown : ∀ growth : Growth, growth.Read →
      ((Lexer.tokens markup).foldl Growth.step growth).Read by
    have read := grown ⟨[], []⟩ ⟨by simp, trivial⟩
    exact Tree.eachForest_reverse.2 (read.closeMany _).trees
  rw [Lexer.tokens]
  generalize Lexer.tokensFrom none markup.toList = tokens at sound
  intro growth read
  induction tokens generalizing growth with
  | nil => exact read
  | cons token rest ih =>
    exact ih (fun other inside => sound other (List.mem_cons_of_mem _ inside)) _
      (read.step (sound token List.mem_cons_self))

namespace Tree

mutual

def treeTexts : Tree → List String
  | .text content => [content]
  | .comment _ => []
  | .element _ _ children => forestTexts children

def forestTexts : List Tree → List String
  | [] => []
  | tree :: rest => treeTexts tree ++ forestTexts rest

end

theorem mem_forestTexts_iff {content : String} {forest : List Tree} :
    content ∈ forestTexts forest ↔ ∃ tree ∈ forest, content ∈ treeTexts tree := by
  induction forest with
  | nil => simp [forestTexts]
  | cons tree rest ih => simp [forestTexts, ih]

theorem mem_forestTexts_reverse {content : String} {forest : List Tree} :
    content ∈ forestTexts forest.reverse ↔ content ∈ forestTexts forest := by
  simp [mem_forestTexts_iff]

end Tree

namespace Growth

variable {growth : Growth} {content : String}

def texts (growth : Growth) : List String :=
  Tree.forestTexts growth.trees ++ growth.frames.flatMap fun frame => Tree.forestTexts frame.before

theorem mem_texts_close (inside : content ∈ growth.close.texts) : content ∈ growth.texts := by
  obtain ⟨frames, trees⟩ := growth
  cases frames with
  | nil => exact inside
  | cons frame rest =>
    simp only [close, texts, Tree.forestTexts, Tree.treeTexts, List.mem_append, List.flatMap_cons,
      Tree.mem_forestTexts_reverse] at inside ⊢
    tauto

theorem mem_texts_closeMany (n : Nat) (inside : content ∈ (growth.closeMany n).texts) :
    content ∈ growth.texts := by
  induction n generalizing growth with
  | zero => exact inside
  | succ n ih => exact mem_texts_close (ih inside)

theorem mem_texts_step {token : Token} (inside : content ∈ (growth.step token).texts) :
    content ∈ growth.texts ∨ token = .text content := by
  cases token with
  | text other =>
    simp only [step, add, texts, Tree.forestTexts, Tree.treeTexts, List.mem_append,
      List.mem_singleton] at inside ⊢
    rcases inside with (rfl | old) | old
    · exact .inr rfl
    · exact .inl (.inl old)
    · exact .inl (.inr old)
  | comment body => exact .inl inside
  | closing tag =>
    unfold step at inside
    dsimp only at inside
    split at inside
    · exact .inl (mem_texts_closeMany _ inside)
    · exact .inl inside
  | opening tag attributes selfClosing =>
    unfold step at inside
    dsimp only at inside
    split at inside
    · exact .inl inside
    · exact .inl (by simpa [texts, Tree.forestTexts, or_comm] using inside)

theorem mem_texts_foldl {tokens : List Token}
    (inside : content ∈ (tokens.foldl step growth).texts) :
    content ∈ growth.texts ∨ .text content ∈ tokens := by
  induction tokens generalizing growth with
  | nil => exact .inl inside
  | cons token rest ih =>
    rcases ih inside with stepped | later
    · exact (mem_texts_step stepped).imp_right fun (same : token = _) => same ▸ List.mem_cons_self
    · exact .inr (List.mem_cons_of_mem _ later)

end Growth

theorem text_mem_tokens {markup content : String}
    (inside : content ∈ Tree.forestTexts (parse markup)) : .text content ∈ Lexer.tokens markup := by
  rw [parse, forestOfTokens, Growth.finish, Tree.mem_forestTexts_reverse] at inside
  have closed := Growth.mem_texts_closeMany _ (List.mem_append_left _ inside)
  rcases Growth.mem_texts_foldl closed with none | token
  · cases none
  · exact token

theorem ne_empty_of_mem_texts {markup content : String}
    (inside : content ∈ Tree.forestTexts (parse markup)) : content ≠ "" :=
  Lexer.tokensFrom_read none markup.toList _ (text_mem_tokens inside)

end LiveList.Markup
