import LiveList.Markup.Tokens
import LiveList.Proofs.Markup.Attributes
import LiveList.Proofs.Markup.Trees

/-!
# Reading printed markup

Trees in normal form print markup whose tokens are again those trees: every step of the lexer stops
at the bracket that was printed behind what it reads. Trees that were read are legible in the same
way, unless a name in them leaves braces open that are closed behind it. Main statement: the tokens
of the markup of legible trees, whatever opens behind it.
-/

namespace LiveList.Markup

structure PlainTag (tag : String) : Prop where
  letter : ∃ c tail, tag.toList = c :: tail ∧ Text.isLetter c
  lower : lowerName tag.toList = tag.toList
  closed : ∀ c ∈ tag.toList, Lexer.endsTag c = false

theorem plainTag_of_all {tag : String} {c : Char} {tail : List Char}
    (chars : tag.toList = c :: tail) (letter : Text.isLetter c)
    (all : tag.toList.all (fun c => Text.lowerLetter c == c && !Lexer.endsTag c) = true) :
    PlainTag tag := by
  rw [List.all_eq_true] at all
  simp only [Bool.and_eq_true, beq_iff_eq, Bool.not_eq_true'] at all
  exact ⟨⟨c, tail, chars, letter⟩, lowerName_eq_self fun c inside => (all c inside).1,
    fun c inside => (all c inside).2⟩

structure PlainElement (tag : String) (attributes : Attributes) (children : List Tree) : Prop where
  plainTag : PlainTag tag
  attributes : NamedBy PlainName attributes
  leaf : isVoid tag → children = []

def PlainComment (body : String) : Prop := ¬ "-->".toList <:+: body.toList

def RawContent (tag : String) (children : List Tree) : Prop :=
  children = [] ∨ ∃ content, children = [.text content] ∧ content ≠ "" ∧
    ∀ left right, content.toList = left ++ right →
      Lexer.startsFolded (['<', '/'] ++ tag.toList) right = false

def startsWithText : List Tree → Bool
  | .text _ :: _ => true
  | _ => false

mutual

/-- A tree that its own markup reads as. -/
def NormalTree : Tree → Prop
  | .text content => content ≠ ""
  | .comment body => PlainComment body
  | .element tag attributes children => PlainElement tag attributes children ∧
      if isRawText tag then RawContent tag children else NormalForest children

def NormalForest : List Tree → Prop
  | [] => True
  | tree :: rest => NormalTree tree ∧ (startsWithText [tree] → startsWithText rest = false) ∧
      NormalForest rest

end

structure ReadElement (tag : String) (attributes : Attributes) (children : List Tree) : Prop where
  plainTag : PlainTag tag
  attributes : NamedBy ReadName attributes
  leaf : isVoid tag → children = []

theorem PlainElement.read {tag : String} {attributes : Attributes} {children : List Tree}
    (plain : PlainElement tag attributes children) : ReadElement tag attributes children :=
  ⟨plain.plainTag, ⟨fun name inside => (plain.attributes.names name inside).read,
    plain.attributes.distinct⟩, plain.leaf⟩

mutual

/-- A tree that its own markup reads as, if its names are settled there. -/
def LegibleTree : Tree → Prop
  | .text content => content ≠ ""
  | .comment body => PlainComment body
  | .element tag attributes children => ReadElement tag attributes children ∧
      if isRawText tag then RawContent tag children else LegibleForest children

def LegibleForest : List Tree → Prop
  | [] => True
  | tree :: rest => LegibleTree tree ∧ (startsWithText [tree] → startsWithText rest = false) ∧
      LegibleForest rest

end

namespace Tree

def contentMarkup (tag : String) (children : List Tree) : List Char :=
  if isVoid tag then [] else forestMarkup (isRawText tag) children ++ closingMarkup tag

mutual

def treeNames (behind : List Char) : Tree → List (String × List Char)
  | .text _ | .comment _ => []
  | .element tag attributes children =>
    attributes.printedNames ('>' :: (contentMarkup tag children ++ behind)) ++
      forestNames (isRawText tag) (closingMarkup tag ++ behind) children

def forestNames (raw : Bool) (behind : List Char) : List Tree → List (String × List Char)
  | [] => []
  | tree :: rest => treeNames (forestMarkup raw rest ++ behind) tree ++ forestNames raw behind rest

end

end Tree

theorem legibleForest_of_normal {forest : List Tree} (normal : NormalForest forest) :
    LegibleForest forest := by
  induction forest using Tree.forest_induction with
  | nil => trivial
  | text content rest ih | comment body rest ih =>
    obtain ⟨here, noText, normal⟩ := normal
    exact ⟨here, noText, ih normal⟩
  | element tag attributes children rest below beside =>
    obtain ⟨⟨plain, content⟩, noText, normal⟩ := normal
    refine ⟨⟨plain.read, ?_⟩, noText, beside normal⟩
    by_cases raw : isRawText tag
    · rwa [if_pos raw] at content ⊢
    · rw [if_neg raw] at content ⊢
      exact below content

theorem settled_printedNames {attributes : Attributes}
    (plain : ∀ name ∈ OrderedMap.keys attributes, PlainName name) (behind : List Char) :
    ∀ printed ∈ attributes.printedNames behind, Settled printed := by
  induction attributes with
  | nil => simp [Attributes.printedNames]
  | cons first more ih =>
    obtain ⟨name, value⟩ := first
    intro printed inside
    cases inside with
    | head => exact (plain name List.mem_cons_self).settled _
    | tail _ later => exact ih (fun other known => plain other (List.mem_cons_of_mem _ known)) printed later

def PlainNames : List Tree → Prop :=
  Tree.EachForest (fun _ attributes _ => ∀ name ∈ OrderedMap.keys attributes, PlainName name)
    fun _ => True

theorem settled_forestNames {forest : List Tree} (plain : PlainNames forest) (raw : Bool)
    (behind : List Char) : ∀ printed ∈ Tree.forestNames raw behind forest, Settled printed := by
  induction forest using Tree.forest_induction generalizing raw behind with
  | nil => simp [Tree.forestNames]
  | text content rest ih | comment body rest ih => exact ih plain.2 raw behind
  | element tag attributes children rest below beside =>
    obtain ⟨⟨names, plainBelow⟩, plainBeside⟩ := plain
    intro printed inside
    rw [Tree.forestNames, Tree.treeNames, List.mem_append, List.mem_append] at inside
    rcases inside with (here | under) | later
    · exact settled_printedNames names _ printed here
    · exact below plainBelow _ _ printed under
    · exact beside plainBeside _ _ printed later

theorem plainNames_of_normal {forest : List Tree} (normal : NormalForest forest) :
    PlainNames forest := by
  induction forest using Tree.forest_induction with
  | nil => trivial
  | text content rest ih | comment body rest ih => exact ⟨trivial, ih normal.2.2⟩
  | element tag attributes children rest below beside =>
    obtain ⟨⟨plain, content⟩, -, normal⟩ := normal
    refine ⟨⟨plain.attributes.names, ?_⟩, beside normal⟩
    split at content
    · rcases content with rfl | ⟨text, rfl, -⟩
      · trivial
      · exact ⟨trivial, trivial⟩
    · exact below content

mutual

def treeTokens : Tree → List Token
  | .text content => [.text content]
  | .comment body => [.comment body]
  | .element tag attributes children => .opening tag attributes false ::
      if isVoid tag then [] else forestTokens children ++ [.closing tag]

def forestTokens : List Tree → List Token
  | [] => []
  | tree :: rest => treeTokens tree ++ forestTokens rest

end

namespace Lexer

variable {tag : String} {text rest behind : List Char} {c : Char}

theorem tokensFrom_nil (raw : Option String) : tokensFrom raw [] = [] := by
  rw [tokensFrom, dif_pos rfl]

theorem tokensFrom_of_ne_nil (raw : Option String) (notNil : text ≠ []) :
    tokensFrom raw text = (step raw text).token.toList ++
      tokensFrom (step raw text).raw (step raw text).rest := by
  rw [tokensFrom, dif_neg notNil]

/-! ## Tags -/

theorem takeWhile_append_of_stop {p : Char → Bool} {name : List Char} (all : ∀ d ∈ name, p d)
    (stops : p c = false) (rest : List Char) : (name ++ c :: rest).takeWhile p = name := by
  rw [List.takeWhile_append_of_pos all, List.takeWhile_cons, stops]
  simp

theorem dropWhile_append_of_stop {p : Char → Bool} {name : List Char} (all : ∀ d ∈ name, p d)
    (stops : p c = false) (rest : List Char) : (name ++ c :: rest).dropWhile p = c :: rest := by
  rw [List.dropWhile_append_of_pos all, List.dropWhile_cons, stops]
  simp

theorem readOpening_append {tag : List Char} (closed : ∀ c ∈ tag, endsTag c = false)
    (stops : endsTag c) (rest : List Char) :
    readOpening (tag ++ c :: rest) =
      (.opening (String.ofList (lowerName tag)) (readAttributes (c :: rest)).attributes
        (readAttributes (c :: rest)).selfClosing, (readAttributes (c :: rest)).rest) := by
  have all : ∀ c ∈ tag, (!endsTag c) = true := fun c inside => by simp [closed c inside]
  rw [readOpening, takeWhile_append_of_stop all (by simp [stops]),
    dropWhile_append_of_stop all (by simp [stops])]

theorem step_of_letter (letter : Text.isLetter c) (rest : List Char) :
    step none ('<' :: c :: rest) = .yield (readOpening (c :: rest)) := by
  have notMark : c ≠ '!' ∧ c ≠ '?' ∧ c ≠ '/' := by
    refine ⟨?_, ?_, ?_⟩ <;> rintro rfl <;> exact absurd letter (by decide)
  obtain ⟨notBang, notQuery, notSlash⟩ := notMark
  unfold step
  split
  case h_1 same => cases same
  case h_2 =>
    split
    case h_6 d last _ _ _ _ same =>
      obtain ⟨rfl, rfl⟩ := List.cons.inj same
      simp [opensTag, letter]
    all_goals simp_all

theorem tokensFrom_opening {attributes : Attributes} (plain : PlainTag tag)
    (read : ∀ name ∈ OrderedMap.keys attributes, ReadName name)
    (settled : ∀ printed ∈ attributes.printedNames ('>' :: rest), Settled printed) :
    tokensFrom none (openingMarkup tag attributes ++ rest) =
      .opening tag attributes false ::
        tokensFrom (if isRawText tag then some tag else none) rest := by
  obtain ⟨c, tail, chars, letter⟩ := plain.letter
  obtain ⟨d, last, ends, stops⟩ : ∃ d last,
      attributes.flatMap attributeMarkup ++ '>' :: rest = d :: last ∧ endsTag d := by
    cases attributes with
    | nil => exact ⟨'>', rest, rfl, by decide⟩
    | cons first more => exact ⟨' ', _, rfl, by decide⟩
  have readTag : readOpening (tag.toList ++ (attributes.flatMap attributeMarkup ++ '>' :: rest)) =
      (.opening tag attributes false, rest) := by
    have behind := readAttributes_printed read settled
    rw [ends] at behind ⊢
    rw [readOpening_append plain.closed stops, behind, plain.lower, String.ofList_toList]
  have whole : openingMarkup tag attributes ++ rest =
      '<' :: (tag.toList ++ (attributes.flatMap attributeMarkup ++ '>' :: rest)) := by
    simp [openingMarkup]
  rw [whole, tokensFrom_of_ne_nil none (by simp)]
  rw [chars, List.cons_append] at readTag ⊢
  rw [step_of_letter letter, readTag]
  simp [Step.yield, rawBehind]

theorem tokensFrom_closing (plain : PlainTag tag) (rest : List Char) :
    tokensFrom none (closingMarkup tag ++ rest) = .closing tag :: tokensFrom none rest := by
  have all : ∀ c ∈ tag.toList, (!endsValue c) = true := fun c inside => by
    have closed := plain.closed c inside
    simp only [endsTag, Bool.or_eq_false_iff] at closed
    simp [endsValue, closed.1.1, closed.1.2]
  have read : readClosing (tag.toList ++ '>' :: rest) = (.closing tag, rest) := by
    rw [readClosing, takeWhile_append_of_stop all (by decide),
      dropWhile_append_of_stop all (by decide), plain.lower, String.ofList_toList]
    simp [behindBracket, Text.cut]
  have stepped : step none ('<' :: '/' :: (tag.toList ++ '>' :: rest)) =
      .yield (readClosing (tag.toList ++ '>' :: rest)) := rfl
  have whole : closingMarkup tag ++ rest = '<' :: '/' :: (tag.toList ++ '>' :: rest) := by
    simp [closingMarkup]
  rw [whole, tokensFrom_of_ne_nil none (by simp), stepped, read]
  simp [Step.yield, rawBehind]

/-! ## Comments, texts and raw text -/

theorem readComment_printed {body : String} (plain : PlainComment body) (rest : List Char) :
    readComment (body.toList ++ ("-->".toList ++ rest)) = (.comment body, rest) := by
  have found : Text.breakOn "-->".toList (body.toList ++ ("-->".toList ++ rest)) =
      some (body.toList, rest) := by
    apply Text.breakOn_append rest
    intro left right split notNil there
    obtain ⟨more, whole⟩ := there
    -- The end of the comment would stand in the body or across its end.
    match right, split, whole with
    | [a], _, whole => simp at whole
    | [a, b], _, whole => simp at whole
    | a :: b :: c :: tail, split, whole =>
      simp only [String.reduceToList, List.cons_append, List.nil_append, List.cons.injEq] at whole
      obtain ⟨rfl, rfl, rfl, -⟩ := whole
      exact plain ⟨left, tail, by rw [split]; simp⟩
  rw [readComment, found]
  simp

theorem tokensFrom_comment {body : String} (plain : PlainComment body) (rest : List Char) :
    tokensFrom none (commentMarkup body ++ rest) = .comment body :: tokensFrom none rest := by
  have stepped : step none ('<' :: '!' :: '-' :: '-' :: (body.toList ++ ("-->".toList ++ rest))) =
      .yield (readComment (body.toList ++ ("-->".toList ++ rest))) := rfl
  have whole : commentMarkup body ++ rest =
      '<' :: '!' :: '-' :: '-' :: (body.toList ++ ("-->".toList ++ rest)) := by
    simp [commentMarkup]
  rw [whole, tokensFrom_of_ne_nil none (by simp), stepped, readComment_printed plain]
  simp [Step.yield, rawBehind]

def Opens (text : List Char) : Prop := text = [] ∨ opensMarkup text

theorem spanText_append_of_opens {content : List Char} (noBracket : '<' ∉ content)
    (opens : Opens behind) : spanText (content ++ behind) = (content, behind) := by
  induction content with
  | nil =>
    rcases opens with rfl | opens
    · rfl
    · cases behind with
      | nil => rfl
      | cons d rest => simp [spanText, opens]
  | cons c content ih =>
    obtain ⟨differ, noBracket⟩ := by simpa using noBracket
    have closed : opensMarkup (c :: (content ++ behind)) = false := by
      unfold opensMarkup
      split
      case h_1 same => exact absurd (List.cons.inj same).1.symm differ
      case h_2 => rfl
    simp [spanText, closed, ih noBracket]

theorem step_text (notBracket : c ≠ '<') (rest : List Char) :
    step none (c :: rest) =
      ⟨some (.text (String.ofList (decode (c :: (spanText rest).1)))), none, (spanText rest).2⟩ := by
  unfold step
  split
  case h_1 same => cases same
  case h_2 =>
    split
    case h_6 d last _ _ _ _ same =>
      obtain ⟨rfl, rfl⟩ := List.cons.inj same
      have closed : opensTag (c :: rest) = false := by
        unfold opensTag
        split
        case h_1 same => exact absurd (List.cons.inj same).1 notBracket
        case h_2 => rfl
      simp [closed, Step.yield, rawBehind]
    all_goals simp_all

theorem tokensFrom_text {content : String} (notEmpty : content ≠ "") (opens : Opens behind) :
    tokensFrom none (escapeText content.toList ++ behind) =
      .text content :: tokensFrom none behind := by
  have decoded := decode_escapeText content.toList
  have noBracket := not_mem_escapeText (.inl rfl) content.toList
  cases escaped : escapeText content.toList with
  | nil =>
    rw [escapeText_eq_nil, String.toList_eq_nil_iff] at escaped
    exact absurd escaped notEmpty
  | cons c rest =>
    rw [escaped] at decoded noBracket
    obtain ⟨differ, noBracket⟩ := by simpa using noBracket
    rw [List.cons_append, tokensFrom_of_ne_nil none (by simp), step_text (Ne.symm differ),
      spanText_append_of_opens noBracket opens, decoded, String.ofList_toList]
    rfl

theorem startsFolded_lower {pattern : List Char} (lower : lowerName pattern = pattern)
    (rest : List Char) : startsFolded pattern (pattern ++ rest) = true := by
  induction pattern with
  | nil => rfl
  | cons p pattern ih =>
    obtain ⟨first, lower⟩ := List.cons.inj lower
    simp [startsFolded, first, ih lower]

theorem startsFolded_append {pattern first rest : List Char}
    (starts : startsFolded pattern (first ++ rest)) :
    startsFolded pattern first ∨ ∃ left right, pattern = left ++ right ∧ right ≠ [] ∧
      left.length = first.length ∧ startsFolded right rest := by
  induction first generalizing pattern with
  | nil =>
    cases pattern with
    | nil => exact .inl rfl
    | cons p pattern => exact .inr ⟨[], p :: pattern, rfl, by simp, rfl, starts⟩
  | cons c first ih =>
    cases pattern with
    | nil => exact .inl rfl
    | cons p pattern =>
      rw [List.cons_append, startsFolded, Bool.and_eq_true] at starts
      rcases ih starts.2 with inside | ⟨left, right, rfl, notNil, same, behind⟩
      · exact .inl (by simp [startsFolded, starts.1, inside])
      · exact .inr ⟨p :: left, right, rfl, notNil, by simp [same], behind⟩

theorem spanRaw_printed {tag content : List Char} (lower : lowerName tag = tag)
    (noBracket : '<' ∉ tag) (rest : List Char)
    (held : ∀ left right, content = left ++ right →
      startsFolded (['<', '/'] ++ tag) right = false) :
    spanRaw tag (content ++ (['<', '/'] ++ tag ++ rest)) = (content, ['<', '/'] ++ tag ++ rest) := by
  induction content with
  | nil =>
    have lower : lowerName (['<', '/'] ++ tag) = ['<', '/'] ++ tag := by
      simpa [lowerName] using ⟨by decide, by decide, lower⟩
    have starts := startsFolded_lower lower rest
    simp only [List.cons_append, List.nil_append] at starts ⊢
    simp [spanRaw, starts]
  | cons c content ih =>
    have notHere : startsFolded (['<', '/'] ++ tag)
        (c :: (content ++ (['<', '/'] ++ tag ++ rest))) = false := by
      rw [Bool.eq_false_iff]
      intro starts
      rw [← List.cons_append] at starts
      rcases startsFolded_append starts with inside | ⟨left, right, whole, notNil, same, behind⟩
      · rw [held [] (c :: content) rfl] at inside
        cases inside
      · -- the pattern would hold the bracket of the end tag once more
        obtain ⟨p, right, rfl⟩ := List.exists_cons_of_ne_nil notNil
        obtain ⟨q, left, rfl⟩ := List.exists_cons_of_ne_nil
          (show left ≠ [] from fun none => by simp [none] at same)
        simp only [List.cons_append, startsFolded, Bool.and_eq_true, beq_iff_eq] at behind
        obtain ⟨-, tail⟩ := List.cons.inj whole
        have inTail : '<' ∈ '/' :: tag := by
          have atP : p = '<' := behind.1.symm
          change '/' :: tag = left ++ p :: right at tail
          rw [tail, atP]
          simp
        exact noBracket (by simpa using inTail)
    rw [List.cons_append, spanRaw, notHere,
      ih fun left right split => held (c :: left) right (by rw [split]; rfl)]
    rfl

theorem isRawText_of_isVoid (void : isVoid tag) : isRawText tag = false := by
  rw [isVoid, List.contains_iff_mem] at void
  simp only [voidTags, List.mem_cons, List.not_mem_nil, or_false] at void
  rcases void with rfl | rfl | rfl | rfl | rfl | rfl | rfl | rfl | rfl | rfl | rfl | rfl | rfl | rfl <;>
    decide

theorem not_mem_rawTag (raw : isRawText tag) : '<' ∉ tag.toList := by
  rw [isRawText, List.contains_iff_mem] at raw
  simp only [rawTextTags, List.mem_cons, List.not_mem_nil, or_false] at raw
  rcases raw with rfl | rfl <;> decide

theorem opens_closing (tag : String) (rest : List Char) : Opens (closingMarkup tag ++ rest) :=
  .inr rfl

theorem tokensFrom_rawContent {children : List Tree} (plain : PlainTag tag) (raw : isRawText tag)
    (content : RawContent tag children) (rest : List Char) :
    tokensFrom (some tag) (Tree.forestMarkup true children ++ (closingMarkup tag ++ rest)) =
      forestTokens children ++ .closing tag :: tokensFrom none rest := by
  have ends : closingMarkup tag ++ rest = ['<', '/'] ++ tag.toList ++ '>' :: rest := by
    simp [closingMarkup]
  have closing := tokensFrom_closing plain rest
  rcases content with rfl | ⟨text, rfl, notEmpty, held⟩
  · have held (left right : List Char) (split : [] = left ++ right) :
        startsFolded (['<', '/'] ++ tag.toList) right = false := by
      obtain ⟨-, rfl⟩ := List.append_eq_nil_iff.1 split.symm
      rfl
    have span := spanRaw_printed plain.lower (not_mem_rawTag raw) ('>' :: rest) held
    rw [← ends, List.nil_append] at span
    rw [Tree.forestMarkup, List.nil_append, tokensFrom_of_ne_nil _ (by simp [closingMarkup]), step,
      span]
    simp [forestTokens, closing]
  · have span := spanRaw_printed plain.lower (not_mem_rawTag raw) ('>' :: rest) held
    rw [← ends] at span
    have there : text.toList ≠ [] := fun none => notEmpty (String.toList_eq_nil_iff.1 none)
    simp only [Tree.forestMarkup, Tree.markup, if_true, List.append_nil]
    rw [tokensFrom_of_ne_nil _ (by simp [there]), step, span]
    simp [there, forestTokens, treeTokens, closing]

theorem opens_forestMarkup {forest : List Tree} (legible : LegibleForest forest)
    (noText : startsWithText forest = false) (opens : Opens behind) :
    Opens (Tree.forestMarkup false forest ++ behind) := by
  match forest with
  | [] => exact opens
  | .text _ :: _ => cases noText
  | .comment _ :: _ => exact .inr rfl
  | .element tag attributes children :: rest =>
    obtain ⟨⟨read, -⟩, -⟩ := legible
    obtain ⟨c, tail, chars, letter⟩ := read.plainTag.letter
    refine .inr ?_
    simp [Tree.forestMarkup, Tree.markup, openingMarkup, chars, opensMarkup, letter]

theorem tokensFrom_forestMarkup {forest : List Tree} (legible : LegibleForest forest)
    (settled : ∀ printed ∈ Tree.forestNames false behind forest, Settled printed)
    (opens : Opens behind) :
    tokensFrom none (Tree.forestMarkup false forest ++ behind) =
      forestTokens forest ++ tokensFrom none behind := by
  induction forest using Tree.forest_induction generalizing behind with
  | nil => rfl
  | text content rest ih =>
    obtain ⟨notEmpty, noText, legible⟩ := legible
    have opensRest := opens_forestMarkup legible (noText rfl) opens
    simp only [Tree.forestMarkup, Tree.markup, Bool.false_eq_true, if_false, List.append_assoc]
    rw [tokensFrom_text notEmpty opensRest, ih legible settled opens]
    rfl
  | comment body rest ih =>
    obtain ⟨plain, -, legible⟩ := legible
    simp only [Tree.forestMarkup, Tree.markup, List.append_assoc]
    rw [tokensFrom_comment plain, ih legible settled opens]
    rfl
  | element tag attributes children rest below beside =>
    obtain ⟨⟨read, content⟩, -, legible⟩ := legible
    simp only [Tree.forestNames, Tree.treeNames, List.mem_append, or_imp, forall_and] at settled
    obtain ⟨⟨here, under⟩, later⟩ := settled
    have rest := beside legible later opens
    simp only [Tree.forestMarkup, Tree.markup, List.append_assoc]
    rw [tokensFrom_opening read.plainTag read.attributes.names (by simpa [Tree.contentMarkup] using here)]
    by_cases void : isVoid tag
    · have notRaw := isRawText_of_isVoid void
      simp [forestTokens, treeTokens, void, notRaw, rest]
    · simp only [void, if_false, List.append_assoc, Bool.false_eq_true]
      by_cases raw : isRawText tag
      · rw [if_pos raw] at content
        rw [if_pos raw, raw, tokensFrom_rawContent read.plainTag raw content, rest]
        simp [forestTokens, treeTokens, void]
      · rw [if_neg raw] at content
        rw [Bool.not_eq_true] at raw
        rw [raw] at under
        rw [raw, if_neg Bool.false_ne_true, below content under (opens_closing tag _),
          tokensFrom_closing read.plainTag, rest]
        simp [forestTokens, treeTokens, void]

end Lexer

end LiveList.Markup
