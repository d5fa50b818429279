import LiveList.Markup.Forest
import LiveList.Proofs.Markup.Read

/-!
# Progress of the lexer

What a reader leaves of a text is an end of it, so the lexer stands between two characters of its
markup at all times. Main statements: each round of reading attributes and each step of the lexer
takes a character at least, except for the end of a raw text that is empty, so that every markup is
read to its end in a number of steps that its length bounds.
-/

namespace LiveList.Markup.Lexer

variable {raw : Option String} {markup : String} {text : List Char}

/-! ## What the readers leave -/

theorem trimStart_suffix (text : List Char) : Text.trimStart text <:+ text :=
  List.dropWhile_suffix _

theorem spanUnquoted_suffix (stop : Char → Bool) (text : List Char) :
    (spanUnquoted stop text).2 <:+ text :=
  ⟨_, spanUnquoted_append stop text⟩

theorem cut_suffix {sep : Char} {before behind : List Char}
    (found : Text.cut sep text = some (before, behind)) : behind <:+ text :=
  ⟨before ++ [sep], by simp [Text.eq_of_cut found]⟩

theorem readQuoted_suffix (quote : Char) (text : List Char) : (readQuoted quote text).2 <:+ text := by
  unfold readQuoted
  cases found : Text.cut quote text with
  | none => exact List.nil_suffix
  | some parts => exact cut_suffix found

theorem readValue_suffix (text : List Char) : (readValue text).2 <:+ text := by
  unfold readValue
  cases text with
  | nil => exact List.suffix_rfl
  | cons c rest =>
    dsimp only
    split
    · exact (readQuoted_suffix c rest).trans (List.suffix_cons c rest)
    · exact spanUnquoted_suffix endsValue (c :: rest)

theorem readAssignment_suffix (text : List Char) : (readAssignment text).2 <:+ text := by
  unfold readAssignment
  split
  case h_1 rest =>
    exact ((readValue_suffix _).trans (trimStart_suffix rest)).trans (List.suffix_cons _ rest)
  case h_2 => exact List.suffix_rfl

theorem readAttribute_suffix (text : List Char) : (readAttribute text).2.2 <:+ text :=
  ((readAssignment_suffix _).trans (trimStart_suffix _)).trans (spanUnquoted_suffix endsName text)

/-! ## Rounds of reading attributes -/

/-- A round of reading attributes. The last one ends the start tag, each one before reads an
attribute or skips what is none. -/
inductive Round where
  | last (tag : TagRest)
  | more (found : Option (String × String)) (rest : List Char)

namespace Round

def rest : Round → List Char
  | .last tag => tag.rest
  | .more _ rest => rest

def finish : Round → TagRest
  | .last tag => tag
  | .more found rest =>
    { readAttributes rest with attributes := found.toList ++ (readAttributes rest).attributes }

end Round

def Round.of (text : List Char) : Round :=
  match Text.trimStart text with
  | [] => .last ⟨[], false, []⟩
  | c :: rest =>
    if c = '>' then .last ⟨[], false, rest⟩
    else if c = '/' then
      if rest.head? = some '>' then .last ⟨[], true, rest.tail⟩ else .more none rest
    else
      let first := readAttribute (c :: rest)
      .more (if first.1 = [] then none else some (attributeName first.1, first.2.1)) first.2.2

theorem readAttributes_eq_finish (text : List Char) :
    readAttributes text = (Round.of text).finish := by
  rw [readAttributes, Round.of]
  split
  case h_1 begins => simp [begins, Round.finish]
  case h_2 c rest begins =>
    simp only [begins]
    split_ifs <;> simp [Round.finish]

theorem round_suffix (text : List Char) : (Round.of text).rest <:+ text := by
  refine List.IsSuffix.trans ?_ (trimStart_suffix text)
  unfold Round.of
  split
  case h_1 => exact List.nil_suffix
  case h_2 c rest begins =>
    rw [begins]
    split_ifs
    · exact List.suffix_cons c rest
    · exact (List.tail_suffix rest).trans (List.suffix_cons c rest)
    · exact List.suffix_cons c rest
    · exact readAttribute_suffix (c :: rest)

theorem length_round_lt (notNil : text ≠ []) : (Round.of text).rest.length < text.length := by
  have within := length_trimStart_le text
  unfold Round.of
  split
  case h_1 => exact List.length_pos_iff.2 notNil
  case h_2 c rest begins =>
    rw [begins, List.length_cons] at within
    split_ifs with closes slash single
    · simp only [Round.rest]
      omega
    · simp only [Round.rest, List.length_tail]
      omega
    · simp only [Round.rest]
      omega
    · have := length_readAttribute_lt rest (Text.not_blank_of_trimStart begins) closes slash
      simp only [Round.rest, List.length_cons] at *
      omega

/-! ## Steps -/

theorem readAttributes_suffix (text : List Char) : (readAttributes text).rest <:+ text := by
  -- Every round but the last leaves a shorter text to the next one.
  induction size : text.length using Nat.strongRecOn generalizing text with
  | ind n ih =>
    have within := round_suffix text
    rw [readAttributes_eq_finish]
    cases read : Round.of text with
    | last tag => rwa [read] at within
    | more found rest =>
      rw [read] at within
      cases text with
      | nil => cases read
      | cons c text =>
        have shorter := length_round_lt (List.cons_ne_nil c text)
        rw [read, size] at shorter
        exact (ih rest.length shorter rest rfl).trans within

theorem behindBracket_suffix (text : List Char) : behindBracket text <:+ text := by
  unfold behindBracket
  split
  case h_1 found => exact cut_suffix found
  case h_2 => exact List.nil_suffix

theorem readComment_suffix (text : List Char) : (readComment text).2 <:+ text := by
  unfold readComment
  cases found : Text.breakOn "-->".toList text with
  | none => exact List.nil_suffix
  | some parts => exact ⟨_, (Text.eq_of_breakOn found).symm⟩

theorem readClosing_suffix (text : List Char) : (readClosing text).2 <:+ text :=
  (behindBracket_suffix _).trans (List.dropWhile_suffix _)

theorem readOpening_suffix (text : List Char) : (readOpening text).2 <:+ text :=
  (readAttributes_suffix _).trans (List.dropWhile_suffix _)

theorem step_suffix (raw : Option String) (text : List Char) : (step raw text).rest <:+ text := by
  unfold step
  split
  case h_1 tag => exact ⟨_, spanRaw_append tag.toList text⟩
  case h_2 =>
    split
    case h_1 rest => exact (readComment_suffix rest).trans ⟨"<!--".toList, rfl⟩
    case h_2 rest _ => exact (behindBracket_suffix rest).trans ⟨"<!".toList, rfl⟩
    case h_3 rest => exact (behindBracket_suffix rest).trans ⟨"<?".toList, rfl⟩
    case h_4 rest => exact (readClosing_suffix rest).trans ⟨"</".toList, rfl⟩
    case h_5 => exact List.suffix_rfl
    case h_6 c rest _ _ _ _ =>
      refine List.IsSuffix.trans ?_ (List.suffix_cons c rest)
      split
      · exact readOpening_suffix rest
      · exact ⟨_, spanText_append rest⟩

def Declares (text : List Char) : Prop :=
  ("<!".toList <+: text ∧ ¬ "<!--".toList <+: text) ∨ "<?".toList <+: text

theorem declares_of_step (notNil : text ≠ []) (silent : (step none text).token = none) :
    Declares text := by
  unfold step at silent
  split at silent
  case h_1 same => cases same
  case h_2 =>
    split at silent
    case h_2 rest noComment =>
      refine .inl ⟨⟨rest, rfl⟩, ?_⟩
      rintro ⟨more, same⟩
      exact noComment more (List.cons.inj (List.cons.inj same).2).2.symm
    case h_3 rest => exact .inr ⟨rest, rfl⟩
    case h_5 => exact absurd rfl notNil
    case h_6 =>
      split at silent
      · cases silent
      · cases silent
    all_goals cases silent

def EndsRaw (raw : Option String) (text : List Char) : Prop :=
  ∃ tag, raw = some tag ∧ startsFolded (['<', '/'] ++ tag.toList) text ∧
    step raw text = ⟨none, none, text⟩

theorem endsRaw_of_nil {tag : String} (notNil : text ≠ [])
    (empty : (spanRaw tag.toList text).1 = []) : EndsRaw (some tag) text := by
  refine ⟨tag, rfl, ?_, ?_⟩
  · cases text with
    | nil => exact absurd rfl notNil
    | cons c rest =>
      rw [spanRaw] at empty
      split at empty
      case isTrue starts => exact starts
      case isFalse => cases empty
  · have whole := spanRaw_append tag.toList text
    rw [empty, List.nil_append] at whole
    simp [step, empty, whole]

/-- A step takes a character at least and yields a token, unless it skips a declaration or ends a raw
text that is empty. -/
theorem step_moves (raw : Option String) (notNil : text ≠ []) :
    ((step raw text).rest.length < text.length ∧
      ((step raw text).token.isSome ∨ raw = none ∧ Declares text)) ∨ EndsRaw raw text := by
  cases raw with
  | none =>
    refine .inl ⟨length_step_none_lt notNil, ?_⟩
    cases silent : (step none text).token with
    | none => exact .inr ⟨rfl, declares_of_step notNil silent⟩
    | some token => exact .inl rfl
  | some tag =>
    by_cases empty : (spanRaw tag.toList text).1 = []
    · exact .inr (endsRaw_of_nil notNil empty)
    · refine .inl ⟨?_, .inl ?_⟩
      · have lengths := congrArg List.length (spanRaw_append tag.toList text)
        have := List.length_pos_iff.2 empty
        rw [List.length_append] at lengths
        rw [(step_some tag text).2]
        omega
      · simp [step, empty]

/-! ## Positions -/

/-- Where the end `rest` of a markup starts, in bytes. The lexer keeps what is left to read and no
offset into the markup, so the offset at which it stands is not counted up from step to step but read
off what is left. -/
def position (markup : String) (rest : List Char) : String.Pos.Raw :=
  ⟨markup.utf8ByteSize - (String.ofList rest).utf8ByteSize⟩

theorem exists_eq_append (ends : text <:+ markup.toList) :
    ∃ before, markup = before ++ String.ofList text := by
  obtain ⟨before, whole⟩ := ends
  exact ⟨String.ofList before, by rw [← String.ofList_append, whole, String.ofList_toList]⟩

theorem isValid_position (ends : text <:+ markup.toList) :
    (position markup text).IsValid markup := by
  obtain ⟨before, rfl⟩ := exists_eq_append ends
  refine String.Pos.Raw.isValid_iff_exists_append.2 ⟨before, _, rfl, ?_⟩
  rw [position, String.utf8ByteSize_append, Nat.add_sub_cancel]
  rfl

theorem position_lt {rest : List Char} (ends : text <:+ markup.toList) (within : rest <:+ text)
    (shorter : rest.length < text.length) : position markup text < position markup rest := by
  obtain ⟨before, rfl⟩ := exists_eq_append ends
  obtain ⟨taken, rfl⟩ := within
  have takesSome : (String.ofList taken).utf8ByteSize ≠ 0 := by
    rw [ne_eq, String.utf8ByteSize_eq_zero_iff, String.ofList_eq_empty_iff]
    rintro rfl
    exact Nat.lt_irrefl _ shorter
  rw [String.Pos.Raw.lt_iff, position, position]
  simp only [String.ofList_append, String.utf8ByteSize_append]
  omega

/-! ## Runs -/

inductive Reached (markup : String) : Option String → List Char → Prop
  | start : Reached markup none markup.toList
  | next {raw : Option String} {text : List Char} : Reached markup raw text → text ≠ [] →
    Reached markup (step raw text).raw (step raw text).rest

theorem Reached.suffix (reached : Reached markup raw text) : text <:+ markup.toList := by
  induction reached with
  | start => exact List.suffix_rfl
  | @next raw text _ _ ih => exact (step_suffix raw text).trans ih

theorem Reached.to {left : Option String} {rest : List Char} (reached : Reached markup raw text)
    (notNil : text ≠ []) (isRaw : (step raw text).raw = left) (isRest : (step raw text).rest = rest) :
    Reached markup left rest :=
  isRaw ▸ isRest ▸ reached.next notNil

inductive Run : Option String → List Char → Nat → List Token → Prop
  | done {raw : Option String} : Run raw [] 0 []
  | next {raw : Option String} {text : List Char} {n : Nat} {tokens : List Token} : text ≠ [] →
    Run (step raw text).raw (step raw text).rest n tokens →
    Run raw text (n + 1) ((step raw text).token.toList ++ tokens)

theorem exists_run (raw : Option String) (text : List Char) :
    ∃ n ≤ rank raw text, Run raw text n (tokensFrom raw text) := by
  fun_induction tokensFrom raw text with
  | case1 raw => exact ⟨0, Nat.zero_le _, .done⟩
  | case2 raw text notNil sinks next ih =>
    obtain ⟨n, bound, run⟩ := ih
    exact ⟨n + 1, Nat.lt_of_le_of_lt bound sinks, .next notNil run⟩

theorem Run.length_le {n : Nat} {tokens : List Token} (run : Run raw text n tokens) :
    tokens.length ≤ text.length := by
  induction run with
  | done => exact Nat.le_refl 0
  | @next raw text n tokens notNil _ ih =>
    rw [List.length_append]
    rcases step_moves raw notNil with ⟨shorter, -⟩ | ⟨tag, -, -, stays⟩
    · have : (step raw text).token.toList.length ≤ 1 := by
        cases (step raw text).token <;> simp
      omega
    · -- what takes no character yields no token
      rw [stays] at ih ⊢
      simpa using ih

/-- The lexer moves on at every step and in every round of reading attributes, from one boundary
between characters to a later one, so it reads every markup to the end. -/
theorem lexer_advances (markup : String) :
    (∀ raw text, Reached markup raw text → (position markup text).IsValid markup ∧
      (text ≠ [] → (position markup text < position markup (step raw text).rest ∧
        (position markup (step raw text).rest).IsValid markup ∧
        ((step raw text).token.isSome ∨ raw = none ∧ Declares text)) ∨ EndsRaw raw text)) ∧
    (∀ text, text <:+ markup.toList → readAttributes text = (Round.of text).finish ∧
      (text = [] → Round.of text = .last ⟨[], false, []⟩) ∧
      (text ≠ [] → position markup text < position markup (Round.of text).rest ∧
        (position markup (Round.of text).rest).IsValid markup)) ∧
    ∃ n read, Run none markup.toList n read ∧ n ≤ 2 * markup.length ∧
      tokens markup = read ∧ parse markup = forestOfTokens read ∧ read.length ≤ markup.length ∧
      ∀ content, .text content ∈ read → content ≠ "" := by
  refine ⟨?_, ?_, ?_⟩
  · intro raw text reached
    have ends := reached.suffix
    have within := step_suffix raw text
    refine ⟨isValid_position ends, fun notNil => (step_moves raw notNil).imp_left ?_⟩
    rintro ⟨shorter, yields⟩
    exact ⟨position_lt ends within shorter, isValid_position (within.trans ends), yields⟩
  · intro text ends
    have within := round_suffix text
    refine ⟨readAttributes_eq_finish text, ?_, fun notNil => ?_⟩
    · rintro rfl
      rfl
    · exact ⟨position_lt ends within (length_round_lt notNil), isValid_position (within.trans ends)⟩
  · obtain ⟨n, bound, run⟩ := exists_run none markup.toList
    rw [← String.length_toList]
    exact ⟨n, tokens markup, run, bound, rfl, rfl, run.length_le,
      fun content inside => tokensFrom_read none markup.toList _ inside⟩

def scriptedMarkup : String := "<!x><script></script>é"

theorem lexer_advances_scripted :
    Reached scriptedMarkup (some "script") "</script>é".toList ∧
    EndsRaw (some "script") "</script>é".toList ∧
    (position scriptedMarkup "</script>é".toList).IsValid scriptedMarkup ∧
    position scriptedMarkup "é".toList < position scriptedMarkup [] ∧
    ∃ n ≤ 2 * scriptedMarkup.length, Run none scriptedMarkup.toList n (tokens scriptedMarkup) := by
  have behindDeclaration : Reached scriptedMarkup none "<script></script>é".toList :=
    Reached.start.to (by decide) (by decide +kernel) (by decide +kernel)
  have raw : Reached scriptedMarkup (some "script") "</script>é".toList :=
    behindDeclaration.to (by decide) (by decide +kernel) (by decide +kernel)
  have unraw : Reached scriptedMarkup none "</script>é".toList :=
    raw.to (by decide) (by decide +kernel) (by decide +kernel)
  have atEnd : Reached scriptedMarkup none "é".toList :=
    unraw.to (by decide) (by decide +kernel) (by decide +kernel)
  obtain ⟨valid, moves⟩ := (lexer_advances scriptedMarkup).1 _ _ raw
  obtain ⟨-, last⟩ := (lexer_advances scriptedMarkup).1 _ _ atEnd
  obtain ⟨n, _, run, bound, rfl, -⟩ := (lexer_advances scriptedMarkup).2.2
  refine ⟨raw, ?_, valid, ?_, n, bound, run⟩
  · rcases moves (by decide) with ⟨-, -, yields | ⟨isNone, -⟩⟩ | ends
    · cases yields
    · cases isNone
    · exact ends
  · rcases last (by decide) with ⟨onward, -⟩ | ⟨tag, isSome, -⟩
    · exact onward
    · cases isSome

end LiveList.Markup.Lexer
