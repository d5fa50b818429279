import LiveList.Proofs.Markup.Read

namespace LiveList.Markup

structure Verbatim (text : List Char) : Prop where
  closed : ∀ left right, text = left ++ right → Lexer.opensMarkup right = false
  begins : ¬ ['<', '?'] <+: text
  decoded : decode text = text

theorem length_decode_le (text : List Char) : (decode text).length ≤ text.length := by
  fun_induction decode text with
  | case1 => simp
  | case2 _ _ _ _ shorter ih =>
    simp only [List.length_cons]
    omega
  | case3 _ _ ih | case4 _ _ _ ih => simpa using ih

namespace Lexer

variable {raw : Option String} {text rest : List Char} {c : Char} {content : String}

theorem opensMarkup_of_opensTag (opens : opensTag text) : opensMarkup text := by
  unfold opensTag at opens
  split at opens
  · simp [opensMarkup, opens]
  · cases opens

theorem step_closed (closed : opensMarkup (c :: rest) = false) (begins : ¬ ['<', '?'] <+: c :: rest) :
    step none (c :: rest) =
      .yield (.text (String.ofList (decode (c :: (spanText rest).1))), (spanText rest).2) := by
  have noTag : opensTag (c :: rest) = false :=
    Bool.eq_false_iff.2 fun opens => by simp [opensMarkup_of_opensTag opens] at closed
  unfold step
  split
  case h_1 same => cases same
  case h_2 =>
    split
    case h_6 d last _ _ _ _ same =>
      obtain ⟨rfl, rfl⟩ := List.cons.inj same
      rw [if_neg (by simp [noTag])]
    case h_3 same => exact absurd (by simp [same]) begins
    all_goals simp_all [opensMarkup]

theorem closed_of_step (yields : (step none text).token = some (.text content)) :
    opensMarkup text = false ∧ ¬ ['<', '?'] <+: text := by
  unfold step at yields
  split at yields
  case h_1 same => cases same
  case h_2 =>
    split at yields
    case h_6 c rest _ noBang noQuery noSlash =>
      split at yields
      case isTrue => cases yields
      case isFalse noTag =>
        constructor
        · unfold opensMarkup
          split
          case h_1 d last same =>
            obtain ⟨rfl, rfl⟩ := List.cons.inj same
            have notSlash : d ≠ '/' := fun slash => noSlash last rfl (by rw [slash])
            have notBang : d ≠ '!' := fun bang => noBang last rfl (by rw [bang])
            have notLetter : Text.isLetter d = false := by simpa [opensTag] using noTag
            simp [notSlash, notBang, notLetter]
          case h_2 => rfl
        · rintro ⟨more, same⟩
          obtain ⟨rfl, rfl⟩ := List.cons.inj same
          exact noQuery more rfl rfl
    all_goals cases yields

theorem length_text_le (yields : (step raw text).token = some (.text content)) :
    content.toList.length + (step raw text).rest.length ≤ text.length := by
  cases raw with
  | some tag =>
    have whole := congrArg List.length (spanRaw_append tag.toList text)
    rw [List.length_append] at whole
    rw [(step_some tag text).2, ← whole]
    have same : (step (some tag) text).token =
        if (spanRaw tag.toList text).1 = [] then none
        else some (.text (String.ofList (spanRaw tag.toList text).1)) := rfl
    rw [same] at yields
    split at yields
    · cases yields
    · cases yields
      simp
  | none =>
    obtain ⟨closed, begins⟩ := closed_of_step yields
    cases text with
    | nil => cases yields
    | cons c rest =>
      rw [step_closed closed begins] at yields ⊢
      cases yields
      have whole := congrArg List.length (spanText_append rest)
      have shorter := length_decode_le (c :: (spanText rest).1)
      simp only [List.length_append, List.length_cons, Step.yield, String.toList_ofList] at *
      omega

theorem length_step_le (raw : Option String) (text : List Char) :
    (step raw text).rest.length ≤ text.length := by
  cases raw with
  | some tag =>
    rw [(step_some tag text).2]
    exact length_spanRaw_le tag.toList text
  | none =>
    cases text with
    | nil => simp [step]
    | cons c rest => exact (length_step_none_lt (by simp)).le

theorem length_le_of_mem_tokensFrom (inside : .text content ∈ tokensFrom raw text) :
    content.toList.length ≤ text.length := by
  fun_induction tokensFrom raw text with
  | case1 => cases inside
  | case2 raw text _ _ next ih =>
    rcases List.mem_append.1 inside with first | later
    · have := length_text_le (Option.mem_toList.1 first)
      omega
    · exact (ih later).trans (length_step_le raw text)

theorem spanText_eq_self : spanText text = (text, []) ↔
    ∀ left right, text = left ++ right → opensMarkup right = false := by
  induction text with
  | nil =>
    refine iff_of_true rfl fun left right split => ?_
    obtain ⟨-, rfl⟩ := List.append_eq_nil_iff.1 split.symm
    rfl
  | cons c rest ih =>
    rw [spanText]
    constructor
    · intro same left right split
      split at same
      · cases same
      case isFalse closed =>
        have later : spanText rest = (rest, []) := by simpa [Prod.ext_iff] using same
        cases left with
        | nil =>
          obtain rfl : c :: rest = right := split
          exact Bool.eq_false_iff.2 closed
        | cons d left => exact ih.1 later left right (List.cons.inj split).2
    · intro closed
      have here := closed [] (c :: rest) rfl
      have later := ih.2 fun left right split => closed (c :: left) right (by rw [split]; rfl)
      rw [if_neg (by simp [here]), later]

end Lexer

theorem verbatim_cons_iff {c : Char} {rest : List Char} : Verbatim (c :: rest) ↔
    Lexer.opensMarkup (c :: rest) = false ∧ ¬ ['<', '?'] <+: c :: rest ∧
      Lexer.spanText rest = (rest, []) ∧ decode (c :: rest) = c :: rest := by
  constructor
  · rintro ⟨closed, begins, decoded⟩
    refine ⟨closed [] _ rfl, begins, Lexer.spanText_eq_self.2 fun left right split => ?_, decoded⟩
    exact closed (c :: left) right (by rw [split]; rfl)
  · rintro ⟨here, begins, later, decoded⟩
    refine ⟨fun left right split => ?_, begins, decoded⟩
    cases left with
    | nil =>
      obtain rfl : c :: rest = right := split
      exact here
    | cons d left => exact Lexer.spanText_eq_self.1 later left right (List.cons.inj split).2

/-- A text is read as itself if it is verbatim, and as something else if it is not. -/
theorem parse_eq_text_iff {text : String} (notEmpty : text ≠ "") :
    parse text = [.text text] ↔ Verbatim text.toList := by
  have notNil : text.toList ≠ [] := fun none => notEmpty (String.toList_eq_nil_iff.1 none)
  obtain ⟨c, rest, chars⟩ := List.exists_cons_of_ne_nil notNil
  rw [chars, verbatim_cons_iff]
  constructor
  · intro read
    have inside : .text text ∈ Lexer.tokens text :=
      text_mem_tokens (by simp [read, Tree.forestTexts, Tree.treeTexts])
    rw [Lexer.tokens, Lexer.tokensFrom_of_ne_nil none notNil, List.mem_append] at inside
    rcases inside with first | later
    · have yields := Option.mem_toList.1 first
      rw [chars] at yields
      obtain ⟨closed, begins⟩ := Lexer.closed_of_step yields
      rw [Lexer.step_closed closed begins] at yields
      have decoded : decode (c :: (Lexer.spanText rest).1) = c :: rest := by
        have same : String.ofList (decode (c :: (Lexer.spanText rest).1)) = text := by
          simpa [Lexer.Step.yield] using yields
        rw [← chars, ← same, String.toList_ofList]
      -- Decoding makes no text longer, so the text goes on to the end.
      have whole := Lexer.spanText_append rest
      have nothing : (Lexer.spanText rest).2 = [] := by
        have shorter := length_decode_le (c :: (Lexer.spanText rest).1)
        have lengths := congrArg List.length whole
        rw [decoded] at shorter
        simp only [List.length_append, List.length_cons] at lengths shorter
        exact List.eq_nil_of_length_eq_zero (by omega)
      rw [nothing, List.append_nil] at whole
      rw [whole] at decoded
      exact ⟨closed, begins, Prod.ext whole nothing, decoded⟩
    · have longest := Lexer.length_le_of_mem_tokensFrom later
      have shorter := Lexer.length_step_none_lt notNil
      omega
  · rintro ⟨closed, begins, span, decoded⟩
    have tokens : Lexer.tokens text = [.text text] := by
      rw [Lexer.tokens, chars, Lexer.tokensFrom_of_ne_nil none (by simp),
        Lexer.step_closed closed begins, span, decoded, ← chars, String.ofList_toList]
      exact congrArg _ (Lexer.tokensFrom_nil _)
    rw [parse, tokens]
    rfl

instance (text : List Char) : Decidable (Verbatim text) :=
  decidable_of_iff ((∀ right ∈ text.tails, Lexer.opensMarkup right = false) ∧
    ¬ ['<', '?'] <+: text ∧ decode text = text) <| by
    constructor
    · rintro ⟨closed, begins, decoded⟩
      exact ⟨fun left right split => closed right ((List.mem_tails _ _).2 ⟨left, split.symm⟩), begins,
        decoded⟩
    · rintro ⟨closed, begins, decoded⟩
      refine ⟨fun right isTail => ?_, begins, decoded⟩
      obtain ⟨left, split⟩ := (List.mem_tails _ _).1 isTail
      exact closed left right split.symm

end LiveList.Markup
