import LiveList.Markup.Lexer

namespace LiveList.Markup.Lexer

def behindBracket (text : List Char) : List Char :=
  match Text.cut '>' text with
  | some (_, behind) => behind
  | none => []

def readComment (text : List Char) : Token × List Char :=
  let (body, behind) := (Text.breakOn "-->".toList text).getD (text, [])
  (.comment (String.ofList body), behind)

def readClosing (text : List Char) : Token × List Char :=
  let name := text.takeWhile (!endsValue ·)
  (.closing (String.ofList (lowerName name)), behindBracket (text.dropWhile (!endsValue ·)))

def readOpening (text : List Char) : Token × List Char :=
  let tag := lowerName (text.takeWhile (!endsTag ·))
  let more := readAttributes (text.dropWhile (!endsTag ·))
  (.opening (String.ofList tag) more.attributes more.selfClosing, more.rest)

def opensMarkup : List Char → Bool
  | '<' :: c :: _ => Text.isLetter c || c == '/' || c == '!'
  | _ => false

def opensTag : List Char → Bool
  | '<' :: c :: _ => Text.isLetter c
  | _ => false

def spanText : List Char → List Char × List Char
  | [] => ([], [])
  | c :: rest =>
    if opensMarkup (c :: rest) then ([], c :: rest)
    else
      let (more, last) := spanText rest
      (c :: more, last)

def startsFolded : (pattern text : List Char) → Bool
  | [], _ => true
  | _ :: _, [] => false
  | p :: pattern, c :: text => Text.lowerLetter c == p && startsFolded pattern text

def spanRaw (tag : List Char) : List Char → List Char × List Char
  | [] => ([], [])
  | c :: rest =>
    if startsFolded (['<', '/'] ++ tag) (c :: rest) then ([], c :: rest)
    else
      let (more, last) := spanRaw tag rest
      (c :: more, last)

structure Step where
  token : Option Token
  raw : Option String
  rest : List Char

def rawBehind : Token → Option String
  | .opening tag _ selfClosing => if isRawText tag && !selfClosing then some tag else none
  | _ => none

def Step.yield (read : Token × List Char) : Step := ⟨some read.1, rawBehind read.1, read.2⟩

/-- One step behind the raw start tag `raw`, or elsewhere. Declarations yield no token. -/
def step (raw : Option String) (text : List Char) : Step :=
  match raw with
  | some tag =>
    let (content, rest) := spanRaw tag.toList text
    ⟨if content = [] then none else some (.text (String.ofList content)), none, rest⟩
  | none =>
    match text with
    | '<' :: '!' :: '-' :: '-' :: rest => .yield (readComment rest)
    | '<' :: '!' :: rest => ⟨none, none, behindBracket rest⟩
    | '<' :: '?' :: rest => ⟨none, none, behindBracket rest⟩
    | '<' :: '/' :: rest => .yield (readClosing rest)
    | [] => ⟨none, none, []⟩
    | c :: rest =>
      if opensTag (c :: rest) then .yield (readOpening rest)
      else
        let (content, behind) := spanText rest
        .yield (.text (String.ofList (decode (c :: content))), behind)

def rank (raw : Option String) (text : List Char) : Nat :=
  -- The end of a raw text that is empty takes no character, but leaves the raw text.
  2 * text.length + if raw.isSome then 1 else 0

theorem length_behindBracket_le (text : List Char) :
    (behindBracket text).length ≤ text.length := by
  unfold behindBracket
  split
  · rename_i before behind found
    have := congrArg List.length (Text.eq_of_cut found)
    simp at this
    omega
  · simp

theorem length_readComment_le (text : List Char) : (readComment text).2.length ≤ text.length := by
  unfold readComment
  cases found : Text.breakOn "-->".toList text with
  | none => simp
  | some parts =>
    have := Text.length_lt_of_breakOn (by decide) found
    simp
    omega

theorem length_dropWhile_le (p : Char → Bool) (text : List Char) :
    (text.dropWhile p).length ≤ text.length :=
  (List.dropWhile_suffix _).length_le

theorem length_readClosing_le (text : List Char) : (readClosing text).2.length ≤ text.length :=
  Nat.le_trans (length_behindBracket_le _) (length_dropWhile_le _ _)

theorem length_readAttributes_le (text : List Char) :
    (readAttributes text).rest.length ≤ text.length := by
  fun_induction readAttributes text with
  | case1 => simp
  | case2 _ _ _ _ shorter => exact Nat.le_of_lt shorter
  | case3 _ _ rest _ _ shorter =>
    simp
    omega
  | case4 => omega
  | case5 _ _ _ h short _ _ _ _ shrinks _ _ _ ih =>
    rw [h] at short
    exact Nat.le_trans ih (Nat.le_trans (Nat.le_of_lt shrinks) short)
  | case6 _ _ _ h short _ _ _ _ shrinks _ _ _ ih =>
    rw [h] at short
    exact Nat.le_trans ih (Nat.le_trans (Nat.le_of_lt shrinks) short)

theorem length_readOpening_le (text : List Char) : (readOpening text).2.length ≤ text.length :=
  Nat.le_trans (length_readAttributes_le _) (length_dropWhile_le _ _)

theorem spanText_append (text : List Char) : (spanText text).1 ++ (spanText text).2 = text := by
  induction text with
  | nil => rfl
  | cons c rest ih =>
    rw [spanText]
    split
    · rfl
    · simp [ih]

theorem spanRaw_append (tag text : List Char) :
    (spanRaw tag text).1 ++ (spanRaw tag text).2 = text := by
  induction text with
  | nil => rfl
  | cons c rest ih =>
    rw [spanRaw]
    split
    · rfl
    · simp [ih]

theorem length_step_none_lt {text : List Char} (h : text ≠ []) :
    (step none text).rest.length < text.length := by
  unfold step
  split
  · rename_i tag same
    simp at same
  · split
    · rename_i rest
      have := length_readComment_le rest
      simp only [Step.yield, List.length_cons]
      omega
    · rename_i rest _
      have := length_behindBracket_le rest
      simp only [List.length_cons]
      omega
    · rename_i rest
      have := length_behindBracket_le rest
      simp only [List.length_cons]
      omega
    · rename_i rest
      have := length_readClosing_le rest
      simp only [Step.yield, List.length_cons]
      omega
    · contradiction
    · split
      · rename_i c rest _ _ _ _ _
        have := length_readOpening_le rest
        simp only [Step.yield, List.length_cons]
        omega
      · rename_i c rest _ _ _ _ _
        have := congrArg List.length (spanText_append rest)
        simp at this
        simp only [Step.yield, List.length_cons]
        omega

theorem step_some (tag : String) (text : List Char) :
    (step (some tag) text).raw = none ∧
      (step (some tag) text).rest = (spanRaw tag.toList text).2 := by
  simp [step]

theorem length_spanRaw_le (tag text : List Char) :
    (spanRaw tag text).2.length ≤ text.length := by
  have := congrArg List.length (spanRaw_append tag text)
  simp at this
  omega

theorem rank_step_lt (raw : Option String) {text : List Char} (h : text ≠ []) :
    rank (step raw text).raw (step raw text).rest < rank raw text := by
  cases raw with
  | none =>
    have := length_step_none_lt h
    simp only [rank]
    split <;> simp <;> omega
  | some tag =>
    obtain ⟨left, rest⟩ := step_some tag text
    have := length_spanRaw_le tag.toList text
    simp only [rank, left, rest]
    simp
    omega

def tokensFrom (raw : Option String) (text : List Char) : List Token :=
  if h : text = [] then []
  else
    have := rank_step_lt raw h
    let next := step raw text
    next.token.toList ++ tokensFrom next.raw next.rest
termination_by rank raw text

def tokens (markup : String) : List Token := tokensFrom none markup.toList

end LiveList.Markup.Lexer
