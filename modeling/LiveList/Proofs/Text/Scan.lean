import LiveList.Text.Scan
import Mathlib.Data.List.Infix

namespace LiveList.Text

theorem cut_append {sep : Char} {before : List Char} (absent : sep ∉ before) (behind : List Char) :
    cut sep (before ++ sep :: behind) = some (before, behind) := by
  induction before with
  | nil => simp [cut]
  | cons c before ih =>
    obtain ⟨differ, absent⟩ := by simpa using absent
    simp [cut, Ne.symm differ, ih absent]

theorem dropPattern_append (pattern rest : List Char) :
    dropPattern pattern (pattern ++ rest) = some rest :=
  dropPattern_eq_some.2 rfl

theorem dropPattern_eq_none {pattern text : List Char} :
    dropPattern pattern text = none ↔ ¬ pattern <+: text := by
  refine ⟨fun none ⟨rest, whole⟩ => ?_, ?_⟩
  · rw [← whole, dropPattern_append] at none
    cases none
  · intro absent
    cases found : dropPattern pattern text with
    | none => rfl
    | some rest => exact absurd ⟨rest, (dropPattern_eq_some.1 found).symm⟩ absent

theorem breakOn_eq_none {pattern text : List Char} :
    breakOn pattern text = none ↔ ¬ pattern <:+: text := by
  induction text with
  | nil => simp [breakOn]
  | cons c rest ih =>
    rw [breakOn, List.infix_cons_iff]
    cases found : dropPattern pattern (c :: rest) with
    | some behind =>
      have there : pattern <+: c :: rest := ⟨behind, (dropPattern_eq_some.1 found).symm⟩
      simp [there]
    | none => simp [ih, dropPattern_eq_none.1 found]

theorem not_blank_of_trimStart {c : Char} {text rest : List Char}
    (begins : trimStart text = c :: rest) : isBlank c = false := by
  have first := List.head?_dropWhile_not isBlank text
  rw [trimStart] at begins
  rwa [begins] at first

theorem breakOn_append {pattern before : List Char} (behind : List Char)
    (first : ∀ left right, before = left ++ right → right ≠ [] →
      ¬ pattern <+: right ++ (pattern ++ behind)) :
    breakOn pattern (before ++ (pattern ++ behind)) = some (before, behind) := by
  induction before with
  | nil =>
    cases text : pattern ++ behind with
    | nil =>
      obtain ⟨none, nothing⟩ := List.append_eq_nil_iff.1 text
      simp [breakOn, none, nothing]
    | cons c rest =>
      rw [List.nil_append, breakOn, ← text, dropPattern_append]
  | cons c before ih =>
    have absent := first [] (c :: before) rfl (by simp)
    rw [List.cons_append, breakOn, dropPattern_eq_none.2 (by simpa using absent)]
    simp only
    rw [ih fun left right split => first (c :: left) right (by rw [split]; rfl)]
    rfl

theorem dropPattern_append_eq_none {pattern text : List Char} (absent : dropPattern pattern text = none)
    (long : pattern.length ≤ text.length) (rest : List Char) :
    dropPattern pattern (text ++ rest) = none :=
  dropPattern_eq_none.2 fun there => dropPattern_eq_none.1 absent
    (List.prefix_of_prefix_length_le there (List.prefix_append text rest) long)

theorem breakOn_behind {pattern text before behind : List Char}
    (found : breakOn pattern text = some (before, behind)) (rest : List Char) :
    breakOn pattern (before ++ (pattern ++ rest)) = some (before, rest) := by
  induction text generalizing before behind with
  | nil =>
    by_cases empty : pattern = []
    · obtain ⟨rfl, rfl⟩ : before = [] ∧ behind = [] := by simpa [breakOn, empty, eq_comm] using found
      exact breakOn_append rest (by simp_all)
    · simp [breakOn, empty] at found
  | cons c tail ih =>
    rw [breakOn] at found
    split at found
    case h_1 =>
      cases found
      exact breakOn_append rest (by simp_all)
    case h_2 absent =>
      obtain ⟨⟨inner, last⟩, later, same⟩ := Option.map_eq_some_iff.1 found
      cases same
      have whole := eq_of_breakOn later
      have here : dropPattern pattern (c :: (inner ++ pattern)) = none :=
        dropPattern_eq_none.2 fun there => dropPattern_eq_none.1 absent
          (there.trans ⟨behind, by rw [whole]; simp⟩)
      have still := dropPattern_append_eq_none here (by simp; omega) rest
      rw [List.cons_append, List.append_assoc] at still
      rw [List.cons_append, breakOn, still]
      simp only
      rw [ih later]
      rfl

section

variable {c : Char} {pattern left right : List Char}

theorem prefix_of_prefix_append_cons (absent : c ∉ pattern) (there : pattern <+: left ++ c :: right) :
    pattern <+: left := by
  induction pattern generalizing left with
  | nil => exact List.nil_prefix
  | cons p pattern ih =>
    obtain ⟨differ, absent⟩ := by simpa using absent
    cases left with
    | nil => exact absurd (List.cons_prefix_cons.1 there).1.symm differ
    | cons d left =>
      obtain ⟨same, there⟩ := List.cons_prefix_cons.1 there
      exact List.cons_prefix_cons.2 ⟨same, ih absent there⟩

theorem infix_append_cons (absent : c ∉ pattern) (there : pattern <:+: left ++ c :: right) :
    pattern <:+: left ∨ pattern <:+: c :: right := by
  induction left with
  | nil => exact .inr there
  | cons d left ih =>
    rw [List.cons_append, List.infix_cons_iff, ← List.cons_append] at there
    rcases there with here | later
    · exact .inl (prefix_of_prefix_append_cons absent here).isInfix
    · exact (ih later).imp_left fun inside => inside.trans (List.suffix_cons d left).isInfix

end

theorem not_infix_of_breakOn {pattern text before behind : List Char} (notNil : pattern ≠ [])
    (found : breakOn pattern text = some (before, behind)) : ¬ pattern <:+: before := by
  induction text generalizing before behind with
  | nil => simp [breakOn, notNil] at found
  | cons c rest ih =>
    rw [breakOn] at found
    split at found
    case h_1 =>
      cases found
      simpa using notNil
    case h_2 absent =>
      obtain ⟨⟨inner, last⟩, later, same⟩ := Option.map_eq_some_iff.1 found
      cases same
      rw [List.infix_cons_iff, not_or]
      refine ⟨?_, ih later⟩
      rintro ⟨more, whole⟩
      have split := eq_of_breakOn later
      refine dropPattern_eq_none.1 absent ⟨more ++ (pattern ++ behind), ?_⟩
      rw [split, ← List.append_assoc, whole]
      simp

theorem not_prefix_of_breakOn {pattern text before behind : List Char}
    (found : breakOn pattern text = some (before, behind)) : ∀ left right, before = left ++ right →
      right ≠ [] → ¬ pattern <+: right ++ (pattern ++ behind) := by
  induction text generalizing before behind with
  | nil =>
    rw [breakOn] at found
    split at found
    · cases found
      simp_all
    · cases found
  | cons c rest ih =>
    rw [breakOn] at found
    split at found
    case h_1 =>
      cases found
      simp_all
    case h_2 absent =>
      obtain ⟨⟨inner, last⟩, later, same⟩ := Option.map_eq_some_iff.1 found
      cases same
      intro left right split notNil there
      cases left with
      | nil =>
        obtain rfl : c :: inner = right := split
        rw [List.cons_append, ← List.append_assoc, ← eq_of_breakOn later] at there
        exact dropPattern_eq_none.1 absent there
      | cons d left => exact ih later left right (List.cons.inj split).2 notNil there

/-- The character stands nowhere twice in a row, also not if it follows once more. -/
def Single (c : Char) (text : List Char) : Prop := ¬ [c, c] <:+: text ∧ text.getLast? ≠ some c

section

variable {c : Char} {text before behind : List Char}

theorem single_nil : Single c [] := by
  simp [Single]

theorem breakOn_pair_append (single : Single c before) (behind : List Char) :
    breakOn [c, c] (before ++ ([c, c] ++ behind)) = some (before, behind) := by
  apply breakOn_append
  intro left right split notNil there
  match right with
  | [] => exact notNil rfl
  | [d] =>
    obtain ⟨rfl, -⟩ := List.cons_prefix_cons.1 there
    exact single.2 (by rw [split, List.getLast?_concat])
  | d :: e :: more =>
    obtain ⟨rfl, behindIt⟩ := List.cons_prefix_cons.1 there
    obtain ⟨rfl, -⟩ := List.cons_prefix_cons.1 behindIt
    exact single.1 (split ▸ ⟨left, more, by simp⟩)

theorem single_of_breakOn (found : breakOn [c, c] text = some (before, behind)) :
    Single c before := by
  refine ⟨not_infix_of_breakOn (by simp) found, fun last => ?_⟩
  obtain ⟨init, split⟩ := List.getLast?_eq_some_iff.1 last
  exact not_prefix_of_breakOn found init [c] split (by simp) ⟨c :: behind, rfl⟩

end

theorem forall_upper {p : Char → Prop} (each : ∀ n < 26, p (Char.ofNat (65 + n))) {c : Char}
    (upper : 'A' ≤ c ∧ c ≤ 'Z') : p c := by
  have low : 65 ≤ c.toNat := Char.le_def.1 upper.1
  have high : c.toNat ≤ 90 := Char.le_def.1 upper.2
  have same : 65 + (c.toNat - 65) = c.toNat := by omega
  have holds := each (c.toNat - 65) (by omega)
  rwa [same, Char.ofNat_toNat] at holds

theorem lowerLetter_lowerLetter (c : Char) : lowerLetter (lowerLetter c) = lowerLetter c := by
  by_cases upper : 'A' ≤ c ∧ c ≤ 'Z'
  · exact forall_upper (p := fun c => lowerLetter (lowerLetter c) = lowerLetter c) (by decide) upper
  · have same : lowerLetter c = c := by
      rw [lowerLetter, if_neg (by simpa using upper)]
    rw [same, same]

theorem apply_lowerLetter {p : Char → Bool}
    (each : ∀ n < 26, p (lowerLetter (Char.ofNat (65 + n))) = p (Char.ofNat (65 + n))) (c : Char) :
    p (lowerLetter c) = p c := by
  by_cases upper : 'A' ≤ c ∧ c ≤ 'Z'
  · exact forall_upper (p := fun c => p (lowerLetter c) = p c) each upper
  · rw [lowerLetter, if_neg (by simpa using upper)]

theorem isLetter_lowerLetter (c : Char) : isLetter (lowerLetter c) = isLetter c :=
  apply_lowerLetter (by decide) c

theorem isBlank_of_isLetter {c : Char} (letter : isLetter c) : isBlank c = false := by
  have range : 65 ≤ c.toNat ∧ c.toNat ≤ 122 := by
    simp only [isLetter, Bool.or_eq_true, Bool.and_eq_true, decide_eq_true_eq] at letter
    rcases letter with ⟨low, high⟩ | ⟨low, high⟩
    · have low : 97 ≤ c.toNat := Char.le_def.1 low
      have high : c.toNat ≤ 122 := Char.le_def.1 high
      omega
    · have low : 65 ≤ c.toNat := Char.le_def.1 low
      have high : c.toNat ≤ 90 := Char.le_def.1 high
      omega
  simp only [isBlank, Bool.or_eq_false_iff, Bool.and_eq_false_iff, decide_eq_false_iff_not,
    beq_eq_false_iff_ne, ne_eq]
  omega

theorem isBlank_of_isDigit {c : Char} (digit : isDigit c) : isBlank c = false := by
  have range : 48 ≤ c.toNat ∧ c.toNat ≤ 57 := by
    simp only [isDigit, Bool.and_eq_true, decide_eq_true_eq] at digit
    exact ⟨Char.le_def.1 digit.1, Char.le_def.1 digit.2⟩
  simp only [isBlank, Bool.or_eq_false_iff, Bool.and_eq_false_iff, decide_eq_false_iff_not,
    beq_eq_false_iff_ne, ne_eq]
  omega

end LiveList.Text
