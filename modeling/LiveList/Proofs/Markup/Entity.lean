import LiveList.Markup.Entity
import LiveList.Proofs.Text.Scan

namespace LiveList.Markup

theorem readReference_append {name : List Char} {c : Char} (absent : ';' ∉ name)
    (short : Text.byteSize name ≤ greatestName) (named : referenceChar? name = some c)
    (rest : List Char) : readReference (name ++ ';' :: rest) = some (c, rest) := by
  simp [readReference, Text.cut_append absent, short, named]

theorem decode_reference (name : List Char) {c : Char} (absent : ';' ∉ name)
    (short : Text.byteSize name ≤ greatestName) (named : referenceChar? name = some c)
    (rest : List Char) : decode ('&' :: (name ++ ';' :: rest)) = c :: decode rest := by
  rw [decode, if_pos rfl]
  split
  case h_1 d behind read =>
    rw [readReference_append absent short named] at read
    cases read
    rfl
  case h_2 none =>
    rw [readReference_append absent short named] at none
    cases none

theorem decode_cons_of_ne {c : Char} (plain : c ≠ '&') (rest : List Char) :
    decode (c :: rest) = c :: decode rest := by
  rw [decode, if_neg plain]

theorem decode_escapeTextChar (c : Char) (rest : List Char) :
    decode (escapeTextChar c ++ rest) = c :: decode rest := by
  unfold escapeTextChar
  split
  case isTrue same =>
    subst same
    exact decode_reference "amp".toList (by decide) (by decide) (by decide) rest
  split
  case isTrue same =>
    subst same
    exact decode_reference "lt".toList (by decide) (by decide) (by decide) rest
  split
  case isTrue same =>
    subst same
    exact decode_reference "gt".toList (by decide) (by decide) (by decide) rest
  case isFalse notAmp _ _ => exact decode_cons_of_ne notAmp rest

theorem decode_escapeAttributeChar (c : Char) (rest : List Char) :
    decode (escapeAttributeChar c ++ rest) = c :: decode rest := by
  unfold escapeAttributeChar
  split
  case isTrue same =>
    subst same
    exact decode_reference "quot".toList (by decide) (by decide) (by decide) rest
  case isFalse => exact decode_escapeTextChar c rest

theorem decode_escapeText_append (text rest : List Char) :
    decode (escapeText text ++ rest) = text ++ decode rest := by
  induction text with
  | nil => rfl
  | cons c text ih =>
    rw [escapeText, List.flatMap_cons, List.append_assoc, decode_escapeTextChar]
    exact congrArg (c :: ·) ih

theorem decode_escapeAttribute_append (text rest : List Char) :
    decode (escapeAttribute text ++ rest) = text ++ decode rest := by
  induction text with
  | nil => rfl
  | cons c text ih =>
    rw [escapeAttribute, List.flatMap_cons, List.append_assoc, decode_escapeAttributeChar]
    exact congrArg (c :: ·) ih

theorem decode_nil : decode [] = [] := by rw [decode]

theorem decode_escapeText (text : List Char) : decode (escapeText text) = text := by
  simpa [decode_nil] using decode_escapeText_append text []

theorem decode_escapeAttribute (text : List Char) : decode (escapeAttribute text) = text := by
  simpa [decode_nil] using decode_escapeAttribute_append text []

def spelled : List (Char × List Char) → List Char → List Char
  | [], text => text
  | (c, spelling) :: more, text =>
    spelled more (text.flatMap fun d => if d = c then spelling else [d])

/-- The ampersand comes first, so that those of the other spellings stay. -/
def textSpellings : List (Char × List Char) :=
  [('&', "&amp;".toList), ('<', "&lt;".toList), ('>', "&gt;".toList)]

def attributeSpellings : List (Char × List Char) :=
  [('&', "&amp;".toList), ('\x22', "&quot;".toList), ('<', "&lt;".toList), ('>', "&gt;".toList)]

section

variable {spellings : List (Char × List Char)} {c : Char} {text : List Char}

theorem spelled_flatMap (f : Char → List Char) (text : List Char) :
    spelled spellings (text.flatMap f) = text.flatMap fun d => spelled spellings (f d) := by
  induction spellings generalizing f with
  | nil => rfl
  | cons first more ih => simp only [spelled, List.flatMap_assoc, ih]

theorem spelled_singleton (plain : c ∉ spellings.map Prod.fst) : spelled spellings [c] = [c] := by
  induction spellings with
  | nil => rfl
  | cons first more ih =>
    obtain ⟨differ, plain⟩ := by simpa using plain
    rw [spelled, List.flatMap_singleton, if_neg differ, ih (by simpa using plain)]

theorem not_mem_spelled (absent : ∀ pair ∈ spellings, c ∉ pair.2)
    (gone : c ∈ spellings.map Prod.fst ∨ c ∉ text) : c ∉ spelled spellings text := by
  induction spellings generalizing text with
  | nil => simpa [spelled] using gone
  | cons first more ih =>
    refine ih (fun pair later => absent pair (List.mem_cons_of_mem first later)) ?_
    rw [or_iff_not_imp_left]
    intro notLater inside
    obtain ⟨d, inText, inside⟩ := List.mem_flatMap.1 inside
    split at inside
    case isTrue => exact absent first List.mem_cons_self inside
    case isFalse differ =>
      obtain rfl := List.mem_singleton.1 inside
      exact gone.elim (fun known => (List.mem_cons.1 known).elim differ notLater)
        fun absent => absent inText

theorem flatMap_eq_spelled {escape : Char → List Char}
    (special : ∀ pair ∈ spellings, escape pair.1 = spelled spellings [pair.1])
    (plain : ∀ c, c ∉ spellings.map Prod.fst → escape c = [c]) (text : List Char) :
    text.flatMap escape = spelled spellings text := by
  have each (c : Char) : escape c = spelled spellings [c] := by
    by_cases known : c ∈ spellings.map Prod.fst
    · obtain ⟨pair, inside, rfl⟩ := List.mem_map.1 known
      exact special pair inside
    · rw [plain c known, spelled_singleton known]
  rw [funext each, ← spelled_flatMap, List.flatMap_singleton']

end

theorem escapeText_eq_spelled (text : List Char) :
    escapeText text = spelled textSpellings text := by
  refine flatMap_eq_spelled (by decide) (fun c plain => ?_) text
  obtain ⟨notAmpersand, notLess, notGreater⟩ := by simpa [textSpellings] using plain
  simp [escapeTextChar, notAmpersand, notLess, notGreater]

theorem escapeAttribute_eq_spelled (text : List Char) :
    escapeAttribute text = spelled attributeSpellings text := by
  refine flatMap_eq_spelled (by decide) (fun c plain => ?_) text
  obtain ⟨notAmpersand, notQuote, notLess, notGreater⟩ := by
    simpa [attributeSpellings] using plain
  simp [escapeAttributeChar, escapeTextChar, notAmpersand, notQuote, notLess, notGreater]

theorem not_mem_escapeText {c : Char} (bracket : c = '<' ∨ c = '>') (text : List Char) :
    c ∉ escapeText text := by
  rw [escapeText_eq_spelled]
  rcases bracket with rfl | rfl <;> exact not_mem_spelled (by decide) (.inl (by decide))

theorem not_mem_escapeAttribute {c : Char} (delimiter : c = '<' ∨ c = '>' ∨ c = '\x22')
    (text : List Char) : c ∉ escapeAttribute text := by
  rw [escapeAttribute_eq_spelled]
  rcases delimiter with rfl | rfl | rfl <;> exact not_mem_spelled (by decide) (.inl (by decide))

theorem escapeText_append (left right : List Char) :
    escapeText (left ++ right) = escapeText left ++ escapeText right :=
  List.flatMap_append

theorem escapeText_eq_nil {text : List Char} : escapeText text = [] ↔ text = [] := by
  refine ⟨?_, fun nothing => by rw [nothing, escapeText, List.flatMap_nil]⟩
  intro nothing
  rw [← decode_escapeText text, nothing, decode_nil]

end LiveList.Markup
