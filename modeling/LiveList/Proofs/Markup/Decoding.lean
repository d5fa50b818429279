import LiveList.Proofs.Markup.Entity
import LiveList.Proofs.Text.Pieces

/-!
# Decoding in one pass

A text is a row of pieces: character references, and single characters, among which an ampersand
stands only where no reference starts. Main statement: decoding gives one character for each piece
that was written. So it undoes both escapes in front of any text, and a reference that only its own
output spells stays as it is.
-/

namespace LiveList.Markup

structure Refers (name : List Char) (c : Char) : Prop where
  absent : ';' ∉ name
  short : Text.byteSize name ≤ greatestName
  named : referenceChar? name = some c

inductive Piece where
  | character (c : Char)
  | reference (name : List Char) (c : Char)

def Piece.written : Piece → List Char
  | .character c => [c]
  | .reference name _ => '&' :: (name ++ [';'])

def Piece.meant : Piece → Char
  | .character c => c
  | .reference _ c => c

/-- The pieces of a text. A reference is taken as soon as it starts. -/
inductive Pieces : List Char → List Piece → Prop
  | nil : Pieces [] []
  | character {c : Char} {rest : List Char} {row : List Piece} :
    (c = '&' → ∀ name d behind, Refers name d → rest ≠ name ++ ';' :: behind) →
    Pieces rest row → Pieces (c :: rest) (.character c :: row)
  | reference {name rest : List Char} {c : Char} {row : List Piece} : Refers name c →
    Pieces rest row → Pieces ('&' :: (name ++ ';' :: rest)) (.reference name c :: row)

variable {text name rest behind : List Char} {c : Char} {row front back : List Piece}

/-! ## One reference -/

theorem readReference_eq_some_iff :
    readReference text = some (c, behind) ↔ ∃ name, Refers name c ∧ text = name ++ ';' :: behind := by
  constructor
  · intro read
    unfold readReference at read
    split at read
    case h_1 => cases read
    case h_2 name rest found =>
      split at read
      case isTrue short =>
        obtain ⟨d, named, same⟩ := Option.map_eq_some_iff.1 read
        cases same
        exact ⟨name, ⟨Text.not_mem_of_cut found, short, named⟩, Text.eq_of_cut found⟩
      case isFalse => cases read
  · rintro ⟨name, refers, rfl⟩
    exact readReference_append refers.absent refers.short refers.named behind

theorem decode_ampersand
    (none : ∀ name d behind, Refers name d → rest ≠ name ++ ';' :: behind) :
    decode ('&' :: rest) = '&' :: decode rest := by
  rw [decode, if_pos rfl]
  split
  case h_1 d behind read =>
    obtain ⟨name, refers, same⟩ := readReference_eq_some_iff.1 read
    exact absurd same (none name d behind refers)
  case h_2 => rfl

theorem Refers.decode_eq (refers : Refers name c) (behind : List Char) :
    decode ('&' :: (name ++ ';' :: behind)) = c :: decode behind :=
  decode_reference name refers.absent refers.short refers.named behind

/-! ## Rows of pieces -/

theorem exists_pieces (text : List Char) : ∃ row, Pieces text row := by
  fun_induction decode text with
  | case1 => exact ⟨[], .nil⟩
  | case2 rest d behind read _ ih =>
    obtain ⟨name, refers, rfl⟩ := readReference_eq_some_iff.1 read
    obtain ⟨row, pieces⟩ := ih
    exact ⟨_, .reference refers pieces⟩
  | case3 rest none ih =>
    obtain ⟨row, pieces⟩ := ih
    refine ⟨_, .character (fun _ name d behind refers same => ?_) pieces⟩
    rw [readReference_eq_some_iff.2 ⟨name, refers, same⟩] at none
    cases none
  | case4 c rest plain ih =>
    obtain ⟨row, pieces⟩ := ih
    exact ⟨_, .character (fun ampersand => absurd ampersand plain) pieces⟩

namespace Pieces

theorem unique {other : List Piece} (pieces : Pieces text row) (others : Pieces text other) :
    other = row := by
  induction pieces generalizing other with
  | nil =>
    cases others
    rfl
  | character alone _ ih =>
    cases others with
    | character _ later => rw [ih later]
    | reference refers => exact absurd rfl (alone rfl _ _ _ refers)
  | @reference name rest c row refers _ ih =>
    generalize whole : '&' :: (name ++ ';' :: rest) = text at others
    cases others with
    | nil => cases whole
    | character alone =>
      obtain ⟨ampersand, same⟩ := List.cons.inj whole
      exact absurd same.symm (alone ampersand.symm _ _ _ refers)
    | reference refers' later =>
      have cuts := congrArg (Text.cut ';') (List.cons.inj whole).2
      rw [Text.cut_append refers.absent, Text.cut_append refers'.absent] at cuts
      cases cuts
      cases refers.named.symm.trans refers'.named
      rw [ih later]

theorem written (pieces : Pieces text row) : row.flatMap Piece.written = text := by
  induction pieces with
  | nil => rfl
  | character _ _ ih => simp [Piece.written, ih]
  | reference _ _ ih => simp [Piece.written, ih]

theorem decode_eq (pieces : Pieces text row) : decode text = row.map Piece.meant := by
  induction pieces with
  | nil => exact decode_nil
  | @character c rest row alone _ ih =>
    rw [List.map_cons, ← ih]
    by_cases ampersand : c = '&'
    · subst ampersand
      exact decode_ampersand (alone rfl)
    · exact decode_cons_of_ne ampersand rest
  | reference refers _ ih => rw [refers.decode_eq, ih, List.map_cons, Piece.meant]

theorem drop (pieces : Pieces text (front ++ back)) :
    Pieces (back.flatMap Piece.written) back := by
  induction front generalizing text with
  | nil =>
    rw [List.nil_append] at pieces
    rwa [pieces.written]
  | cons piece front ih => cases pieces with
    | character _ later => exact ih later
    | reference _ later => exact ih later

end Pieces

/-! ## Decoding -/

/-- Decoding undoes both escapes in front of any text, and escaped texts hold no delimiters. It
takes the pieces of a text one after the other: what it has made of the first ones stands, whatever
this spells, and what is left to decode is what was written behind them. -/
theorem decode_onePass (text behind : List Char) :
    (decode (escapeText text ++ behind) = text ++ decode behind ∧
      decode (escapeAttribute text ++ behind) = text ++ decode behind) ∧
    ('<' ∉ escapeText text ∧ '>' ∉ escapeText text) ∧
    ('<' ∉ escapeAttribute text ∧ '>' ∉ escapeAttribute text ∧ '\x22' ∉ escapeAttribute text) ∧
    ∃ row, (∀ other, Pieces text other ↔ other = row) ∧
      row.flatMap Piece.written = text ∧ decode text = row.map Piece.meant ∧
      ∀ front back, row = front ++ back →
        decode text = front.map Piece.meant ++ decode (back.flatMap Piece.written) := by
  refine ⟨⟨decode_escapeText_append text behind, decode_escapeAttribute_append text behind⟩,
    ⟨not_mem_escapeText (.inl rfl) text, not_mem_escapeText (.inr rfl) text⟩,
    ⟨not_mem_escapeAttribute (.inl rfl) text, not_mem_escapeAttribute (.inr (.inl rfl)) text,
      not_mem_escapeAttribute (.inr (.inr rfl)) text⟩, ?_⟩
  obtain ⟨row, pieces⟩ := exists_pieces text
  refine ⟨row, fun other => ⟨pieces.unique, fun same => same ▸ pieces⟩, pieces.written,
    pieces.decode_eq, ?_⟩
  rintro front back rfl
  rw [pieces.decode_eq, pieces.drop.decode_eq, List.map_append]

theorem decode_onePass_nested : decode "&amp;lt;".toList = "&lt;".toList ∧
    decode "&am&#112;; &#38;amp;".toList = "&amp; &amp;".toList ∧
    decode (escapeText "&lt;".toList) = "&lt;".toList := by
  refine ⟨?_, by decide +kernel, ?_⟩
  · exact (decode_onePass ['&'] "lt;".toList).1.1.trans (by decide +kernel)
  · exact (List.append_nil (escapeText "&lt;".toList)) ▸
      (decode_onePass "&lt;".toList []).1.1.trans (by decide +kernel)

end LiveList.Markup
