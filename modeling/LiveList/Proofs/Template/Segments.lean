import LiveList.Proofs.Template.Markers
import Mathlib.Data.List.Chain
import Mathlib.Data.List.Forall2

/-!
# Texts cut into segments

A text is a sequence of literals and markers. Main statements: a text is read as these segments
exactly if it is the literals and the markers in this order, a text is refused exactly if scanning it
meets a marker that does not end or is malformed, and segments that are written are read again.
-/

namespace LiveList.Template

inductive Segment.Covers : List Char → Segment → Prop
  | literal {text : String} : text ≠ "" → ¬ opening <:+: text.toList →
    Covers text.toList (.literal text)
  | marker {body : List Char} {segment : Segment} : Text.Single '\x7d' body →
    Segment.Spelled body segment → Covers (opening ++ (body ++ closing)) segment

/-- What may stand behind a segment: behind a literal a marker only, and not behind a single brace. -/
def Segment.Precedes : Segment → Segment → Prop
  | .literal text, next => next.isDynamic = true ∧ text.toList.getLast? ≠ some '\x7b'
  | _, _ => True

/-- Scanning from the left meets a marker that does not end or whose body is malformed. -/
inductive Flawed : List Char → Prop
  | unclosed {lead rest : List Char} : Text.Single '\x7b' lead → ¬ closing <:+: rest →
    Flawed (lead ++ (opening ++ rest))
  | malformed {lead body behind : List Char} : Text.Single '\x7b' lead → Text.Single '\x7d' body →
    Expr.Malformed (unmarked body) → Flawed (lead ++ (opening ++ (body ++ (closing ++ behind))))
  | later {lead body behind : List Char} : Text.Single '\x7b' lead → Text.Single '\x7d' body →
    Flawed behind → Flawed (lead ++ (opening ++ (body ++ (closing ++ behind))))

variable {whole : String} {text lead body rest behind : List Char} {segment : Segment}
  {found : List Segment} {failure : TemplateError}

/-! ## One marker -/

theorem Segment.Spelled.isDynamic (spelled : Segment.Spelled body segment) :
    segment.isDynamic = true := by
  cases spelled <;> rfl

theorem Segment.Spelled.precedes (spelled : Segment.Spelled body segment) (next : Segment) :
    segment.Precedes next := by
  cases spelled <;> trivial

theorem segmentsFrom_literal (free : ¬ opening <:+: text) :
    segmentsFrom whole text = .ok (literalSegment text) := by
  have absent := Text.breakOn_eq_none.2 free
  rw [segmentsFrom]
  split
  case h_1 => rfl
  case h_2 found => simp [absent] at found

theorem segmentsFrom_unclosed (first : Text.Single '\x7b' lead) (endless : ¬ closing <:+: rest) :
    segmentsFrom whole (lead ++ (opening ++ rest)) =
      .error (.unterminated (Text.trimmed whole)) := by
  have atOpening : Text.breakOn opening _ = _ := Text.breakOn_pair_append first rest
  have atClosing := Text.breakOn_eq_none.2 endless
  rw [segmentsFrom]
  split
  case h_1 none => cases atOpening.symm.trans none
  case h_2 found =>
    cases atOpening.symm.trans found
    split
    case h_1 => rfl
    case h_2 found => simp [atClosing] at found

theorem segmentsFrom_marker (first : Text.Single '\x7b' lead) (single : Text.Single '\x7d' body)
    (behind : List Char) :
    segmentsFrom whole (lead ++ (opening ++ (body ++ (closing ++ behind)))) = do
      let segment ← Segment.parse body
      let segments ← segmentsFrom whole behind
      return literalSegment lead ++ segment :: segments := by
  have atOpening : Text.breakOn opening _ = _ :=
    Text.breakOn_pair_append first (body ++ (closing ++ behind))
  have atClosing : Text.breakOn closing _ = _ := Text.breakOn_pair_append single behind
  rw [segmentsFrom]
  split
  case h_1 none => cases atOpening.symm.trans none
  case h_2 found =>
    cases atOpening.symm.trans found
    split
    case h_1 none => cases atClosing.symm.trans none
    case h_2 found =>
      cases atClosing.symm.trans found
      rfl

/-- Every text is a literal, holds a marker that does not end or goes on behind a marker. -/
theorem scan_induction {motive : List Char → Prop}
    (literal : ∀ text, ¬ opening <:+: text → motive text)
    (unclosed : ∀ lead rest, Text.Single '\x7b' lead → ¬ closing <:+: rest →
      motive (lead ++ (opening ++ rest)))
    (marker : ∀ lead body behind, Text.Single '\x7b' lead → Text.Single '\x7d' body →
      motive behind → motive (lead ++ (opening ++ (body ++ (closing ++ behind)))))
    (text : List Char) : motive text := by
  induction size : text.length using Nat.strongRecOn generalizing text with
  | ind n ih =>
    cases atOpening : Text.breakOn opening text with
    | none => exact literal text (Text.breakOn_eq_none.1 atOpening)
    | some cut =>
      obtain ⟨lead, rest⟩ := cut
      have first := Text.single_of_breakOn atOpening
      obtain rfl : text = lead ++ (opening ++ rest) := by simpa using Text.eq_of_breakOn atOpening
      cases atClosing : Text.breakOn closing rest with
      | none => exact unclosed lead rest first (Text.breakOn_eq_none.1 atClosing)
      | some cut =>
        obtain ⟨body, behind⟩ := cut
        have smaller := length_lt_of_marker atOpening atClosing
        obtain rfl : rest = body ++ (closing ++ behind) := by simpa using Text.eq_of_breakOn atClosing
        exact marker lead body behind first (Text.single_of_breakOn atClosing)
          (ih behind.length (size ▸ smaller) behind rfl)

theorem segmentsFrom_marker_ok (first : Text.Single '\x7b' lead) (single : Text.Single '\x7d' body) :
    segmentsFrom whole (lead ++ (opening ++ (body ++ (closing ++ behind)))) = .ok found ↔
      ∃ segment segments, Segment.Spelled body segment ∧ segmentsFrom whole behind = .ok segments ∧
        found = literalSegment lead ++ segment :: segments := by
  rw [segmentsFrom_marker first single]
  constructor
  · intro run
    obtain ⟨segment, isSegment, run⟩ := bind_eq_ok.1 run
    obtain ⟨segments, isRest, made⟩ := bind_eq_ok.1 run
    cases made
    exact ⟨segment, segments, Segment.parse_eq_ok_iff.1 isSegment, isRest, rfl⟩
  · rintro ⟨segment, segments, spelled, isRest, rfl⟩
    rw [Segment.parse_eq_ok_iff.2 spelled, isRest]
    rfl

/-! ## What is read -/

theorem covers_literalSegment (free : ¬ opening <:+: lead) : ∃ pieces : List (List Char),
    pieces.flatten = lead ∧ List.Forall₂ Segment.Covers pieces (literalSegment lead) := by
  unfold literalSegment
  split
  case isTrue empty => exact ⟨[], empty.symm, .nil⟩
  case isFalse notNil =>
    have covers : Segment.Covers (String.ofList lead).toList (.literal (String.ofList lead)) :=
      .literal (fun empty => notNil (String.ofList_eq_empty_iff.1 empty)) (by simpa using free)
    rw [String.toList_ofList] at covers
    exact ⟨[lead], by simp, .cons covers .nil⟩

theorem isChain_literalSegment_append (first : Text.Single '\x7b' lead)
    (dynamic : segment.isDynamic = true) (chain : (segment :: found).IsChain Segment.Precedes) :
    (literalSegment lead ++ segment :: found).IsChain Segment.Precedes := by
  unfold literalSegment
  split
  · exact chain
  · refine .cons_cons ⟨dynamic, ?_⟩ chain
    simpa using first.2

theorem exists_pieces (read : segmentsFrom whole text = .ok found) : ∃ pieces,
    pieces.flatten = text ∧ List.Forall₂ Segment.Covers pieces found ∧
      found.IsChain Segment.Precedes := by
  induction text using scan_induction generalizing found with
  | literal text free =>
    rw [segmentsFrom_literal free] at read
    cases read
    obtain ⟨pieces, whole, covers⟩ := covers_literalSegment free
    refine ⟨pieces, whole, covers, ?_⟩
    unfold literalSegment
    split
    · exact .nil
    · exact .singleton _
  | unclosed lead rest first endless =>
    rw [segmentsFrom_unclosed first endless] at read
    cases read
  | marker lead body behind first single ih =>
    obtain ⟨segment, segments, spelled, isRest, rfl⟩ := (segmentsFrom_marker_ok first single).1 read
    obtain ⟨before, isLead, coversLead⟩ := covers_literalSegment first.1
    obtain ⟨pieces, isBehind, covers, chain⟩ := ih isRest
    refine ⟨before ++ (opening ++ (body ++ closing)) :: pieces, ?_, ?_, ?_⟩
    · simp [isLead, isBehind]
    · exact List.rel_append coversLead (.cons (.marker single spelled) covers)
    · apply isChain_literalSegment_append first spelled.isDynamic
      exact List.isChain_cons.2 ⟨fun next _ => spelled.precedes next, chain⟩

theorem segmentsFrom_of_pieces {pieces : List (List Char)}
    (covers : List.Forall₂ Segment.Covers pieces found) (chain : found.IsChain Segment.Precedes) :
    segmentsFrom whole pieces.flatten = .ok found := by
  induction covers with
  | nil => exact segmentsFrom_literal (by decide)
  | @cons piece first pieces more here later ih =>
    obtain ⟨precedes, chain⟩ := List.isChain_cons.1 chain
    have behind := ih chain
    cases here with
    | marker single spelled =>
      have read := (segmentsFrom_marker_ok Text.single_nil single).2 ⟨first, more, spelled, behind, rfl⟩
      simpa [literalSegment] using read
    | @literal text notEmpty free =>
      have isLiteral : literalSegment text.toList = [.literal text] := by
        rw [literalSegment, if_neg (mt String.toList_eq_nil_iff.1 notEmpty), String.ofList_toList]
      cases later with
      | nil =>
        rw [← isLiteral]
        simpa using segmentsFrom_literal free
      | @cons piece next pieces more isNext later =>
        obtain ⟨dynamic, ends⟩ := precedes next rfl
        cases isNext with
        | literal => cases dynamic
        | @marker body _ single spelled =>
          -- What was read without the literal in front tells what stands behind the marker.
          obtain ⟨segment, segments, again, isRest, split⟩ :=
            (segmentsFrom_marker_ok Text.single_nil single).1 (by simpa using behind)
          obtain ⟨rfl, rfl⟩ : next = segment ∧ more = segments := List.cons.inj split
          have read := (segmentsFrom_marker_ok ⟨free, ends⟩ single).2
            ⟨next, more, spelled, isRest, rfl⟩
          rw [isLiteral] at read
          simpa using read

/-! ## What is refused -/

theorem exists_segmentsFrom_marker (first : Text.Single '\x7b' lead)
    (single : Text.Single '\x7d' body) :
    (∃ found, segmentsFrom whole (lead ++ (opening ++ (body ++ (closing ++ behind)))) = .ok found) ↔
      ¬ Expr.Malformed (unmarked body) ∧ ∃ found, segmentsFrom whole behind = .ok found := by
  simp only [segmentsFrom_marker_ok first single, ← Segment.exists_spelled_iff]
  constructor
  · rintro ⟨_, segment, segments, spelled, isRest, -⟩
    exact ⟨⟨segment, spelled⟩, segments, isRest⟩
  · rintro ⟨⟨segment, spelled⟩, segments, isRest⟩
    exact ⟨_, segment, segments, spelled, isRest, rfl⟩

theorem segmentsFrom_error_iff :
    (∃ failure, segmentsFrom whole text = .error failure) ↔ Flawed text := by
  constructor
  · intro refused
    induction text using scan_induction with
    | literal text free =>
      rw [segmentsFrom_literal free] at refused
      obtain ⟨failure, refused⟩ := refused
      cases refused
    | unclosed lead rest first endless => exact .unclosed first endless
    | marker lead body behind first single ih =>
      rw [exists_error_iff, exists_segmentsFrom_marker first single] at refused
      by_cases malformed : Expr.Malformed (unmarked body)
      · exact .malformed first single malformed
      · exact .later first single (ih (exists_error_iff.2 fun read => refused ⟨malformed, read⟩))
  · intro flawed
    induction flawed with
    | unclosed first endless => exact ⟨_, segmentsFrom_unclosed first endless⟩
    | malformed first single malformed =>
      rw [exists_error_iff, exists_segmentsFrom_marker first single]
      exact fun read => read.1 malformed
    | later first single flawed ih =>
      rw [exists_error_iff, exists_segmentsFrom_marker first single]
      exact fun read => exists_error_iff.1 ih read.2

theorem syntactic_of_segmentsFrom (refused : segmentsFrom whole text = .error failure) :
    Syntactic failure := by
  induction text using scan_induction with
  | literal text free =>
    rw [segmentsFrom_literal free] at refused
    cases refused
  | unclosed lead rest first endless =>
    rw [segmentsFrom_unclosed first endless] at refused
    cases refused
    exact ⟨_, rfl⟩
  | marker lead body behind first single ih =>
    rw [segmentsFrom_marker first single] at refused
    rcases bind_eq_error.1 refused with inBody | ⟨segment, -, refused⟩
    · exact Segment.syntactic_of_parse inBody
    rcases bind_eq_error.1 refused with inRest | ⟨segments, -, made⟩
    · exact ih inRest
    · cases made

/-! ## What is written -/

theorem Segment.Neat.covers (neat : segment.Neat) : Segment.Covers segment.written segment := by
  cases segment with
  | literal text => exact .literal neat.1 neat.2
  | ofRecord expr =>
    exact .marker (neat.1.single_body (by decide)) (Segment.spelled_of_record neat)
  | ofItem expr =>
    have isNeat : expr.Neat := neat
    exact .marker (isNeat.single_body (by decide)) (Segment.spelled_of_item neat)

/-- Reading a text into segments and writing segments fit together: what is read lies in the text piece
by piece, what is refused has a flaw, and what is written is read again. -/
theorem segments_read_written (text : String) :
    (∀ found, segments text = .ok found ↔ ∃ pieces, pieces.flatten = text.toList ∧
      List.Forall₂ Segment.Covers pieces found ∧ found.IsChain Segment.Precedes) ∧
    ((∃ failure, segments text = .error failure) ↔ Flawed text.toList) ∧
    (∀ failure, segments text = .error failure → Syntactic failure) ∧
    ∀ written : List Segment, (∀ segment ∈ written, segment.Neat) →
      written.IsChain Segment.Precedes →
      segments (String.ofList (written.flatMap Segment.written)) = .ok written := by
  refine ⟨fun found => ⟨exists_pieces, ?_⟩, segmentsFrom_error_iff,
    fun failure => syntactic_of_segmentsFrom, ?_⟩
  · rintro ⟨pieces, whole, covers, chain⟩
    rw [segments, ← whole]
    exact segmentsFrom_of_pieces covers chain
  · intro written neat chain
    have covers : List.Forall₂ Segment.Covers (written.map Segment.written) written := by
      rw [List.forall₂_map_left_iff, List.forall₂_same]
      exact fun segment inside => (neat segment inside).covers
    rw [segments, String.toList_ofList, List.flatMap_def]
    exact segmentsFrom_of_pieces covers chain

def greeting : List Segment :=
  [.literal "Hi \x7b\x7d ", .ofRecord ⟨"user.name", .fields ["user", "name"], ["upper"]⟩,
    .ofItem ⟨"this", .this, []⟩, .literal "\x7d!"]

theorem greeting_read_written :
    segments "Hi \x7b\x7d \x7b\x7b user.name | upper \x7d\x7d\x7b\x7b# this \x7d\x7d\x7d!" =
      .ok greeting ∧
    ∃ failure, segments "\x7b\x7b a..b \x7d\x7d" = .error failure ∧ Syntactic failure := by
  have neat : ∀ segment ∈ greeting, segment.Neat := by
    simp only [greeting, List.forall_mem_cons]
    refine ⟨⟨by decide, by decide⟩, ⟨⟨by decide, ?_⟩, by decide⟩, ⟨by decide, .this⟩,
      ⟨by decide, by decide⟩, by simp⟩
    exact .fields (by decide) (by decide) (by decide)
  have chain : greeting.IsChain Segment.Precedes :=
    .cons_cons ⟨rfl, by decide⟩ (.cons_cons trivial (.cons_cons trivial (.singleton _)))
  refine ⟨(segments_read_written "").2.2.2 greeting neat chain, ?_⟩
  have flawed : Flawed "\x7b\x7b a..b \x7d\x7d".toList := by
    refine @Flawed.malformed [] [' ', 'a', '.', '.', 'b', ' '] [] Text.single_nil
      ⟨by decide, by decide⟩ ⟨['a', '.', '.', 'b'], [], by decide, .inr (.inl ⟨[], by decide, ?_⟩)⟩
    exact fun c inside => absurd inside List.not_mem_nil
  obtain ⟨refuses, syntactic, -⟩ := (segments_read_written "\x7b\x7b a..b \x7d\x7d").2
  obtain ⟨failure, refused⟩ := refuses.2 flawed
  exact ⟨failure, refused, syntactic failure refused⟩

end LiveList.Template
