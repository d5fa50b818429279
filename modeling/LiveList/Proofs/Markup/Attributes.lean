import LiveList.Markup.Lexer
import LiveList.Proofs.Markup.Entity
import LiveList.Proofs.OrderedMap

namespace LiveList.Markup

def braces : List Char := ['\x7b', '\x7b']

def closingBraces : List Char := ['\x7d', '\x7d']

/-- A text holds braces that nothing behind them in it closes. -/
def LeavesOpen (text : List Char) : Prop :=
  ∃ left right, text = left ++ (braces ++ right) ∧ ¬ closingBraces <:+: right

def Settled (printed : String × List Char) : Prop :=
  LeavesOpen printed.1.toList → ¬ closingBraces <:+: printed.2

structure ReadName (name : String) : Prop where
  ne_empty : name ≠ ""
  kept : Lexer.attributeName name.toList = name
  whole : Lexer.spanUnquoted Lexer.endsName name.toList = (name.toList, [])

/-- A name of an attribute that is read as it is printed, whatever stands behind it. -/
structure PlainName (name : String) : Prop where
  ne_empty : name ≠ ""
  lower : lowerName name.toList = name.toList
  closed : ∀ c ∈ name.toList, Lexer.endsName c = false
  bare : ¬ braces <:+: name.toList

theorem lowerName_eq_self {name : List Char} (all : ∀ c ∈ name, Text.lowerLetter c = c) :
    lowerName name = name := by
  have lower : lowerName name = name.map id := List.map_congr_left all
  rw [lower, List.map_id]

theorem plainName_of_all {name : String} (notEmpty : name ≠ "")
    (all : name.toList.all (fun c => Text.lowerLetter c == c && !Lexer.endsName c) = true)
    (bare : Text.breakOn braces name.toList = none) : PlainName name := by
  rw [List.all_eq_true] at all
  simp only [Bool.and_eq_true, beq_iff_eq, Bool.not_eq_true'] at all
  exact ⟨notEmpty, lowerName_eq_self fun c inside => (all c inside).1,
    fun c inside => (all c inside).2, Text.breakOn_eq_none.1 bare⟩

def valueMarkup (value : String) : List Char :=
  if value = "" then [] else ['=', '\x22'] ++ escapeAttribute value.toList ++ ['\x22']

theorem attributeMarkup_eq (name value : String) :
    attributeMarkup (name, value) = ' ' :: (name.toList ++ valueMarkup value) := rfl

def Attributes.printedNames (behind : List Char) : Attributes → List (String × List Char)
  | [] => []
  | (name, value) :: more =>
    (name, valueMarkup value ++ (more.flatMap attributeMarkup ++ behind)) :: printedNames behind more

structure NamedBy (kind : String → Prop) (attributes : Attributes) : Prop where
  names : ∀ name ∈ OrderedMap.keys attributes, kind name
  distinct : (OrderedMap.keys attributes).Nodup

namespace NamedBy

variable {kind : String → Prop} {attributes : Attributes} {name : String}

theorem put (named : NamedBy kind attributes) (ofKind : kind name) (value : String) :
    NamedBy kind (OrderedMap.put attributes name value) := by
  refine ⟨?_, OrderedMap.nodup_keys_put _ _ _ named.distinct⟩
  intro other inside
  rw [OrderedMap.keys_put] at inside
  split at inside
  · exact named.names other inside
  · cases List.mem_append.1 inside with
    | inl old =>
      exact named.names other old
    | inr new =>
      exact List.mem_singleton.1 new ▸ ofKind

theorem remove (named : NamedBy kind attributes) (name : String) :
    NamedBy kind (OrderedMap.remove attributes name) := by
  refine ⟨fun other inside => named.names other ?_, OrderedMap.nodup_keys_remove _ _ named.distinct⟩
  rw [OrderedMap.keys_remove] at inside
  exact (List.mem_filter.1 inside).1

theorem ofPairs {pairs : List (String × String)} (names : ∀ pair ∈ pairs, kind pair.1) :
    NamedBy kind (Attributes.ofPairs pairs) := by
  suffices more : ∀ made : Attributes, NamedBy kind made →
      NamedBy kind (pairs.foldl (fun attributes pair => if attributes.contains pair.1 then attributes
        else attributes.put pair.1 pair.2) made) from
    more [] ⟨by simp [OrderedMap.keys], List.nodup_nil⟩
  intro made named
  induction pairs generalizing made with
  | nil => exact named
  | cons first rest ih =>
    refine ih (fun pair inside => names pair (List.mem_cons_of_mem _ inside)) _ ?_
    dsimp only
    split
    · exact named
    · exact named.put (names first List.mem_cons_self) first.2

end NamedBy

namespace Lexer

variable {stop : Char → Bool} {text rest behind : List Char} {c : Char} {name value : String}

/-! ## Names -/

theorem readBraces_eq_none (absent : ¬ braces <+: text) : readBraces text = none := by
  have absent : Text.dropPattern ['\x7b', '\x7b'] text = none := Text.dropPattern_eq_none.2 absent
  rw [readBraces, absent]

theorem readBraces_eq_some {run : List Char} (read : readBraces text = some (run, behind)) :
    ∃ body, run = braces ++ (body ++ closingBraces) ∧ text = run ++ behind ∧
      ∀ rest, readBraces (run ++ rest) = some (run, rest) := by
  have whole := (eq_of_readBraces read).1
  unfold readBraces at read
  split at read
  case h_1 => cases read
  case h_2 inner opened =>
    obtain ⟨⟨body, last⟩, found, same⟩ := Option.map_eq_some_iff.1 read
    cases same
    refine ⟨body, by simp [braces, closingBraces], whole, fun rest => ?_⟩
    have again := Text.breakOn_behind found rest
    simp only [List.cons_append, List.nil_append, List.append_assoc] at again ⊢
    simp [readBraces, Text.dropPattern, again]

theorem readBraces_append {run : List Char} (read : readBraces text = some (run, behind))
    (rest : List Char) : readBraces (text ++ rest) = some (run, behind ++ rest) := by
  obtain ⟨-, -, whole, again⟩ := readBraces_eq_some read
  rw [whole, List.append_assoc, again]

theorem readBraces_braces : readBraces (braces ++ text) = none ↔ ¬ closingBraces <:+: text := by
  have inner : Text.dropPattern ['\x7b', '\x7b'] (braces ++ text) = some text :=
    Text.dropPattern_append braces text
  simp only [readBraces, inner, Option.map_eq_none_iff]
  exact Text.breakOn_eq_none

theorem spanUnquoted_of_run {run : List Char} (read : readBraces text = some (run, behind)) :
    spanUnquoted stop text =
      (run ++ (spanUnquoted stop behind).1, (spanUnquoted stop behind).2) := by
  cases text with
  | nil => cases read
  | cons c rest =>
    rw [spanUnquoted]
    split
    · simp_all
    · simp_all

theorem spanUnquoted_of_none (read : readBraces (c :: rest) = none) :
    spanUnquoted stop (c :: rest) =
      if stop c then ([], c :: rest) else
        (c :: (spanUnquoted stop rest).1, (spanUnquoted stop rest).2) := by
  rw [spanUnquoted]
  split
  · simp_all
  · rfl

theorem spanUnquoted_stop (stops : stop c) (notBrace : c ≠ '\x7b') :
    spanUnquoted stop (c :: rest) = ([], c :: rest) := by
  have none : readBraces (c :: rest) = none :=
    readBraces_eq_none fun there => notBrace (List.cons_prefix_cons.1 there).1.symm
  rw [spanUnquoted_of_none none, if_pos stops]

theorem spanUnquoted_plain {name : List Char} (closed : ∀ c ∈ name, stop c = false)
    (bare : ¬ braces <:+: name) : spanUnquoted stop name = (name, []) := by
  induction name with
  | nil => rw [spanUnquoted]
  | cons c name ih =>
    have none := readBraces_eq_none fun there => bare there.isInfix
    have later := ih (fun d inside => closed d (List.mem_cons_of_mem _ inside))
      fun inside => bare (inside.trans (List.suffix_cons _ _).isInfix)
    simp [spanUnquoted_of_none none, closed c List.mem_cons_self, later]

/-- What was read is read again: its braces that are not closed were closed nowhere. -/
theorem spanUnquoted_fst (stop : Char → Bool) (text : List Char) :
    spanUnquoted stop (spanUnquoted stop text).1 = ((spanUnquoted stop text).1, []) := by
  fun_induction spanUnquoted stop text with
  | case1 => rw [spanUnquoted]
  | case2 c rest run behind read _ more last same ih =>
    rw [same] at ih
    obtain ⟨-, -, -, again⟩ := readBraces_eq_some read
    rw [spanUnquoted_of_run (again more), ih]
  | case3 => rw [spanUnquoted]
  | case4 c rest unbraced passes more last same ih =>
    have whole := spanUnquoted_append stop rest
    rw [same] at ih whole
    have unbraced' : readBraces (c :: more) = none := by
      cases read : readBraces (c :: more) with
      | none => rfl
      | some parts =>
        obtain ⟨run, behind⟩ := parts
        have longer := readBraces_append read last
        rw [List.cons_append, whole, unbraced] at longer
        cases longer
    rw [spanUnquoted_of_none unbraced', if_neg passes, ih]

theorem leavesOpen_append {text : List Char} (opened : LeavesOpen text) (before : List Char) :
    LeavesOpen (before ++ text) := by
  obtain ⟨left, right, rfl, absent⟩ := opened
  exact ⟨before ++ left, right, by simp, absent⟩

theorem spanUnquoted_settled {name : List Char} (whole : spanUnquoted stop name = (name, []))
    (settled : LeavesOpen name → ¬ closingBraces <:+: c :: rest) (stops : stop c)
    (notOpen : c ≠ '\x7b') (notClose : c ≠ '\x7d') :
    spanUnquoted stop (name ++ c :: rest) = (name, c :: rest) := by
  fun_induction spanUnquoted stop name with
  | case1 => exact spanUnquoted_stop stops notOpen
  | case2 d tail run behind read _ more last same ih =>
    obtain ⟨-, -, parts, again⟩ := readBraces_eq_some read
    obtain ⟨joined, rfl⟩ := Prod.mk.inj whole
    obtain rfl : more = behind := List.append_cancel_left (joined.trans parts)
    have settled : LeavesOpen more → ¬ closingBraces <:+: c :: rest := fun opened =>
      settled (parts ▸ leavesOpen_append opened run)
    rw [parts, List.append_assoc, spanUnquoted_of_run (again _), ih same settled]
  | case3 => cases whole
  | case4 d tail unbraced passes more last same ih =>
    obtain ⟨joined, rfl⟩ := Prod.mk.inj whole
    obtain rfl : more = tail := (List.cons.inj joined).2
    have settledTail : LeavesOpen more → ¬ closingBraces <:+: c :: rest := fun opened =>
      settled (leavesOpen_append opened [d])
    have still : readBraces (d :: (more ++ c :: rest)) = none := by
      by_cases opens : braces <+: d :: (more ++ c :: rest)
      · -- the braces stand in the name, which leaves them open
        have inName : braces <+: d :: more :=
          Text.prefix_of_prefix_append_cons (by simpa [braces] using notOpen) opens
        obtain ⟨right, atStart⟩ := inName
        rw [← atStart] at unbraced
        have notIn := readBraces_braces.1 unbraced
        have notBehind := settled ⟨[], right, atStart.symm, notIn⟩
        rw [← List.cons_append, ← atStart, List.append_assoc]
        refine readBraces_braces.2 fun inside => ?_
        cases Text.infix_append_cons (by simpa [closingBraces] using notClose) inside with
        | inl inName => exact notIn inName
        | inr later => exact notBehind later
      · exact readBraces_eq_none opens
    rw [List.cons_append, spanUnquoted_of_none still, if_neg passes, ih same settledTail]

theorem trimStart_of_not_blank (notBlank : Text.isBlank c = false) :
    Text.trimStart (c :: rest) = c :: rest := by
  simp [Text.trimStart, notBlank]

theorem readAssignment_quoted {value : List Char} (absent : '\x22' ∉ value) (behind : List Char) :
    readAssignment ('=' :: '\x22' :: (value ++ '\x22' :: behind)) =
      (String.ofList (decode value), behind) := by
  have quoted : readQuoted '\x22' (value ++ '\x22' :: behind) = (value, behind) := by
    rw [readQuoted, Text.cut_append absent, Option.getD_some]
  rw [readAssignment, trimStart_of_not_blank (by decide), readValue]
  simp [quoted]

theorem readAssignment_value (value : String) (behind : List Char) :
    readAssignment ('=' :: '\x22' :: (escapeAttribute value.toList ++ '\x22' :: behind)) =
      (value, behind) := by
  rw [readAssignment_quoted (not_mem_escapeAttribute (.inr (.inr rfl)) _), decode_escapeAttribute,
    String.ofList_toList]

theorem readAssignment_none (notEquals : c ≠ '=') :
    readAssignment (c :: rest) = ("", c :: rest) := by
  rw [readAssignment]
  intro _ same
  exact notEquals (List.cons.inj same).1

def EndsAttribute (behind : List Char) : Prop :=
  ∃ c rest, behind = c :: rest ∧ endsName c ∧ c ≠ '\x7b' ∧
    ∃ d last, Text.trimStart behind = d :: last ∧ d ≠ '='

theorem spanUnquoted_name (read : ReadName name) (settled : Settled (name, c :: rest))
    (stops : endsName c) : spanUnquoted endsName (name.toList ++ c :: rest) = (name.toList, c :: rest) := by
  refine spanUnquoted_settled read.whole settled stops ?_ ?_ <;> rintro rfl <;>
    exact absurd stops (by decide)

theorem readAttribute_printed (read : ReadName name) (value : String)
    (settled : Settled (name, valueMarkup value ++ behind)) (ends : EndsAttribute behind) :
    ∃ left, readAttribute (name.toList ++ (valueMarkup value ++ behind)) =
      (name.toList, value, left) ∧ Text.trimStart left = Text.trimStart behind := by
  obtain ⟨c, rest, rfl, stops, -, d, last, trimmed, notEquals⟩ := ends
  by_cases empty : value = ""
  · subst empty
    refine ⟨d :: last, ?_, ?_⟩
    · rw [valueMarkup, if_pos rfl, List.nil_append] at settled ⊢
      rw [readAttribute, spanUnquoted_name read settled stops]
      simp only [trimmed, readAssignment_none notEquals]
    · rw [trimmed, trimStart_of_not_blank (Text.not_blank_of_trimStart trimmed)]
  · refine ⟨c :: rest, ?_, rfl⟩
    rw [valueMarkup, if_neg empty] at settled ⊢
    simp only [List.cons_append, List.append_assoc, List.nil_append] at settled ⊢
    rw [readAttribute, spanUnquoted_name read settled (by decide)]
    simp only [trimStart_of_not_blank (show Text.isBlank '=' = false by decide),
      readAssignment_value]

theorem readAttributes_close (closes : Text.trimStart text = '>' :: rest) :
    readAttributes text = ⟨[], false, rest⟩ := by
  rw [readAttributes]
  split
  · simp_all
  · simp_all

theorem readAttributes_cons {first : List Char} (begins : Text.trimStart text = c :: rest)
    (notClose : c ≠ '>') (notSlash : c ≠ '/')
    (read : readAttribute (c :: rest) = (first, value, behind)) (named : first ≠ []) :
    readAttributes text =
      { readAttributes behind with
        attributes := (attributeName first, value) :: (readAttributes behind).attributes } := by
  rw [readAttributes]
  split
  · simp_all
  case h_2 d last same =>
    rw [begins] at same
    obtain ⟨rfl, rfl⟩ := List.cons.inj same
    simp [notClose, notSlash, read, named]

theorem endsName_eq_false :
    endsName c = false ↔ Text.isBlank c = false ∧ c ≠ '=' ∧ c ≠ '>' ∧ c ≠ '/' := by
  simp [endsName, and_assoc]

theorem exists_cons_of_read (read : ReadName name) :
    ∃ c tail, name.toList = c :: tail ∧ endsName c = false := by
  have whole := read.whole
  cases chars : name.toList with
  | nil => exact absurd (String.toList_eq_nil_iff.1 chars) read.ne_empty
  | cons c tail =>
    refine ⟨c, tail, rfl, ?_⟩
    rw [Bool.eq_false_iff]
    intro stops
    have notBrace : c ≠ '\x7b' := by
      rintro rfl
      exact absurd stops (by decide)
    rw [chars, spanUnquoted_stop stops notBrace] at whole
    cases whole

theorem trimStart_attributeMarkup (read : ReadName name) (value : String) (behind : List Char) :
    Text.trimStart (attributeMarkup (name, value) ++ behind) =
      name.toList ++ (valueMarkup value ++ behind) := by
  obtain ⟨c, tail, chars, closed⟩ := exists_cons_of_read read
  have blank : Text.trimStart (' ' :: c :: (tail ++ (valueMarkup value ++ behind))) = _ :=
    List.dropWhile_cons_of_pos (by decide)
  rw [attributeMarkup_eq, chars]
  simp only [List.cons_append, List.append_assoc] at blank ⊢
  rw [blank]
  exact trimStart_of_not_blank (endsName_eq_false.1 closed).1

theorem endsAttribute_printed {attributes : Attributes}
    (read : ∀ name ∈ OrderedMap.keys attributes, ReadName name) (rest : List Char) :
    EndsAttribute (attributes.flatMap attributeMarkup ++ '>' :: rest) := by
  cases attributes with
  | nil => exact ⟨'>', rest, rfl, by decide, by decide, '>', rest, rfl, by decide⟩
  | cons first more =>
    obtain ⟨name, value⟩ := first
    have read : ReadName name := read name List.mem_cons_self
    obtain ⟨d, tail, chars, closed⟩ := exists_cons_of_read read
    have trimmed := trimStart_attributeMarkup read value
      (more.flatMap attributeMarkup ++ '>' :: rest)
    rw [← List.append_assoc, ← List.flatMap_cons, chars] at trimmed
    exact ⟨' ', _, rfl, by decide, by decide, d, _, trimmed, (endsName_eq_false.1 closed).2.1⟩

theorem readAttributes_printed {attributes : Attributes}
    (read : ∀ name ∈ OrderedMap.keys attributes, ReadName name) {rest : List Char}
    (settled : ∀ printed ∈ attributes.printedNames ('>' :: rest), Settled printed) :
    readAttributes (attributes.flatMap attributeMarkup ++ '>' :: rest) =
      ⟨attributes, false, rest⟩ := by
  -- An attribute without a value is read together with the blanks behind it.
  suffices reads : ∀ text, Text.trimStart text =
      Text.trimStart (attributes.flatMap attributeMarkup ++ '>' :: rest) →
      readAttributes text = ⟨attributes, false, rest⟩ from reads _ rfl
  induction attributes with
  | nil => exact fun text same => readAttributes_close same
  | cons first more ih =>
    intro text same
    obtain ⟨name, value⟩ := first
    have readMore : ∀ name ∈ OrderedMap.keys more, ReadName name :=
      fun name inside => read name (List.mem_cons_of_mem _ inside)
    have settledMore := fun printed inside => settled printed (List.mem_cons_of_mem _ inside)
    have read : ReadName name := read name List.mem_cons_self
    obtain ⟨c, tail, chars, closed⟩ := exists_cons_of_read read
    obtain ⟨-, -, notClose, notSlash⟩ := endsName_eq_false.1 closed
    obtain ⟨left, readFirst, trimmed⟩ := readAttribute_printed read value
      (settled _ List.mem_cons_self) (endsAttribute_printed readMore rest)
    rw [List.flatMap_cons, List.append_assoc, trimStart_attributeMarkup read] at same
    rw [chars, List.cons_append] at same readFirst
    rw [readAttributes_cons same notClose notSlash readFirst (by simp),
      ih readMore settledMore left trimmed, ← chars, read.kept]

end Lexer

namespace PlainName

variable {name : String}

theorem read (plain : PlainName name) : ReadName name := by
  refine ⟨plain.ne_empty, ?_, Lexer.spanUnquoted_plain plain.closed plain.bare⟩
  have absent : Text.breakOn ['\x7b', '\x7b'] name.toList = none :=
    Text.breakOn_eq_none.2 plain.bare
  simp [Lexer.attributeName, absent, plain.lower]

theorem settled (plain : PlainName name) (behind : List Char) : Settled (name, behind) := by
  rintro ⟨left, right, whole, -⟩
  exact absurd ⟨left, right, by rw [whole]; simp⟩ plain.bare

end PlainName

end LiveList.Markup
