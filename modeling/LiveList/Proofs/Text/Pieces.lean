import LiveList.Proofs.Text.Scan
import Mathlib.Data.List.DropRight

namespace LiveList.Text

theorem pieces_eq_splitOn (sep : Char) (text : List Char) : pieces sep text = text.splitOn sep := by
  induction text with
  | nil => rw [pieces, List.splitOn_nil]
  | cons c rest ih =>
    rw [pieces, ih, List.splitOn_cons_eq_if_modifyHead]
    by_cases here : c = sep
    · simp [here]
    · cases parts : rest.splitOn sep with
      | nil => exact absurd parts (List.splitOn_ne_nil sep rest)
      | cons piece more => simp [here]

theorem pieces_ne_nil (sep : Char) (text : List Char) : pieces sep text ≠ [] := by
  rw [pieces_eq_splitOn]
  exact List.splitOn_ne_nil sep text

theorem intercalate_pieces (sep : Char) (text : List Char) :
    [sep].intercalate (pieces sep text) = text := by
  rw [pieces_eq_splitOn, List.intercalate_splitOn]

theorem pieces_of_not_mem {sep : Char} {text : List Char} (absent : sep ∉ text) :
    pieces sep text = [text] := by
  rw [pieces_eq_splitOn, List.splitOn_eq_singleton absent]

theorem pieces_append (sep : Char) (before behind : List Char) :
    pieces sep (before ++ sep :: behind) = pieces sep before ++ pieces sep behind := by
  simp only [pieces_eq_splitOn, List.splitOn_append_cons_self]

theorem not_mem_of_mem_pieces {sep : Char} {text piece : List Char}
    (inside : piece ∈ pieces sep text) : sep ∉ piece := by
  fun_induction pieces sep text generalizing piece with
  | case1 => simp_all
  | case2 rest ih =>
    rcases List.mem_cons.1 inside with rfl | later
    · simp
    · exact ih later
  | case3 c rest differ none =>
    obtain rfl := List.mem_singleton.1 inside
    simpa using Ne.symm differ
  | case4 c rest differ first more parts ih =>
    rw [parts] at ih
    rcases List.mem_cons.1 inside with rfl | later
    · exact fun there => (List.mem_cons.1 there).elim (Ne.symm differ) (ih List.mem_cons_self)
    · exact ih (List.mem_cons_of_mem _ later)

theorem not_mem_of_cut {sep : Char} {text before behind : List Char}
    (found : cut sep text = some (before, behind)) : sep ∉ before := by
  induction text generalizing before with
  | nil => cases found
  | cons c rest ih =>
    rw [cut] at found
    split at found
    case isTrue =>
      cases found
      simp
    case isFalse differ =>
      obtain ⟨⟨inner, last⟩, later, same⟩ := Option.map_eq_some_iff.1 found
      cases same
      exact fun there => (List.mem_cons.1 there).elim (Ne.symm differ) (ih later)

theorem cut_eq_none {sep : Char} {text : List Char} : cut sep text = none ↔ sep ∉ text := by
  induction text with
  | nil => simp [cut]
  | cons c rest ih =>
    by_cases here : c = sep
    · simp [cut, here]
    · simp [cut, here, ih, Ne.symm here]

section

variable {c : Char} {text : List Char}

theorem trimEnd_eq_rdropWhile (text : List Char) : trimEnd text = text.rdropWhile isBlank := rfl

theorem mem_of_mem_trim (inside : c ∈ trim text) : c ∈ text :=
  (List.dropWhile_sublist _).subset ((List.rdropWhile_prefix _ _).subset inside)

theorem trim_append_of_blank {blanks : List Char} (blank : ∀ c ∈ blanks, isBlank c = true)
    (text : List Char) : trim (blanks ++ text) = trim text := by
  rw [trim, trimStart, List.dropWhile_append_of_pos blank]
  rfl

theorem not_blank_of_head (first : (trim text).head? = some c) : isBlank c = false := by
  obtain ⟨rest, whole⟩ := List.head?_eq_some_iff.1 first
  obtain ⟨cutOff, start⟩ : trim text <+: trimStart text := List.rdropWhile_prefix _ _
  have begins : trimStart text = c :: (rest ++ cutOff) := by
    rw [← start, whole, List.cons_append]
  exact not_blank_of_trimStart begins

theorem not_blank_of_getLast (last : (trim text).getLast? = some c) : isBlank c = false := by
  have notNil : trim text ≠ [] := by
    intro empty
    rw [empty] at last
    cases last
  rw [List.getLast?_eq_some_getLast notNil, Option.some.injEq] at last
  exact last ▸ Bool.eq_false_iff.2 (List.rdropWhile_last_not _ _ notNil)

theorem trim_eq_self : trim text = text ↔
    (∀ c, text.head? = some c → isBlank c = false) ∧
      ∀ c, text.getLast? = some c → isBlank c = false := by
  constructor
  · intro same
    constructor
    · exact fun c first => not_blank_of_head (by rwa [same])
    · exact fun c last => not_blank_of_getLast (by rwa [same])
  · rintro ⟨first, last⟩
    have start : trimStart text = text := by
      cases text with
      | nil => rfl
      | cons c rest => rw [trimStart, List.dropWhile_cons_of_neg (by simp [first c rfl])]
    rw [trim, start, trimEnd_eq_rdropWhile, List.rdropWhile_eq_self_iff]
    exact fun notNil => Bool.eq_false_iff.1 (last _ (List.getLast?_eq_some_getLast notNil))

theorem trim_append_cons {behind : List Char} (first : trim text = text) (notBlank : isBlank c = false)
    (second : trim behind = behind) : trim (text ++ c :: behind) = text ++ c :: behind := by
  obtain ⟨head, -⟩ := trim_eq_self.1 first
  obtain ⟨-, last⟩ := trim_eq_self.1 second
  refine trim_eq_self.2 ⟨fun d starts => ?_, fun d ends => ?_⟩
  · cases text with
    | nil =>
      cases starts
      exact notBlank
    | cons e rest => exact head d starts
  · cases behind using List.reverseRecOn with
    | nil =>
      obtain rfl : c = d := by simpa using ends
      exact notBlank
    | append_singleton rest e =>
      rw [← List.cons_append, ← List.append_assoc, List.getLast?_concat] at ends
      exact last d (by rw [List.getLast?_concat, ends])

theorem trim_append_append {behind : List Char} (first : trim text = text) (notNil : text ≠ [])
    (second : trim behind = behind) (notEmpty : behind ≠ []) (between : List Char) :
    trim (text ++ between ++ behind) = text ++ between ++ behind := by
  obtain ⟨head, -⟩ := trim_eq_self.1 first
  obtain ⟨-, last⟩ := trim_eq_self.1 second
  refine trim_eq_self.2 ⟨fun c starts => head c ?_, fun c ends => last c ?_⟩
  · rwa [List.append_assoc, List.head?_append_of_ne_nil _ notNil] at starts
  · rwa [List.getLast?_append_of_ne_nil _ notEmpty] at ends

theorem trim_trim (text : List Char) : trim (trim text) = trim text :=
  trim_eq_self.2 ⟨fun _ => not_blank_of_head, fun _ => not_blank_of_getLast⟩

theorem trim_eq_nil : trim text = [] ↔ ∀ c ∈ text, isBlank c = true := by
  rw [trim, trimEnd_eq_rdropWhile, List.rdropWhile_eq_nil_iff]
  refine ⟨fun blank => ?_, fun blank c inside => blank c ((List.dropWhile_sublist _).subset inside)⟩
  cases start : trimStart text with
  | nil => exact fun c inside => List.dropWhile_eq_nil_iff.1 start c inside
  | cons first rest =>
    have notBlank := not_blank_of_trimStart start
    rw [blank first (start ▸ List.mem_cons_self)] at notBlank
    cases notBlank

theorem trim_cons_of_blank (blank : isBlank c = true) (text : List Char) :
    trim (c :: text) = trim text :=
  @trim_append_of_blank [c] (by simpa using blank) text

theorem trim_concat_of_blank (blank : isBlank c = true) (text : List Char) :
    trim (text ++ [c]) = trim text := by
  by_cases all : ∀ d ∈ text, isBlank d = true
  · rw [trim_eq_nil.2 all, trim_eq_nil]
    exact List.forall_mem_append.2 ⟨all, by simpa using blank⟩
  · have notNil : text.dropWhile isBlank ≠ [] := fun none => all (List.dropWhile_eq_nil_iff.1 none)
    have start : trimStart (text ++ [c]) = trimStart text ++ [c] := by
      rw [trimStart, List.dropWhile_append, if_neg (by simpa using notNil), trimStart]
    rw [trim, start, trimEnd_eq_rdropWhile, List.rdropWhile_concat_pos _ _ _ blank]
    rfl

end

section

variable {c sep : Char}

theorem trim_intercalate {parts : List (List Char)} (between : List Char) (notNil : parts ≠ [])
    (each : ∀ part ∈ parts, part ≠ [] ∧ trim part = part) :
    between.intercalate parts ≠ [] ∧
      trim (between.intercalate parts) = between.intercalate parts := by
  induction parts with
  | nil => exact absurd rfl notNil
  | cons part more ih =>
    obtain ⟨⟨notEmpty, trimmed⟩, each⟩ := List.forall_mem_cons.1 each
    cases more with
    | nil => simpa using ⟨notEmpty, trimmed⟩
    | cons next rest =>
      obtain ⟨more, trimmedMore⟩ := ih (by simp) each
      rw [List.intercalate_cons_cons]
      exact ⟨by simp [more], trim_append_append trimmed notEmpty trimmedMore more between⟩

theorem map_trim_pieces_cons (blank : isBlank c = true) (differ : c ≠ sep) (text : List Char) :
    (pieces sep (c :: text)).map trim = (pieces sep text).map trim := by
  rw [pieces, if_neg differ]
  cases parts : pieces sep text with
  | nil => exact absurd parts (pieces_ne_nil sep text)
  | cons piece more => simp [trim_cons_of_blank blank]

theorem map_trim_pieces_intercalate {parts : List (List Char)} (notNil : parts ≠ [])
    (solid : isBlank sep = false) (each : ∀ part ∈ parts, sep ∉ part ∧ trim part = part) :
    (pieces sep ([' ', sep, ' '].intercalate parts)).map trim = parts := by
  have differ : ' ' ≠ sep := fun same => absurd solid (by rw [← same]; decide)
  induction parts with
  | nil => exact absurd rfl notNil
  | cons part more ih =>
    obtain ⟨⟨absent, trimmed⟩, each⟩ := List.forall_mem_cons.1 each
    cases more with
    | nil => rw [List.intercalate_singleton, pieces_of_not_mem absent, List.map_singleton, trimmed]
    | cons next rest =>
      have front : sep ∉ part ++ [' '] := by simpa using ⟨absent, differ.symm⟩
      have whole : [' ', sep, ' '].intercalate (part :: next :: rest) =
          (part ++ [' ']) ++ sep :: ' ' :: [' ', sep, ' '].intercalate (next :: rest) := by
        simp [List.intercalate_cons_cons]
      rw [whole, pieces_append, pieces_of_not_mem front, List.map_append, List.map_singleton,
        trim_concat_of_blank rfl, trimmed, map_trim_pieces_cons rfl differ, ih (by simp) each]
      rfl

end

section

variable {c d : Char} {rest text word : List Char} {more : List (List Char)}

theorem words_cons (c : Char) (rest : List Char) : words (c :: rest) =
    if isBlank c then words rest
    else match rest, words rest with
      | d :: _, word :: more => if isBlank d then [c] :: word :: more else (c :: word) :: more
      | _, more => [c] :: more :=
  rfl

theorem words_letter_end (notBlank : isBlank c = false)
    (ends : ∀ d, rest.head? = some d → isBlank d = true) : words (c :: rest) = [c] :: words rest := by
  rw [words_cons, if_neg (by simp [notBlank])]
  split
  case h_1 found =>
    rw [if_pos (ends _ rfl), found]
  case h_2 => rfl

theorem words_letter_next (notBlank : isBlank c = false) (next : isBlank d = false)
    (read : words (d :: rest) = word :: more) :
    words (c :: d :: rest) = (c :: word) :: more := by
  rw [words_cons, if_neg (by simp [notBlank]), read]
  simp [next]

theorem word_of_mem_words (inside : word ∈ words text) :
    word ≠ [] ∧ ∀ c ∈ word, isBlank c = false := by
  induction text generalizing word with
  | nil => cases inside
  | cons c rest ih =>
    rw [words_cons] at inside
    by_cases blank : isBlank c = true
    · exact ih (by simpa [blank] using inside)
    have single : [c] ≠ [] ∧ ∀ d ∈ [c], isBlank d = false := by simp [blank]
    rw [if_neg blank] at inside
    split at inside
    case h_1 d behind next first more found =>
      rw [found] at ih
      split at inside
      case isTrue =>
        rcases List.mem_cons.1 inside with rfl | later
        · exact single
        · exact ih later
      case isFalse =>
        rcases List.mem_cons.1 inside with rfl | later
        · exact ⟨by simp, List.forall_mem_cons.2
            ⟨Bool.eq_false_iff.2 blank, (ih List.mem_cons_self).2⟩⟩
        · exact ih (List.mem_cons_of_mem _ later)
    case h_2 =>
      rcases List.mem_cons.1 inside with rfl | later
      · exact single
      · exact ih later

theorem words_append (notEmpty : word ≠ []) (solid : ∀ c ∈ word, isBlank c = false)
    (rest : List Char) (ends : ∀ d, rest.head? = some d → isBlank d = true) :
    words (word ++ rest) = word :: words rest := by
  induction word with
  | nil => exact absurd rfl notEmpty
  | cons c more ih =>
    obtain ⟨notBlank, solid⟩ := List.forall_mem_cons.1 solid
    cases more with
    | nil => exact words_letter_end notBlank ends
    | cons next tail =>
      exact words_letter_next notBlank (solid next List.mem_cons_self) (ih (by simp) solid)

theorem words_intercalate {names : List String}
    (solid : ∀ name ∈ names, name ≠ "" ∧ ∀ c ∈ name.toList, isBlank c = false) :
    (words (" ".intercalate names).toList).map String.ofList = names := by
  induction names with
  | nil => rfl
  | cons name more ih =>
    obtain ⟨⟨notEmpty, plain⟩, solid⟩ := List.forall_mem_cons.1 solid
    have notNil : name.toList ≠ [] := fun empty => notEmpty (String.toList_eq_nil_iff.1 empty)
    cases more with
    | nil =>
      have read := words_append notNil plain [] (by simp)
      rw [List.append_nil] at read
      simp [read, show words [] = [] from rfl]
    | cons next rest =>
      have read := words_append notNil plain (' ' :: (" ".intercalate (next :: rest)).toList)
        (by simp; decide)
      rw [show (" ".intercalate (name :: next :: rest)).toList =
        name.toList ++ ' ' :: (" ".intercalate (next :: rest)).toList by
          simp [String.intercalate_cons_cons], read, words_cons, if_pos (by decide), List.map_cons,
        String.ofList_toList, ih solid]

end

end LiveList.Text
