import LiveList.Markup.Tree

/-!
# Markup tokens

Cuts markup into start tags, end tags, comments and texts. Every markup has tokens: what cannot be
read as a tag is text. This module reads start tags. Main statement: reading an attribute takes at
least one character.
-/

namespace LiveList.Markup

inductive Token where
  | text (content : String)
  | comment (body : String)
  | opening (tag : String) (attributes : List (String × String)) (selfClosing : Bool)
  | closing (tag : String)
deriving DecidableEq, Repr

namespace Lexer

def readBraces (text : List Char) : Option (List Char × List Char) :=
  match Text.dropPattern ['\x7b', '\x7b'] text with
  | none => none
  | some inner =>
    (Text.breakOn ['\x7d', '\x7d'] inner).map fun (body, behind) =>
      (['\x7b', '\x7b'] ++ body ++ ['\x7d', '\x7d'], behind)

theorem eq_of_readBraces {text run behind : List Char} (h : readBraces text = some (run, behind)) :
    text = run ++ behind ∧ behind.length < text.length := by
  unfold readBraces at h
  split at h
  · simp at h
  · rename_i inner atStart
    obtain ⟨⟨body, last⟩, found, same⟩ := Option.map_eq_some_iff.1 h
    simp only [Prod.mk.injEq] at same
    have whole := Text.dropPattern_eq_some.1 atStart
    have cutAt := Text.eq_of_breakOn found
    rw [whole, cutAt, ← same.1, ← same.2]
    constructor
    · simp
    · simp
      omega

/-- Reads characters up to the first that stops, taking runs between double braces whole. -/
def spanUnquoted (stop : Char → Bool) : List Char → List Char × List Char
  | [] => ([], [])
  | c :: rest =>
    match h : readBraces (c :: rest) with
    | some (run, behind) =>
      have := (eq_of_readBraces h).2
      let (more, last) := spanUnquoted stop behind
      (run ++ more, last)
    | none =>
      if stop c then ([], c :: rest)
      else
        let (more, last) := spanUnquoted stop rest
        (c :: more, last)
termination_by text => text.length
decreasing_by
  · exact (eq_of_readBraces h).2
  · exact Nat.lt_succ_self rest.length

theorem spanUnquoted_append (stop : Char → Bool) (text : List Char) :
    (spanUnquoted stop text).1 ++ (spanUnquoted stop text).2 = text := by
  fun_induction spanUnquoted stop text with
  | case1 => rfl
  | case2 c rest run behind h _ more last same ih =>
    simp only [same] at ih
    simp [ih, (eq_of_readBraces h).1]
  | case3 => rfl
  | case4 c rest _ _ more last same ih =>
    simp only [same] at ih
    simp [ih]

theorem length_spanUnquoted_le (stop : Char → Bool) (text : List Char) :
    (spanUnquoted stop text).2.length ≤ text.length := by
  have := congrArg List.length (spanUnquoted_append stop text)
  simp at this
  omega

theorem length_spanUnquoted_lt {stop : Char → Bool} {c : Char} (rest : List Char)
    (h : stop c = false) : (spanUnquoted stop (c :: rest)).2.length < (c :: rest).length := by
  rw [spanUnquoted]
  split
  · rename_i run behind found
    have := length_spanUnquoted_le stop behind
    have := (eq_of_readBraces found).2
    simp only
    omega
  · have := length_spanUnquoted_le stop rest
    simp only [h, Bool.false_eq_true, if_false, List.length_cons]
    omega

def endsName (c : Char) : Bool := Text.isBlank c || c == '=' || c == '>' || c == '/'

def endsValue (c : Char) : Bool := Text.isBlank c || c == '>'

def endsTag (c : Char) : Bool := Text.isBlank c || c == '>' || c == '/'

/-- The name of an attribute: lower-cased, unless it holds an interpolation. -/
def attributeName (name : List Char) : String :=
  String.ofList (if (Text.breakOn ['\x7b', '\x7b'] name).isSome then name else lowerName name)

def readQuoted (quote : Char) (text : List Char) : List Char × List Char :=
  (Text.cut quote text).getD (text, [])

def readValue (text : List Char) : String × List Char :=
  let (value, behind) := match text with
    | c :: rest =>
      if c == '\x22' || c == '\x27' then readQuoted c rest else spanUnquoted endsValue text
    | [] => ([], [])
  (String.ofList (decode value), behind)

def readAssignment (text : List Char) : String × List Char :=
  match text with
  | '=' :: rest => readValue (Text.trimStart rest)
  | _ => ("", text)

def readAttribute (text : List Char) : List Char × String × List Char :=
  let (name, afterName) := spanUnquoted endsName text
  let (value, behind) := readAssignment (Text.trimStart afterName)
  (name, value, behind)

theorem length_trimStart_le (text : List Char) : (Text.trimStart text).length ≤ text.length :=
  (List.dropWhile_suffix _).length_le

theorem length_readQuoted_le (quote : Char) (text : List Char) :
    (readQuoted quote text).2.length ≤ text.length := by
  unfold readQuoted
  cases found : Text.cut quote text with
  | none => simp
  | some parts =>
    have := congrArg List.length (Text.eq_of_cut found)
    simp at this
    simp
    omega

theorem length_readValue_le (text : List Char) : (readValue text).2.length ≤ text.length := by
  unfold readValue
  cases text with
  | nil => simp
  | cons c rest =>
    by_cases h : (c == '\x22' || c == '\x27') = true
    · have := length_readQuoted_le c rest
      simp only [h, if_true, List.length_cons]
      omega
    · simp only [h]
      exact length_spanUnquoted_le endsValue (c :: rest)

theorem length_readAssignment_le (text : List Char) :
    (readAssignment text).2.length ≤ text.length := by
  unfold readAssignment
  split
  · rename_i rest
    have := length_readValue_le (Text.trimStart rest)
    have := length_trimStart_le rest
    simp only [List.length_cons]
    omega
  · simp

theorem length_readAttribute_lt {c : Char} (rest : List Char) (notBlank : Text.isBlank c = false)
    (notEnd : c ≠ '>') (notSlash : c ≠ '/') :
    (readAttribute (c :: rest)).2.2.length < (c :: rest).length := by
  simp only [readAttribute]
  by_cases h : endsName c = true
  · have atEquals : c = '=' := by simpa [endsName, notBlank, notEnd, notSlash] using h
    subst atEquals
    rw [spanUnquoted]
    split
    · rename_i run behind found
      have := (eq_of_readBraces found).2
      have := length_spanUnquoted_le endsName behind
      have := length_readAssignment_le
        (Text.trimStart (spanUnquoted endsName behind).2)
      have := length_trimStart_le (spanUnquoted endsName behind).2
      simp only [List.length_cons] at *
      omega
    · simp only [h, if_true]
      have : Text.trimStart ('=' :: rest) = '=' :: rest := by
        simp [Text.trimStart, notBlank]
      rw [this]
      have := length_readValue_le (Text.trimStart rest)
      have := length_trimStart_le rest
      simp only [readAssignment, List.length_cons]
      omega
  · have := length_spanUnquoted_lt rest (by simpa using h : endsName c = false)
    have := length_readAssignment_le (Text.trimStart (spanUnquoted endsName (c :: rest)).2)
    have := length_trimStart_le (spanUnquoted endsName (c :: rest)).2
    omega

structure TagRest where
  attributes : List (String × String)
  selfClosing : Bool
  rest : List Char

def readAttributes (text : List Char) : TagRest :=
  match h : Text.trimStart text with
  | [] => ⟨[], false, []⟩
  | c :: rest =>
    have := length_trimStart_le text
    have : rest.length < text.length := by
      rw [h, List.length_cons] at this
      omega
    if closes : c = '>' then ⟨[], false, rest⟩
    else if slash : c = '/' then
      if rest.head? = some '>' then ⟨[], true, rest.tail⟩ else readAttributes rest
    else
      have notBlank : Text.isBlank c = false := by
        have := List.head?_dropWhile_not Text.isBlank text
        rw [Text.trimStart] at h
        simpa [h] using this
      have := length_readAttribute_lt rest notBlank closes slash
      let first := readAttribute (c :: rest)
      let more := readAttributes first.2.2
      if first.1 = [] then more
      else { more with attributes := (attributeName first.1, first.2.1) :: more.attributes }
termination_by text.length
decreasing_by
  · assumption
  · rw [h] at *
    omega

end Lexer

end LiveList.Markup
