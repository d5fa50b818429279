import LiveList.Proofs.Outcome
import LiveList.Proofs.Text.Pieces
import LiveList.Template.Expr

namespace LiveList.Template

def Blank (text : List Char) : Prop := ∀ c ∈ text, Text.isBlank c = true

inductive Path.Spelled : String → Path → Prop
  | this : Spelled Json.thisPath .this
  | fields {source : String} {names : List String} : source ≠ Json.thisPath →
    (Text.pieces '.' source.toList).map Text.trim = names.map String.toList → "" ∉ names →
    Spelled source (.fields names)

structure Expr.Spelled (inner : List Char) (expr : Expr) : Prop where
  parts : (Text.pieces '|' inner).map Text.trim =
    (expr.source :: expr.filters).map String.toList
  named : "" ∉ expr.source :: expr.filters
  path : Path.Spelled expr.source expr.path

inductive Segment.Spelled (body : List Char) : Segment → Prop
  | ofRecord {expr : Expr} : (Text.trim body).head? ≠ some '#' →
    Expr.Spelled (Text.trim body) expr → Spelled body (.ofRecord expr)
  | ofItem {inner : List Char} {expr : Expr} : Text.trim body = '#' :: inner →
    Expr.Spelled inner expr → Spelled body (.ofItem expr)

/-- The path, a name in it or a filter is blank. -/
def Expr.Malformed (inner : List Char) : Prop :=
  ∃ path filters, Text.pieces '|' inner = path :: filters ∧
    (Blank path ∨ (∃ name ∈ Text.pieces '.' (Text.trim path), Blank name) ∨
      ∃ filter ∈ filters, Blank filter)

def unmarked (body : List Char) : List Char :=
  match Text.trim body with
  | '#' :: inner => inner
  | inner => inner

def Syntactic (failure : TemplateError) : Prop :=
  ∃ reason, failure.message = TemplateError.inTemplate reason

/-! ## Paths -/

theorem map_ofList_eq_iff {texts : List (List Char)} {names : List String} :
    texts.map String.ofList = names ↔ texts = names.map String.toList := by
  constructor
  · rintro rfl
    simp [Function.comp_def]
  · rintro rfl
    simp [Function.comp_def]

theorem segmentsOf_eq_iff {path : List Char} {names : List String} :
    Json.Value.segmentsOf path = names ↔
      (Text.pieces '.' path).map Text.trim = names.map String.toList := by
  rw [← map_ofList_eq_iff, List.map_map]
  rfl

theorem trim_eq_empty_iff {text : List Char} : String.ofList (Text.trim text) = "" ↔ Blank text := by
  rw [String.ofList_eq_empty_iff, Text.trim_eq_nil]
  rfl

theorem empty_mem_iff {texts : List (List Char)} {names : List String}
    (spelled : texts.map Text.trim = names.map String.toList) :
    "" ∈ names ↔ ∃ text ∈ texts, Blank text := by
  rw [← map_ofList_eq_iff, List.map_map] at spelled
  simp only [← spelled, List.mem_map, Function.comp_apply, trim_eq_empty_iff]

namespace Path

variable {source : String} {path : Path}

theorem parse_eq_ok_iff : Path.parse source = .ok path ↔ Path.Spelled source path := by
  unfold Path.parse
  constructor
  · intro read
    split at read
    case isTrue isThis =>
      cases read
      exact isThis ▸ .this
    case isFalse notThis =>
      dsimp only at read
      split at read
      · cases read
      case isFalse named =>
        cases read
        exact .fields notThis (segmentsOf_eq_iff.1 rfl) (by simpa using named)
  · rintro (_ | ⟨notThis, pieces, named⟩)
    · rfl
    · rw [if_neg notThis, segmentsOf_eq_iff.2 pieces]
      exact if_neg (by simpa using named)

theorem syntactic_of_parse {failure : TemplateError} (read : Path.parse source = .error failure) :
    Syntactic failure := by
  unfold Path.parse at read
  split at read
  · cases read
  dsimp only at read
  split at read
  · cases read
    exact ⟨_, rfl⟩
  · cases read

theorem exists_spelled_iff : (∃ path, Path.Spelled source path) ↔
    ¬ ∃ name ∈ Text.pieces '.' source.toList, Blank name := by
  constructor
  · rintro ⟨path, _ | ⟨notThis, pieces, named⟩⟩ ⟨name, listed, blank⟩
    · have single : Text.pieces '.' Json.thisPath.toList = [Json.thisPath.toList] :=
        Text.pieces_of_not_mem (by decide)
      rw [single, List.mem_singleton] at listed
      subst listed
      exact absurd (blank 't' (by decide)) (by decide)
    · exact named ((empty_mem_iff pieces).2 ⟨name, listed, blank⟩)
  · intro named
    by_cases isThis : source = Json.thisPath
    · exact ⟨.this, isThis ▸ .this⟩
    · have pieces := (@segmentsOf_eq_iff source.toList _).1 rfl
      exact ⟨.fields _, .fields isThis pieces (mt (empty_mem_iff pieces).1 named)⟩

end Path

/-! ## Expressions -/

namespace Expr

variable {inner source : String} {filters : List String}

theorem exists_parts (inner : List Char) : ∃ source filters,
    (Text.pieces '|' inner).map Text.trim = (source :: filters).map String.toList := by
  obtain ⟨path, more, cut⟩ := List.exists_cons_of_ne_nil (Text.pieces_ne_nil '|' inner)
  refine ⟨String.ofList (Text.trim path), more.map fun part => String.ofList (Text.trim part), ?_⟩
  rw [cut, ← map_ofList_eq_iff]
  simp

theorem parse_of_parts (parts : (Text.pieces '|' inner.toList).map Text.trim =
    (source :: filters).map String.toList) : Expr.parse inner =
      if source = "" then .error (.emptyExpression inner)
      else if "" ∈ filters then .error (.emptyFilterName (Text.trimmed inner))
      else (Path.parse source).map fun path => { source, path, filters } := by
  rw [← map_ofList_eq_iff, List.map_map] at parts
  have any : (filters.any fun filter => decide (filter = "")) = true ↔ "" ∈ filters := by simp
  rw [Expr.parse, show (Text.pieces '|' inner.toList).map
    (fun part => String.ofList (Text.trim part)) = source :: filters from parts]
  simp only [List.headD_cons, List.tail_cons, any]
  cases Path.parse source <;> rfl

theorem parse_eq_ok_iff {expr : Expr} :
    Expr.parse inner = .ok expr ↔ Expr.Spelled inner.toList expr := by
  obtain ⟨source, filters, parts⟩ := exists_parts inner.toList
  rw [parse_of_parts parts]
  constructor
  · intro read
    split at read
    · cases read
    split at read
    · cases read
    case isFalse.isFalse sourced named =>
      obtain ⟨path, isPath, rfl⟩ := map_eq_ok.1 read
      have noneEmpty : "" ∉ source :: filters :=
        List.not_mem_cons_of_ne_of_not_mem (Ne.symm sourced) named
      exact ⟨parts, noneEmpty, Path.parse_eq_ok_iff.1 isPath⟩
  · rintro ⟨same, named, path⟩
    obtain ⟨rfl, rfl⟩ : source = expr.source ∧ filters = expr.filters := by
      rw [parts, ← map_ofList_eq_iff] at same
      simpa [Function.comp_def] using same
    obtain ⟨sourced, named⟩ := not_or.1 (mt List.mem_cons.2 named)
    rw [if_neg (Ne.symm sourced), if_neg named, Path.parse_eq_ok_iff.2 path]
    rfl

theorem exists_spelled_iff {inner : List Char} :
    (∃ expr, Expr.Spelled inner expr) ↔ ¬ Expr.Malformed inner := by
  constructor
  · rintro ⟨expr, parts, named, path⟩ ⟨first, more, cut, wrong⟩
    rw [cut] at parts
    rcases wrong with blank | ⟨name, listed, blank⟩ | ⟨filter, listed, blank⟩
    · exact named ((empty_mem_iff parts).2 ⟨first, List.mem_cons_self, blank⟩)
    · have trimmed : Text.trim first = expr.source.toList := (List.cons.inj parts).1
      exact Path.exists_spelled_iff.1 ⟨expr.path, path⟩ ⟨name, trimmed ▸ listed, blank⟩
    · exact named ((empty_mem_iff parts).2 ⟨filter, List.mem_cons_of_mem _ listed, blank⟩)
  · intro fine
    obtain ⟨source, filters, parts⟩ := exists_parts inner
    obtain ⟨first, more, cut⟩ := List.exists_cons_of_ne_nil (Text.pieces_ne_nil '|' inner)
    rw [cut] at parts
    have trimmed : Text.trim first = source.toList := (List.cons.inj parts).1
    obtain ⟨path, isPath⟩ := Path.exists_spelled_iff.2
      fun blank => fine ⟨first, more, cut, .inr (.inl (trimmed.symm ▸ blank))⟩
    refine ⟨⟨source, path, filters⟩, cut ▸ parts, fun empty => ?_, isPath⟩
    obtain ⟨part, listed, blank⟩ := (empty_mem_iff parts).1 empty
    rcases List.mem_cons.1 listed with rfl | later
    · exact fine ⟨part, more, cut, .inl blank⟩
    · exact fine ⟨first, more, cut, .inr (.inr ⟨part, later, blank⟩)⟩

theorem syntactic_of_parse {failure : TemplateError} (read : Expr.parse inner = .error failure) :
    Syntactic failure := by
  obtain ⟨source, filters, parts⟩ := exists_parts inner.toList
  rw [parse_of_parts parts] at read
  split at read
  · cases read
    exact ⟨_, rfl⟩
  split at read
  · cases read
    exact ⟨_, rfl⟩
  exact Path.syntactic_of_parse (map_eq_error.1 read)

end Expr

/-! ## Bodies -/

namespace Segment

variable {body : List Char} {segment : Segment}

theorem unmarked_of_plain (plain : (Text.trim body).head? ≠ some '#') :
    unmarked body = Text.trim body := by
  unfold unmarked
  split
  case h_1 marked => exact absurd (by rw [marked]; rfl) plain
  case h_2 => rfl

theorem marked_or_plain (body : List Char) :
    (∃ inner, Text.trim body = '#' :: inner ∧ unmarked body = inner ∧
      Segment.parse body = (Expr.parse (String.ofList inner)).map .ofItem) ∨
    ((Text.trim body).head? ≠ some '#' ∧ unmarked body = Text.trim body ∧
      Segment.parse body = (Expr.parse (String.ofList (Text.trim body))).map .ofRecord) := by
  by_cases first : (Text.trim body).head? = some '#'
  · obtain ⟨inner, marked⟩ := List.head?_eq_some_iff.1 first
    refine .inl ⟨inner, marked, by rw [unmarked, marked]; rfl, ?_⟩
    rw [Segment.parse, marked]
    change (do return Segment.ofItem (← Expr.parse (String.ofList inner))) = _
    cases Expr.parse (String.ofList inner) <;> rfl
  · refine .inr ⟨first, unmarked_of_plain first, ?_⟩
    rw [Segment.parse]
    split
    case h_1 marked => exact absurd (by rw [marked]; rfl) first
    case h_2 => cases Expr.parse (String.ofList (Text.trim body)) <;> rfl

theorem spelled_iff_of_marked {inner : List Char} (marked : Text.trim body = '#' :: inner) :
    Segment.Spelled body segment ↔ ∃ expr, Expr.Spelled inner expr ∧ .ofItem expr = segment := by
  constructor
  · rintro (⟨plain, -⟩ | ⟨again, spelled⟩)
    · exact absurd (by rw [marked]; rfl) plain
    · obtain rfl : inner = _ := (List.cons.inj (marked.symm.trans again)).2
      exact ⟨_, spelled, rfl⟩
  · rintro ⟨expr, spelled, rfl⟩
    exact .ofItem marked spelled

theorem spelled_iff_of_plain (plain : (Text.trim body).head? ≠ some '#') :
    Segment.Spelled body segment ↔
      ∃ expr, Expr.Spelled (Text.trim body) expr ∧ .ofRecord expr = segment := by
  constructor
  · rintro (⟨-, spelled⟩ | ⟨marked, -⟩)
    · exact ⟨_, spelled, rfl⟩
    · exact absurd (by rw [marked]; rfl) plain
  · rintro ⟨expr, spelled, rfl⟩
    exact .ofRecord plain spelled

theorem parse_eq_ok_iff : Segment.parse body = .ok segment ↔ Segment.Spelled body segment := by
  rcases marked_or_plain body with ⟨inner, marked, -, parse⟩ | ⟨plain, -, parse⟩
  · simp only [parse, map_eq_ok, Expr.parse_eq_ok_iff, String.toList_ofList,
      spelled_iff_of_marked marked]
  · simp only [parse, map_eq_ok, Expr.parse_eq_ok_iff, String.toList_ofList,
      spelled_iff_of_plain plain]

theorem exists_spelled_iff : (∃ segment, Segment.Spelled body segment) ↔
    ¬ Expr.Malformed (unmarked body) := by
  rw [← Expr.exists_spelled_iff]
  rcases marked_or_plain body with ⟨inner, marked, same, -⟩ | ⟨plain, same, -⟩
  · simp only [same, spelled_iff_of_marked marked]
    constructor
    · rintro ⟨_, expr, spelled, -⟩
      exact ⟨expr, spelled⟩
    · rintro ⟨expr, spelled⟩
      exact ⟨_, expr, spelled, rfl⟩
  · simp only [same, spelled_iff_of_plain plain]
    constructor
    · rintro ⟨_, expr, spelled, -⟩
      exact ⟨expr, spelled⟩
    · rintro ⟨expr, spelled⟩
      exact ⟨_, expr, spelled, rfl⟩

theorem syntactic_of_parse {failure : TemplateError} (read : Segment.parse body = .error failure) :
    Syntactic failure := by
  rcases marked_or_plain body with ⟨_, -, -, parse⟩ | ⟨-, -, parse⟩
  · exact Expr.syntactic_of_parse (map_eq_error.1 (parse.symm.trans read))
  · exact Expr.syntactic_of_parse (map_eq_error.1 (parse.symm.trans read))

end Segment

/-! ## Writing -/

def Expr.written (expr : Expr) : List Char :=
  [' ', '|', ' '].intercalate ((expr.source :: expr.filters).map String.toList)

/-- No part is empty, begins or ends with a blank or holds a bar or the end of a marker, and the path
is the one that the source spells. -/
structure Expr.Neat (expr : Expr) : Prop where
  parts : ∀ part ∈ expr.source :: expr.filters,
    part ≠ "" ∧ Text.trim part.toList = part.toList ∧ '|' ∉ part.toList ∧ ¬ closing <:+: part.toList
  path : Path.Spelled expr.source expr.path

def Expr.body (mark : List Char) (expr : Expr) : List Char := mark ++ ' ' :: expr.written ++ [' ']

def Segment.written : Segment → List Char
  | .literal text => text.toList
  | .ofRecord expr => opening ++ (expr.body [] ++ closing)
  | .ofItem expr => opening ++ (expr.body ['#'] ++ closing)

/-- What is written gives the segment back. A source with the mark in front reads the item. -/
def Segment.Neat : Segment → Prop
  | .literal text => text ≠ "" ∧ ¬ opening <:+: text.toList
  | .ofRecord expr => expr.Neat ∧ expr.source.toList.head? ≠ some '#'
  | .ofItem expr => expr.Neat

namespace Expr.Neat

variable {expr : Expr}

theorem spelled (neat : expr.Neat) : Expr.Spelled expr.written expr where
  parts := by
    refine Text.map_trim_pieces_intercalate (by simp) rfl fun part inside => ?_
    obtain ⟨name, listed, rfl⟩ := List.mem_map.1 inside
    obtain ⟨-, trimmed, absent, -⟩ := neat.parts name listed
    exact ⟨absent, trimmed⟩
  named := fun empty => (neat.parts "" empty).1 rfl
  path := neat.path

theorem trimmed (neat : expr.Neat) :
    expr.written ≠ [] ∧ Text.trim expr.written = expr.written := by
  refine Text.trim_intercalate _ (by simp) fun part inside => ?_
  obtain ⟨name, listed, rfl⟩ := List.mem_map.1 inside
  obtain ⟨notEmpty, trimmed, -⟩ := neat.parts name listed
  exact ⟨fun empty => notEmpty (String.toList_eq_nil_iff.1 empty), trimmed⟩

theorem head_written (neat : expr.Neat) : expr.written.head? = expr.source.toList.head? := by
  have notEmpty := (neat.parts _ List.mem_cons_self).1
  have notNil : expr.source.toList ≠ [] := fun empty => notEmpty (String.toList_eq_nil_iff.1 empty)
  rw [written]
  cases expr.filters with
  | nil => simp
  | cons filter more =>
    rw [List.map_cons, List.map_cons, List.intercalate_cons_cons, List.append_assoc,
      List.head?_append_of_ne_nil _ notNil]

theorem not_closing_written (neat : expr.Neat) : ¬ closing <:+: expr.written := by
  have each := neat.parts
  rw [written]
  generalize expr.source :: expr.filters = parts at each
  induction parts with
  | nil => decide
  | cons part more ih =>
    obtain ⟨⟨-, -, -, free⟩, each⟩ := List.forall_mem_cons.1 each
    cases more with
    | nil => simpa using free
    | cons next rest =>
      intro there
      rw [List.map_cons, List.map_cons, List.intercalate_cons_cons, List.append_assoc] at there
      rcases Text.infix_append_cons (by decide) there with inside | behind
      · exact free inside
      change closing <:+: [' ', '|'] ++ ' ' :: _ at behind
      rcases Text.infix_append_cons (by decide) behind with bar | behind
      · exact absurd bar (by decide)
      rcases List.infix_cons_iff.1 behind with first | later
      · exact absurd (List.cons_prefix_cons.1 first).1 (by decide)
      · exact ih each later

theorem single_body (neat : expr.Neat) {mark : List Char} (free : ¬ closing <:+: mark) :
    Text.Single '\x7d' (expr.body mark) := by
  constructor
  · intro there
    rcases Text.infix_append_cons (by decide) there with inside | last
    rcases Text.infix_append_cons (by decide) inside with marked | written
    · exact free marked
    rcases List.infix_cons_iff.1 written with first | later
    · exact absurd (List.cons_prefix_cons.1 first).1 (by decide)
    · exact neat.not_closing_written later
    · exact absurd last (by decide)
  · rw [Expr.body, List.getLast?_concat]
    decide

end Expr.Neat

theorem Segment.spelled_of_record {expr : Expr} (neat : (Segment.ofRecord expr).Neat) :
    Segment.Spelled (expr.body []) (.ofRecord expr) := by
  obtain ⟨neat, unmarked⟩ := neat
  have trimmed : Text.trim (expr.body []) = expr.written := by
    rw [Expr.body, Text.trim_concat_of_blank rfl, List.nil_append, Text.trim_cons_of_blank rfl,
      neat.trimmed.2]
  refine .ofRecord ?_ ?_
  · rwa [trimmed, neat.head_written]
  · exact trimmed ▸ neat.spelled

theorem Segment.spelled_of_item {expr : Expr} (neat : (Segment.ofItem expr).Neat) :
    Segment.Spelled (expr.body ['#']) (.ofItem expr) := by
  have neat : expr.Neat := neat
  have trimmed : Text.trim (expr.body ['#']) = '#' :: ' ' :: expr.written := by
    rw [Expr.body, Text.trim_concat_of_blank rfl]
    change Text.trim (['#'] ++ [' '] ++ expr.written) = ['#'] ++ [' '] ++ expr.written
    exact Text.trim_append_append (by decide) (by simp) neat.trimmed.2 neat.trimmed.1 [' ']
  refine .ofItem trimmed ⟨?_, neat.spelled.named, neat.spelled.path⟩
  rw [Text.map_trim_pieces_cons rfl (by decide), neat.spelled.parts]

end LiveList.Template
