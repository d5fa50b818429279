import LiveList.Proofs.Markup.Printed
import LiveList.Template.Basic

namespace LiveList

namespace Markup

/-- What stops a reader stands only inside runs. They are taken from the left, each from double
braces to the next ones that close it, and no others are left open. -/
inductive Shielded (stop : Char → Bool) : List Char → Prop
  | nil : Shielded stop []
  | plain {c : Char} {rest : List Char} : ¬ braces <+: c :: rest → stop c = false →
    Shielded stop rest → Shielded stop (c :: rest)
  | run {body rest : List Char} : Text.Single '\x7d' body → Shielded stop rest →
    Shielded stop (braces ++ (body ++ (closingBraces ++ rest)))

theorem shielded_of_bare {stop : Char → Bool} {text : List Char}
    (closed : ∀ c ∈ text, stop c = false) (bare : ¬ braces <:+: text) : Shielded stop text := by
  induction text with
  | nil => exact .nil
  | cons c rest ih =>
    refine .plain (fun opens => bare opens.isInfix) (closed c List.mem_cons_self) (ih ?_ ?_)
    · exact fun d inside => closed d (List.mem_cons_of_mem c inside)
    · exact fun inside => bare (inside.trans (List.suffix_cons c rest).isInfix)

theorem closed_of_any {stop : Char → Bool} {text : List Char} (none : text.any stop = false) :
    ∀ c ∈ text, stop c = false := by
  simpa using none

structure TagName (tag : String) : Prop where
  letter : ∃ c tail, tag.toList = c :: tail ∧ Text.isLetter c
  closed : ∀ c ∈ tag.toList, Lexer.endsTag c = false

structure BareName (name : String) : Prop where
  ne_empty : name ≠ ""
  closed : ∀ c ∈ name.toList, Lexer.endsName c = false
  bare : ¬ braces <:+: name.toList

structure UnquotedValue (value : String) : Prop where
  noQuote : '\x22' ∉ value.toList
  begins : value.toList.head? ≠ some '\x27'
  shielded : Shielded Lexer.endsValue value.toList

def unquotedTag (tag name value : String) : String :=
  "<" ++ tag ++ " " ++ name ++ "=" ++ value ++ ">"

def quotedTag (tag name value : String) : String :=
  "<" ++ tag ++ " " ++ name ++ "=\x22" ++ value ++ "\x22>"

/-- Whatever tag stands behind this markup, it is read as a start tag of its own. -/
def EndsBeforeTags (before : String) : Prop :=
  ∃ front, ∀ behind, Lexer.opensTag behind →
    Lexer.tokensFrom none (before.toList ++ behind) = front ++ Lexer.tokensFrom none behind

namespace Lexer

variable {stop : Char → Bool} {name value rest : List Char} {c : Char}

theorem readBraces_run {body : List Char} (single : Text.Single '\x7d' body) (rest : List Char) :
    readBraces (braces ++ (body ++ (closingBraces ++ rest))) =
      some (braces ++ (body ++ closingBraces), rest) := by
  have inner : Text.dropPattern ['\x7b', '\x7b'] (braces ++ (body ++ (closingBraces ++ rest))) =
      some (body ++ (closingBraces ++ rest)) := Text.dropPattern_append _ _
  have atEnd : Text.breakOn ['\x7d', '\x7d'] (body ++ (closingBraces ++ rest)) = some (body, rest) :=
    Text.breakOn_pair_append single rest
  rw [readBraces, inner]
  dsimp only
  rw [atEnd]
  simp [braces, closingBraces]

theorem spanUnquoted_shielded (shielded : Shielded stop value) (stops : stop c)
    (notBrace : c ≠ '\x7b') (rest : List Char) :
    spanUnquoted stop (value ++ c :: rest) = (value, c :: rest) := by
  induction shielded with
  | nil => exact spanUnquoted_stop stops notBrace
  | @plain d more notOpen passes _ ih =>
    -- The braces do not stand across the end of the value.
    have none : readBraces (d :: (more ++ c :: rest)) = none :=
      readBraces_eq_none fun opens => notOpen
        (Text.prefix_of_prefix_append_cons (by simpa [braces] using notBrace) opens)
    rw [List.cons_append, spanUnquoted_of_none none, passes, ih]
    rfl
  | @run body more single _ ih =>
    have read := readBraces_run single (more ++ c :: rest)
    simp only [List.append_assoc] at read ⊢
    rw [spanUnquoted_of_run read, ih]
    simp

theorem exists_cons_of_unquoted {value : String} (unquoted : UnquotedValue value)
    (rest : List Char) : ∃ c tail, value.toList ++ '>' :: rest = c :: tail ∧
      Text.isBlank c = false ∧ c ≠ '\x22' ∧ c ≠ '\x27' := by
  obtain ⟨noQuote, begins, shielded⟩ := unquoted
  generalize value.toList = value at noQuote begins shielded
  cases shielded with
  | nil => exact ⟨'>', rest, rfl, by decide, by decide, by decide⟩
  | @plain c tail _ passes _ =>
    refine ⟨c, tail ++ '>' :: rest, rfl, ?_, ?_, ?_⟩
    · exact (Bool.or_eq_false_iff.1 passes).1
    · exact fun quote => noQuote (quote ▸ List.mem_cons_self)
    · exact fun quote => begins (quote ▸ rfl)
  | run => exact ⟨'\x7b', _, rfl, by decide, by decide, by decide⟩

theorem readAssignment_unquoted {value : String} (unquoted : UnquotedValue value)
    (rest : List Char) :
    readAssignment ('=' :: (value.toList ++ '>' :: rest)) =
      (String.ofList (decode value.toList), '>' :: rest) := by
  obtain ⟨c, tail, chars, notBlank, notDouble, notSingle⟩ := exists_cons_of_unquoted unquoted rest
  have span := spanUnquoted_shielded unquoted.shielded (show endsValue '>' by decide) (by decide) rest
  rw [chars] at span ⊢
  rw [readAssignment, trimStart_of_not_blank notBlank, readValue]
  simp [notDouble, notSingle, span]

theorem readAttribute_assigned {name : String} (bareName : BareName name) (assigned : List Char) :
    readAttribute (name.toList ++ '=' :: assigned) =
      (name.toList, readAssignment ('=' :: assigned)) := by
  have whole := spanUnquoted_plain bareName.closed bareName.bare
  have unopened : ¬ LeavesOpen name.toList := by
    rintro ⟨left, right, same, -⟩
    exact bareName.bare ⟨left, right, by simp [same]⟩
  rw [readAttribute, spanUnquoted_settled whole (fun opened => absurd opened unopened) (by decide)
    (by decide) (by decide)]
  rfl

theorem step_assigned {tag name value : String} (tagName : TagName tag) (bareName : BareName name)
    {assigned rest : List Char} (read : readAssignment ('=' :: assigned) = (value, '>' :: rest)) :
    step none ('<' :: (tag.toList ++ ' ' :: (name.toList ++ '=' :: assigned))) =
      .yield (.opening (String.ofList (lowerName tag.toList))
        [(String.ofList (lowerName name.toList), value)] false, rest) := by
  obtain ⟨c, tail, chars, letter⟩ := tagName.letter
  obtain ⟨d, last, named, closed⟩ : ∃ d last, name.toList = d :: last ∧ endsName d = false := by
    obtain ⟨d, last, named⟩ := List.exists_cons_of_ne_nil
      (fun none => bareName.ne_empty (String.toList_eq_nil_iff.1 none) : name.toList ≠ [])
    exact ⟨d, last, named, bareName.closed d (named ▸ List.mem_cons_self)⟩
  obtain ⟨notBlank, -, notClose, notSlash⟩ := endsName_eq_false.1 closed
  have kept : attributeName name.toList = String.ofList (lowerName name.toList) := by
    have absent : Text.breakOn ['\x7b', '\x7b'] name.toList = none :=
      Text.breakOn_eq_none.2 bareName.bare
    simp [attributeName, absent]
  have readFirst := readAttribute_assigned bareName assigned
  rw [read] at readFirst
  have attributes : readAttributes (' ' :: (name.toList ++ '=' :: assigned)) =
      ⟨[(String.ofList (lowerName name.toList), value)], false, rest⟩ := by
    have begins : Text.trimStart (' ' :: (name.toList ++ '=' :: assigned)) =
        d :: (last ++ '=' :: assigned) := by
      rw [named]
      exact (List.dropWhile_cons_of_pos (by decide)).trans (trimStart_of_not_blank notBlank)
    rw [named, List.cons_append] at readFirst
    rw [readAttributes_cons begins notClose notSlash readFirst (by simp),
      readAttributes_close (trimStart_of_not_blank (by decide)), ← named, kept]
  have opening := readOpening_append tagName.closed (show endsTag ' ' by decide)
    (name.toList ++ '=' :: assigned)
  rw [attributes] at opening
  rw [chars, List.cons_append] at opening ⊢
  rw [step_of_letter letter, opening]

end Lexer

section

variable {tag name value : String} (tagName : TagName tag) (bareName : BareName name)
  (unquoted : UnquotedValue value) (rest : String)
include tagName bareName unquoted

theorem step_unquotedTag : Lexer.step none (unquotedTag tag name value ++ rest).toList =
    .yield (.opening (String.ofList (lowerName tag.toList))
      [(String.ofList (lowerName name.toList), String.ofList (decode value.toList))] false,
      rest.toList) := by
  have read := Lexer.readAssignment_unquoted unquoted rest.toList
  rw [← Lexer.step_assigned tagName bareName read]
  simp [unquotedTag]

theorem step_quotedTag : Lexer.step none (quotedTag tag name value ++ rest).toList =
    .yield (.opening (String.ofList (lowerName tag.toList))
      [(String.ofList (lowerName name.toList), String.ofList (decode value.toList))] false,
      rest.toList) := by
  have read := Lexer.readAssignment_quoted unquoted.noQuote ('>' :: rest.toList)
  rw [← Lexer.step_assigned tagName bareName read]
  simp [quotedTag]

end

theorem opensTag_append (tagName : TagName tag) (rest : List Char) :
    Lexer.opensTag ('<' :: (tag.toList ++ rest)) := by
  obtain ⟨c, tail, chars, letter⟩ := tagName.letter
  rw [chars]
  exact letter

/-- Behind markup that ends before tags, tags that are read alike give the same trees. -/
theorem parse_append_eq {before left right : String} (ends : EndsBeforeTags before)
    (opensLeft : Lexer.opensTag left.toList) (opensRight : Lexer.opensTag right.toList)
    (alike : Lexer.step none left.toList = Lexer.step none right.toList) :
    parse (before ++ left) = parse (before ++ right) := by
  have notNil {text : List Char} (opens : Lexer.opensTag text) : text ≠ [] := by
    rintro rfl
    cases opens
  obtain ⟨front, reads⟩ := ends
  rw [parse, parse, Lexer.tokens, Lexer.tokens, String.toList_append, String.toList_append,
    reads _ opensLeft, reads _ opensRight, Lexer.tokensFrom_of_ne_nil none (notNil opensLeft),
    Lexer.tokensFrom_of_ne_nil none (notNil opensRight), alike]

end Markup

namespace Template

open Markup (BareName EndsBeforeTags TagName UnquotedValue lowerName quotedTag unquotedTag)

theorem compile_nodes (source : String) :
    (compile source).map Template.nodes = compileForest (Markup.parse source) := by
  rw [compile]
  cases compileForest (Markup.parse source) <;> rfl

/-- A value that can stand without quotes is read the same with and without them, and leaves the same
markup behind its tag. Templates that differ only in this have the same nodes. -/
theorem unquoted_read_quoted {tag name value : String} (tagName : TagName tag)
    (bareName : BareName name) (unquoted : UnquotedValue value) (rest : String) :
    (∃ step, Markup.Lexer.step none (unquotedTag tag name value ++ rest).toList = step ∧
      Markup.Lexer.step none (quotedTag tag name value ++ rest).toList = step ∧
      step.token = some (.opening (String.ofList (lowerName tag.toList))
        [(String.ofList (lowerName name.toList), String.ofList (Markup.decode value.toList))] false) ∧
      step.rest = rest.toList) ∧
    ∀ before, EndsBeforeTags before →
      (compile (before ++ (unquotedTag tag name value ++ rest))).map nodes =
        (compile (before ++ (quotedTag tag name value ++ rest))).map nodes := by
  have unquotedStep := Markup.step_unquotedTag tagName bareName unquoted rest
  have quotedStep := Markup.step_quotedTag tagName bareName unquoted rest
  refine ⟨⟨_, unquotedStep, quotedStep, rfl, rfl⟩, fun before ends => ?_⟩
  rw [compile_nodes, compile_nodes, Markup.parse_append_eq ends ?_ ?_
    (unquotedStep.trans quotedStep.symm)]
  · simpa [unquotedTag] using Markup.opensTag_append tagName _
  · simpa [quotedTag] using Markup.opensTag_append tagName _

def braceValue : String := "\x7b\x7b\x7b c | upper \x7d\x7d\x7d/=d\x7b"

theorem unquoted_read_quoted_braces :
    (Markup.Lexer.step none (unquotedTag "Li" "Class" braceValue ++ "x</li>").toList).token =
      some (.opening "li" [("class", braceValue)] false) ∧
    (compile ("<ul>" ++ (unquotedTag "Li" "Class" braceValue ++ "x</li>"))).map nodes =
      (compile ("<ul>" ++ (quotedTag "Li" "Class" braceValue ++ "x</li>"))).map nodes := by
  have tagName : TagName "Li" := ⟨⟨'L', ['i'], rfl, rfl⟩, Markup.closed_of_any rfl⟩
  have bareName : BareName "Class" :=
    ⟨by decide, Markup.closed_of_any rfl, Text.breakOn_eq_none.1 rfl⟩
  have unquoted : UnquotedValue braceValue := by
    have single : Text.Single '\x7d' "\x7b c | upper ".toList :=
      ⟨Text.breakOn_eq_none.1 rfl, by decide⟩
    have bare : ¬ Markup.braces <:+: "\x7d/=d\x7b".toList := Text.breakOn_eq_none.1 rfl
    exact ⟨by decide, by decide,
      .run single (Markup.shielded_of_bare (Markup.closed_of_any rfl) bare)⟩
  have ends : EndsBeforeTags "<ul>" := by
    refine ⟨[.opening "ul" [] false], fun behind _ => ?_⟩
    have plain : Markup.PlainTag "ul" :=
      Markup.plainTag_of_all (show "ul".toList = ['u', 'l'] from rfl) rfl (by decide)
    have names : ∀ name ∈ OrderedMap.keys ([] : Markup.Attributes), Markup.ReadName name := by
      simp [OrderedMap.keys]
    exact Markup.Lexer.tokensFrom_opening plain names (by simp [Markup.Attributes.printedNames])
  obtain ⟨⟨step, read, -, token, -⟩, alike⟩ :=
    unquoted_read_quoted tagName bareName unquoted "x</li>"
  refine ⟨?_, alike "<ul>" ends⟩
  rw [read, token]
  decide +kernel

end Template

end LiveList
