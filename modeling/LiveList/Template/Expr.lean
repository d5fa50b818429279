import LiveList.Json.Path
import LiveList.Template.Error

namespace LiveList.Template

inductive Path where
  | this
  | fields (names : List String)
deriving DecidableEq, Repr

structure Expr where
  source : String
  path : Path
  filters : List String
deriving DecidableEq, Repr

inductive Segment where
  | literal (text : String)
  | ofRecord (expr : Expr)
  | ofItem (expr : Expr)
deriving DecidableEq, Repr

def Segment.isDynamic : Segment → Bool
  | .literal _ => false
  | _ => true

def opening : List Char := ['\x7b', '\x7b']

def closing : List Char := ['\x7d', '\x7d']

def Path.parse (source : String) : Except TemplateError Path :=
  if source = Json.thisPath then .ok .this
  else
    let names := Json.Value.segmentsOf source.toList
    if names.any (· = "") then .error (.malformedPath source) else .ok (.fields names)

def Expr.parse (inner : String) : Except TemplateError Expr :=
  let parts := (Text.pieces '|' inner.toList).map fun part => String.ofList (Text.trim part)
  let source := parts.headD ""
  let filters := parts.tail
  if source = "" then .error (.emptyExpression inner)
  else if filters.any (· = "") then .error (.emptyFilterName (Text.trimmed inner))
  else do
    let path ← Path.parse source
    return { source, path, filters }

def Segment.parse (body : List Char) : Except TemplateError Segment :=
  match Text.trim body with
  | '#' :: inner => do return .ofItem (← Expr.parse (String.ofList inner))
  | inner => do return .ofRecord (← Expr.parse (String.ofList inner))

def literalSegment (text : List Char) : List Segment :=
  if text = [] then [] else [.literal (String.ofList text)]

theorem length_lt_of_marker {text before body rest behind : List Char}
    (atOpening : Text.breakOn opening text = some (before, rest))
    (atClosing : Text.breakOn closing rest = some (body, behind)) :
    behind.length < text.length := by
  have first := Text.length_lt_of_breakOn (by decide) atOpening
  have second := Text.length_lt_of_breakOn (by decide) atClosing
  omega

def segmentsFrom (whole : String) (text : List Char) : Except TemplateError (List Segment) :=
  match atOpening : Text.breakOn opening text with
  | none => .ok (literalSegment text)
  | some (before, rest) =>
    match atClosing : Text.breakOn closing rest with
    | none => .error (.unterminated (Text.trimmed whole))
    | some (body, behind) => do
      have := length_lt_of_marker atOpening atClosing
      let segment ← Segment.parse body
      let segments ← segmentsFrom whole behind
      return literalSegment before ++ segment :: segments
termination_by text.length

def segments (text : String) : Except TemplateError (List Segment) := segmentsFrom text text.toList

end LiveList.Template
