import LiveList.Markup.Forest
import LiveList.Template.Expr

namespace LiveList.Template

open Markup (Attributes Tree)

def loopAttribute : String := "data-loop"

inductive Node where
  | text (segments : List Segment)
  | comment (body : String)
  | element (tag : String) (attributes : List (String × List Segment)) (children : List Node)
  | loop (field : String) (tag : String) (attributes : List (String × List Segment))
      (children : List Node)
deriving Repr, Inhabited

def loopField? (attributes : Attributes) : Option String :=
  (attributes.get? loopAttribute).map Text.trimmed

def compileAttributes : Attributes → Except TemplateError (List (String × List Segment))
  | [] => .ok []
  | (name, value) :: rest =>
    if name = loopAttribute then compileAttributes rest
    else do
      let parts ← segments value
      return (name, parts) :: (← compileAttributes rest)

def elementNode (attributes : Attributes) (tag : String) (compiled : List (String × List Segment))
    (children : List Node) : Except TemplateError Node :=
  match loopField? attributes with
  | none => .ok (.element tag compiled children)
  | some field =>
    if field = "" then .error (.emptyLoop tag) else .ok (.loop field tag compiled children)

mutual

def compileTree : Tree → Except TemplateError Node
  | .text content => do return .text (← segments content)
  | .comment body => .ok (.comment body)
  | .element tag attributes children => do
    let compiled ← compileAttributes attributes
    let inner ← compileForest children
    elementNode attributes tag compiled inner

def compileForest : List Tree → Except TemplateError (List Node)
  | [] => .ok []
  | tree :: rest => do
    let node ← compileTree tree
    return node :: (← compileForest rest)

end

def Node.isElement : Node → Bool
  | .element .. => true
  | _ => false

end Template

structure Template where
  source : String
  nodes : List Template.Node
deriving Repr, Inhabited

namespace Template

def compile (source : String) : Except TemplateError Template := do
  return ⟨source, ← compileForest (Markup.parse source)⟩

def hasElementRoot (template : Template) : Bool := template.nodes.any Node.isElement

end LiveList.Template
