import LiveList.Markup.Tokens

namespace LiveList.Markup

structure Frame where
  tag : String
  attributes : Attributes
  before : List Tree

/-- The open elements, innermost first, and the trees read so far inside the innermost one, the
last read first. -/
structure Growth where
  frames : List Frame
  trees : List Tree

namespace Growth

def add (growth : Growth) (tree : Tree) : Growth := { growth with trees := tree :: growth.trees }

def close (growth : Growth) : Growth :=
  match growth.frames with
  | [] => growth
  | frame :: frames =>
    ⟨frames, .element frame.tag frame.attributes growth.trees.reverse :: frame.before⟩

def closeMany : Nat → Growth → Growth
  | 0, growth => growth
  | n + 1, growth => closeMany n growth.close

def step (growth : Growth) : Token → Growth
  | .text content => growth.add (.text content)
  | .comment body => growth.add (.comment body)
  | .opening tag attributes selfClosing =>
    let attributes := Attributes.ofPairs attributes
    if selfClosing || isVoid tag then growth.add (.element tag attributes [])
    else ⟨⟨tag, attributes, growth.trees⟩ :: growth.frames, []⟩
  | .closing tag =>
    match growth.frames.findIdx? (·.tag == tag) with
    | some depth => growth.closeMany (depth + 1)
    | none => growth

def finish (growth : Growth) : List Tree :=
  (growth.closeMany growth.frames.length).trees.reverse

end Growth

def forestOfTokens (tokens : List Token) : List Tree :=
  (tokens.foldl Growth.step ⟨[], []⟩).finish

def parse (markup : String) : List Tree := forestOfTokens (Lexer.tokens markup)

end LiveList.Markup
