import LiveList.OrderedMap
import LiveList.Markup.Entity

namespace LiveList.Markup

abbrev Attributes := OrderedMap String String

inductive Tree where
  | element (tag : String) (attributes : Attributes) (children : List Tree)
  | text (content : String)
  | comment (body : String)
deriving Repr, Inhabited

def voidTags : List String :=
  ["area", "base", "br", "col", "embed", "hr", "img", "input", "link", "meta", "param", "source",
    "track", "wbr"]

def rawTextTags : List String := ["script", "style"]

def isVoid (tag : String) : Bool := voidTags.contains tag

def isRawText (tag : String) : Bool := rawTextTags.contains tag

def lowerName (cs : List Char) : List Char := cs.map Text.lowerLetter

/-- Attributes from the pairs of a start tag: of equal names the first counts. -/
def Attributes.ofPairs (pairs : List (String × String)) : Attributes :=
  pairs.foldl (fun attributes (name, value) =>
    if attributes.contains name then attributes else attributes.put name value) []

def attributeMarkup (pair : String × String) : List Char :=
  ' ' :: pair.1.toList ++
    if pair.2 = "" then []
    else ['=', '\x22'] ++ escapeAttribute pair.2.toList ++ ['\x22']

def openingMarkup (tag : String) (attributes : Attributes) : List Char :=
  '<' :: tag.toList ++ attributes.flatMap attributeMarkup ++ ['>']

def closingMarkup (tag : String) : List Char := ['<', '/'] ++ tag.toList ++ ['>']

def commentMarkup (body : String) : List Char := "<!--".toList ++ body.toList ++ "-->".toList

namespace Tree

mutual

def markup (raw : Bool) : Tree → List Char
  | .text content => if raw then content.toList else escapeText content.toList
  | .comment body => commentMarkup body
  | .element tag attributes children =>
    openingMarkup tag attributes ++
      if isVoid tag then [] else forestMarkup (isRawText tag) children ++ closingMarkup tag

def forestMarkup (raw : Bool) : List Tree → List Char
  | [] => []
  | tree :: rest => markup raw tree ++ forestMarkup raw rest

end

def printForest (forest : List Tree) : String := String.ofList (forestMarkup false forest)

end Tree

end LiveList.Markup
