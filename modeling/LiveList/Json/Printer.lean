import LiveList.Json.Basic
import LiveList.Number.Shortest
import LiveList.Text.Quoted

namespace LiveList.Json

def Number.text : Number → String
  | .int n => toString n
  | .float x => LiveList.Number.floatText x

def escapedChar (c : Char) : List Char :=
  if c = '\x22' then ['\\', c]
  else if c = '\\' then ['\\', c]
  else if c = '\x08' then ['\\', 'b']
  else if c = '\t' then ['\\', 't']
  else if c = '\n' then ['\\', 'n']
  else if c = '\x0c' then ['\\', 'f']
  else if c = '\r' then ['\\', 'r']
  else if c.toNat < 0x20 then
    ['\\', 'u', '0', '0', Nat.digitChar (c.toNat / 16), Nat.digitChar (c.toNat % 16)]
  else [c]

def stringText (s : String) : String :=
  String.ofList ('\x22' :: s.toList.flatMap escapedChar ++ ['\x22'])

namespace Value

mutual

def compact : Value → String
  | .null => "null"
  | .bool b => if b then "true" else "false"
  | .number n => n.text
  | .string s => stringText s
  | .array items => "[" ++ ",".intercalate (compactItems items) ++ "]"
  | .object fields => "\x7b" ++ ",".intercalate (compactFields fields) ++ "\x7d"

def compactItems : List Value → List String
  | [] => []
  | x :: rest => compact x :: compactItems rest

def compactFields : List (String × Value) → List String
  | [] => []
  | (key, x) :: rest => (stringText key ++ ":" ++ compact x) :: compactFields rest

end

mutual

/-- The text of a value in markup: strings as they are, nothing for `null`, the items of an array
joined by commas, and one fixed text for every object. -/
def display : Value → String
  | .null => ""
  | .bool b => if b then "true" else "false"
  | .number n => n.text
  | .string s => s
  | .array items => ",".intercalate (displayItems items)
  | .object _ => "[object Object]"

def displayItems : List Value → List String
  | [] => []
  | x :: rest => display x :: displayItems rest

end

mutual

def inspect : Value → String
  | .null => "Null"
  | .bool b => "Bool(" ++ (if b then "true" else "false") ++ ")"
  | .number n => "Number(" ++ n.text ++ ")"
  | .string s => "String(" ++ Text.quoted s ++ ")"
  | .array items => "Array [" ++ ", ".intercalate (inspectItems items) ++ "]"
  | .object fields => "Object \x7b" ++ ", ".intercalate (inspectEntries fields) ++ "\x7d"

def inspectItems : List Value → List String
  | [] => []
  | x :: rest => inspect x :: inspectItems rest

def inspectEntries : List (String × Value) → List String
  | [] => []
  | (key, x) :: rest => (Text.quoted key ++ ": " ++ inspect x) :: inspectEntries rest

end

def inspectFields (fields : Fields) : String :=
  "\x7b" ++ ", ".intercalate (inspectEntries fields) ++ "\x7d"

end Value

end LiveList.Json
