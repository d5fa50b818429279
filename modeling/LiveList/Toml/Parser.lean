import LiveList.Toml.Scalar
import LiveList.Toml.Table

namespace LiveList.Toml

def greatestDepth : Nat := 80

def greatestKey : Nat := 80

def isKeyChar (c : Char) : Bool :=
  Text.isLetter c || Text.isDigit c || c == '_' || c == '-'

def readName (text : List Char) : Option (String × List Char) :=
  match readLineString text with
  | some found => some found
  | none =>
    let name := text.takeWhile isKeyChar
    if name.isEmpty then none else some (String.ofList name, text.dropWhile isKeyChar)

def readNames : (room : Nat) → List Char → Option (List String × List Char)
  | 0, _ => none
  | room + 1, text => do
    let (name, behind) ← readName (skipSpaces text)
    match skipSpaces behind with
    | '.' :: rest => do
      let (names, behind) ← readNames room rest
      return (name :: names, behind)
    | rest => return ([name], rest)

def readKey : List Char → Option (List String × List Char) := readNames greatestKey

def skipComment (text : List Char) : Option (List Char) :=
  match text with
  | '#' :: rest =>
    let behind := rest.dropWhile fun c => !isControl c
    if behind.isEmpty || (dropLineEnd? behind).isSome then some behind else none
  | _ => some text

def skipGap : (fuel : Nat) → List Char → Option (List Char)
  | 0, _ => none
  | fuel + 1, text => do
    let rest ← skipComment (skipSpaces text)
    match dropLineEnd? rest with
    | some rest => skipGap fuel rest
    | none => return rest

def wordValue (word : List Char) : Option Value :=
  if word = "true".toList then some (.boolean true)
  else if word = "false".toList then some (.boolean false)
  else if isInteger word || isFloat word then some (.number (String.ofList word))
  else if isMoment word then some (.moment (String.ofList word))
  else none

mutual

def readValue : (fuel depth : Nat) → List Char → Option (Value × List Char)
  | 0, _, _ => none
  | fuel + 1, depth, text =>
    match text with
    | '[' :: rest =>
      match depth with
      | 0 => none
      | depth + 1 => (readItems fuel depth rest).map fun (items, behind) => (.array items, behind)
    | '\x7b' :: rest =>
      match depth with
      | 0 => none
      | depth + 1 =>
        (readEntries fuel depth [] rest).map fun (fields, behind) =>
          (.table .inlined fields, behind)
    | c :: _ =>
      if c = '\x22' || c = '\x27' then
        (readString text).map fun (content, behind) => (.string content, behind)
      else
        let (word, behind) := readWord text
        (wordValue word).map (·, behind)
    | [] => none

def readItems : (fuel depth : Nat) → List Char → Option (List Value × List Char)
  | 0, _, _ => none
  | fuel + 1, depth, text => do
    match ← skipGap fuel text with
    | ']' :: behind => return ([], behind)
    | start =>
      let (item, behind) ← readValue fuel depth start
      match ← skipGap fuel behind with
      | ',' :: rest =>
        let (items, behind) ← readItems fuel depth rest
        return (item :: items, behind)
      | ']' :: behind => return ([item], behind)
      | _ => none

def readEntries : (fuel depth : Nat) → Fields → List Char → Option (Fields × List Char)
  | 0, _, _, _ => none
  | fuel + 1, depth, found, text => do
    match ← skipGap fuel text with
    | '\x7d' :: behind => return (found, behind)
    | start =>
      let (key, behind) ← readKey start
      match ← skipGap fuel behind with
      | '=' :: rest =>
        let (value, behind) ← readValue fuel depth (← skipGap fuel rest)
        let found ← assign key value .inlined found
        match ← skipGap fuel behind with
        | ',' :: rest => readEntries fuel depth found rest
        | '\x7d' :: behind => return (found, behind)
        | _ => none
      | _ => none

end

structure Reading where
  root : Fields
  opened : List String

def readLine (fuel : Nat) (reading : Reading) (text : List Char) :
    Option (Reading × List Char) :=
  match text with
  | '[' :: '[' :: rest => do
    let (key, behind) ← readKey rest
    match behind with
    | ']' :: ']' :: behind => return (⟨← openEntry key reading.root, key⟩, behind)
    | _ => none
  | '[' :: rest => do
    let (key, behind) ← readKey rest
    match behind with
    | ']' :: behind => return (⟨← openTable key reading.root, key⟩, behind)
    | _ => none
  | c :: _ =>
    if c = '#' || (dropLineEnd? text).isSome then some (reading, text)
    else do
      let (key, behind) ← readKey text
      match behind with
      | '=' :: rest =>
        let (value, behind) ← readValue fuel greatestDepth (skipSpaces rest)
        let root ← assignIn reading.opened key value reading.root
        return ({ reading with root }, behind)
      | _ => none
  | [] => some (reading, [])

def readLinesFrom : (fuel : Nat) → Reading → List Char → Option Fields
  | 0, _, _ => none
  | fuel + 1, reading, text => do
    let (reading, behind) ← readLine (2 * text.length + 2) reading (skipSpaces text)
    let rest ← skipComment (skipSpaces behind)
    match rest with
    | [] => return reading.root
    | _ =>
      let rest ← dropLineEnd? rest
      readLinesFrom fuel reading rest

def parse (document : String) : Option Fields :=
  let text := match document.toList with
    | '\ufeff' :: rest => rest
    | text => text
  readLinesFrom (text.length + 1) ⟨[], []⟩ text

end LiveList.Toml
