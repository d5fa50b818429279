import LiveList.Json.Numeral

namespace LiveList.Json

def isJsonBlank (c : Char) : Bool := c == ' ' || c == '\t' || c == '\n' || c == '\r'

def skipBlanks (text : List Char) : List Char := text.dropWhile isJsonBlank

def greatestDepth : Nat := 127

def hexValue? (c : Char) : Option Nat :=
  if '0' ≤ c && c ≤ '9' then some (c.toNat - '0'.toNat)
  else if 'a' ≤ c && c ≤ 'f' then some (c.toNat - 'a'.toNat + 10)
  else if 'A' ≤ c && c ≤ 'F' then some (c.toNat - 'A'.toNat + 10)
  else none

def codeUnit? (a b c d : Char) : Option Nat := do
  return (((← hexValue? a) * 16 + (← hexValue? b)) * 16 + (← hexValue? c)) * 16 + (← hexValue? d)

def isHighSurrogate (n : Nat) : Bool := 0xD800 ≤ n && n ≤ 0xDBFF

def isLowSurrogate (n : Nat) : Bool := 0xDC00 ≤ n && n ≤ 0xDFFF

def simpleEscape? (c : Char) : Option Char :=
  if c = '\x22' || c = '\\' || c = '/' then some c
  else if c = 'b' then some '\x08'
  else if c = 'f' then some '\x0c'
  else if c = 'n' then some '\n'
  else if c = 'r' then some '\r'
  else if c = 't' then some '\t'
  else none

def readString : List Char → Option (List Char × List Char)
  | [] => none
  | '\\' :: 'u' :: a :: b :: c :: d :: rest =>
    match codeUnit? a b c d with
    | none => none
    | some high =>
      if isLowSurrogate high then none
      else if isHighSurrogate high then
        match rest with
        | '\\' :: 'u' :: e :: f :: g :: h :: rest =>
          match codeUnit? e f g h with
          | none => none
          | some low =>
            if isLowSurrogate low then
              (readString rest).map fun (content, behind) =>
                (Char.ofNat (0x10000 + (high - 0xD800) * 0x400 + (low - 0xDC00)) :: content, behind)
            else none
        | _ => none
      else (readString rest).map fun (content, behind) => (Char.ofNat high :: content, behind)
  | '\\' :: c :: rest =>
    match simpleEscape? c with
    | none => none
    | some character =>
      (readString rest).map fun (content, behind) => (character :: content, behind)
  | c :: rest =>
    if c = '\x22' then some ([], rest)
    else if c.toNat < 0x20 || c = '\\' then none
    else (readString rest).map fun (content, behind) => (c :: content, behind)

mutual

def readValue : (fuel depth : Nat) → List Char → Option (Value × List Char)
  | 0, _, _ => none
  | fuel + 1, depth, text =>
    match skipBlanks text with
    | 'n' :: 'u' :: 'l' :: 'l' :: rest => some (.null, rest)
    | 't' :: 'r' :: 'u' :: 'e' :: rest => some (.bool true, rest)
    | 'f' :: 'a' :: 'l' :: 's' :: 'e' :: rest => some (.bool false, rest)
    | '\x22' :: rest =>
      (readString rest).map fun (content, behind) => (.string (String.ofList content), behind)
    | '[' :: rest =>
      match depth with
      | 0 => none
      | depth + 1 =>
        match skipBlanks rest with
        | ']' :: behind => some (.array [], behind)
        | _ => (readItems fuel depth rest).map fun (items, behind) => (.array items, behind)
    | '\x7b' :: rest =>
      match depth with
      | 0 => none
      | depth + 1 =>
        match skipBlanks rest with
        | '\x7d' :: behind => some (.object [], behind)
        | _ => (readFields fuel depth [] rest).map fun (fields, behind) => (.object fields, behind)
    | start => (Numeral.read start).map fun (n, behind) => (.number n, behind)

def readItems : (fuel depth : Nat) → List Char → Option (List Value × List Char)
  | 0, _, _ => none
  | fuel + 1, depth, text =>
    match readValue fuel depth text with
    | none => none
    | some (item, behind) =>
      match skipBlanks behind with
      | ',' :: rest => (readItems fuel depth rest).map fun (items, behind) => (item :: items, behind)
      | ']' :: rest => some ([item], rest)
      | _ => none

def readFields : (fuel depth : Nat) → Fields → List Char → Option (Fields × List Char)
  | 0, _, _, _ => none
  | fuel + 1, depth, found, text =>
    match skipBlanks text with
    | '\x22' :: rest =>
      match readString rest with
      | none => none
      | some (key, behind) =>
        match skipBlanks behind with
        | ':' :: rest =>
          match readValue fuel depth rest with
          | none => none
          | some (value, behind) =>
            let found := OrderedMap.put found (String.ofList key) value
            match skipBlanks behind with
            | ',' :: rest => readFields fuel depth found rest
            | '\x7d' :: rest => some (found, rest)
            | _ => none
        | _ => none
    | _ => none

end

/-- Reads a whole text as one value. Every two steps take a character off the text. -/
def parse (s : String) : Option Value :=
  let text := s.toList
  match readValue (2 * text.length + 2) greatestDepth text with
  | some (value, behind) => if (skipBlanks behind).isEmpty then some value else none
  | none => none

def parseObject (s : String) : Option Fields :=
  match parse s with
  | some (.object fields) => some fields
  | _ => none

end LiveList.Json
