import LiveList.Json.Parser
import LiveList.Text.Scan
import LiveList.Number.Binary64

namespace LiveList.Toml

def isControl (c : Char) : Bool := (c.toNat < 0x20 && c != '\t') || c.toNat == 0x7F

def isSpace (c : Char) : Bool := c == ' ' || c == '\t'

def skipSpaces (text : List Char) : List Char := text.dropWhile isSpace

def dropLineEnd? : List Char → Option (List Char)
  | '\n' :: rest => some rest
  | '\r' :: '\n' :: rest => some rest
  | _ => none

def readHex (count : Nat) (text : List Char) : Option (Nat × List Char) :=
  let digits := text.take count
  if digits.length < count then none
  else do
    let value ← digits.foldlM (fun n c => (Json.hexValue? c).map (16 * n + ·)) 0
    return (value, text.drop count)

def readEscape : List Char → Option (Char × List Char)
  | 'b' :: rest => some ('\x08', rest)
  | 't' :: rest => some ('\t', rest)
  | 'n' :: rest => some ('\n', rest)
  | 'f' :: rest => some ('\x0c', rest)
  | 'r' :: rest => some ('\r', rest)
  | 'e' :: rest => some ('\x1b', rest)
  | '\x22' :: rest => some ('\x22', rest)
  | '\\' :: rest => some ('\\', rest)
  | 'x' :: rest => numbered 2 rest
  | 'u' :: rest => numbered 4 rest
  | 'U' :: rest => numbered 8 rest
  | _ => none
where
  numbered (count : Nat) (text : List Char) : Option (Char × List Char) := do
    let (value, rest) ← readHex count text
    if value.isValidChar then some (Char.ofNat value, rest) else none

def readBasic : (fuel : Nat) → List Char → Option (List Char × List Char)
  | 0, _ => none
  | _, [] => none
  | fuel + 1, c :: rest =>
    if c = '\x22' then some ([], rest)
    else if c = '\\' then do
      let (d, rest) ← readEscape rest
      let (content, behind) ← readBasic fuel rest
      return (d :: content, behind)
    else if isControl c then none
    else do
      let (content, behind) ← readBasic fuel rest
      return (c :: content, behind)

def readLiteral : List Char → Option (List Char × List Char)
  | [] => none
  | c :: rest =>
    if c = '\x27' then some ([], rest)
    else if isControl c then none
    else (readLiteral rest).map fun (content, behind) => (c :: content, behind)

def skipBlankLines : List Char → List Char
  | '\r' :: '\n' :: rest => skipBlankLines rest
  | c :: rest => if isSpace c || c == '\n' then skipBlankLines rest else c :: rest
  | [] => []

def dropContinuation? (text : List Char) : Option (List Char) :=
  (dropLineEnd? (skipSpaces text)).map skipBlankLines

/-- The quotes at the start of a text that close a string of several lines: of a run of at most
five the last three close it, and those before them belong to it. -/
def closingQuotes (quote : Char) (text : List Char) : Option (List Char × List Char) :=
  let run := (text.takeWhile (· == quote)).length
  if run < 3 then none
  else
    let own := min (run - 3) 2
    some (List.replicate own quote, text.drop (own + 3))

def readLines (quote : Char) (escapes : Bool) : (fuel : Nat) → List Char →
    Option (List Char × List Char)
  | 0, _ => none
  | _, [] => none
  | fuel + 1, c :: rest =>
    match closingQuotes quote (c :: rest) with
    | some closed => some closed
    | none =>
      if c = '\\' && escapes then
        match dropContinuation? rest with
        | some rest => readLines quote escapes fuel rest
        | none => do
          let (d, rest) ← readEscape rest
          let (content, behind) ← readLines quote escapes fuel rest
          return (d :: content, behind)
      else if isControl c && c != '\n' && !(c == '\r' && rest.head? == some '\n') then none
      else do
        let (content, behind) ← readLines quote escapes fuel rest
        return (c :: content, behind)

def readLineString : List Char → Option (String × List Char)
  | '\x22' :: rest =>
    (readBasic (rest.length + 1) rest).map fun (content, behind) => (String.ofList content, behind)
  | '\x27' :: rest =>
    (readLiteral rest).map fun (content, behind) => (String.ofList content, behind)
  | _ => none

def readString : List Char → Option (String × List Char)
  | '\x22' :: '\x22' :: '\x22' :: rest => several '\x22' true rest
  | '\x27' :: '\x27' :: '\x27' :: rest => several '\x27' false rest
  | text => readLineString text
where
  several (quote : Char) (escapes : Bool) (rest : List Char) : Option (String × List Char) :=
    let rest := (dropLineEnd? rest).getD rest
    (readLines quote escapes (rest.length + 1) rest).map fun (content, behind) =>
      (String.ofList content, behind)

def areDigits (isDigit : Char → Bool) (text : List Char) : Bool :=
  (Text.pieces '_' text).all fun piece => !piece.isEmpty && piece.all isDigit

def unsigned : List Char → List Char
  | '+' :: rest => rest
  | '-' :: rest => rest
  | text => text

def isDecimal (text : List Char) : Bool :=
  areDigits Text.isDigit text && (text.length == 1 || text.head? != some '0')

def magnitude (base : Nat) (text : List Char) : Nat :=
  text.foldl (fun n c => match Json.hexValue? c with | some d => base * n + d | none => n) 0

def fitsInteger (negative : Bool) (n : Nat) : Bool :=
  if negative then n ≤ Number.twoTo 127 else n < Number.twoTo 128

def isInteger (text : List Char) : Bool :=
  match text with
  | '0' :: 'x' :: digits =>
    areDigits (fun c => (Json.hexValue? c).isSome) digits && fitsInteger false (magnitude 16 digits)
  | '0' :: 'o' :: digits =>
    areDigits (fun c => '0' ≤ c && c ≤ '7') digits && fitsInteger false (magnitude 8 digits)
  | '0' :: 'b' :: digits =>
    areDigits (fun c => c == '0' || c == '1') digits && fitsInteger false (magnitude 2 digits)
  | _ =>
    let digits := unsigned text
    isDecimal digits && fitsInteger (text.head? == some '-') (magnitude 10 digits)

def isTooGreat (whole fraction : List Char) (exponent : Int) : Bool :=
  let digits := (whole ++ fraction).filter Text.isDigit
  let significant := digits.dropWhile (· == '0')
  let scale : Int := exponent - (fraction.filter Text.isDigit).length
  if significant.isEmpty || significant.length + scale < 0 then false
  else if 400 < significant.length + scale then true
  else
    (Binary64.ofRatio (magnitude 10 significant * Number.tenTo scale.toNat)
      (Number.tenTo (-scale).toNat)).isNone

def isFloat (text : List Char) : Bool :=
  let body := unsigned text
  if body = "inf".toList || body = "nan".toList then true
  else
    let (mantissa, exponent) := match Text.cut 'e' (body.map Text.lowerLetter) with
      | some (mantissa, exponent) => (mantissa, some exponent)
      | none => (body, none)
    let (whole, fraction) := match Text.cut '.' mantissa with
      | some (whole, fraction) => (whole, some fraction)
      | none => (mantissa, none)
    let power : Int := match exponent with
      | none => 0
      | some e =>
        let n : Int := magnitude 10 (unsigned e)
        if e.head? == some '-' then -n else n
    (fraction.isSome || exponent.isSome) && isDecimal whole &&
      fraction.all (areDigits Text.isDigit) &&
      exponent.all (fun e => areDigits Text.isDigit (unsigned e)) &&
      !isTooGreat whole (fraction.getD []) power

def fixedDigits (count : Nat) (text : List Char) : Option Nat :=
  if text.length = count && text.all Text.isDigit then some (magnitude 10 text) else none

def isLeapYear (year : Nat) : Bool := year % 4 == 0 && (year % 100 != 0 || year % 400 == 0)

def daysOf (year month : Nat) : Nat :=
  if month = 2 then if isLeapYear year then 29 else 28
  else if month = 4 || month = 6 || month = 9 || month = 11 then 30
  else 31

def isDate (text : List Char) : Bool :=
  match Text.pieces '-' text with
  | [year, month, day] =>
    match fixedDigits 4 year, fixedDigits 2 month, fixedDigits 2 day with
    | some year, some month, some day =>
      1 ≤ month && month ≤ 12 && 1 ≤ day && day ≤ daysOf year month
    | _, _, _ => false
  | _ => false

def isPart (greatest : Nat) (text : List Char) : Bool := (fixedDigits 2 text).any (· ≤ greatest)

/-- Tells whether a text is a time of day. Seconds may be left out, and they may have a
fraction. -/
def isTime (text : List Char) : Bool :=
  match Text.pieces ':' text with
  | [hour, minute] => isPart 23 hour && isPart 59 minute
  | [hour, minute, second] =>
    isPart 23 hour && isPart 59 minute &&
      match Text.cut '.' second with
      | none => isPart 60 second
      | some (second, fraction) =>
        isPart 60 second && !fraction.isEmpty && fraction.all Text.isDigit
  | _ => false

def isOffset : List Char → Bool
  | [] => true
  | ['Z'] => true
  | ['z'] => true
  | c :: rest =>
    (c == '+' || c == '-') &&
      match Text.pieces ':' rest with
      | [hour, minute] => isPart 23 hour && isPart 59 minute
      | _ => false

def isTimeWithOffset (text : List Char) : Bool :=
  let isClock (c : Char) : Bool := Text.isDigit c || c == ':' || c == '.'
  isTime (text.takeWhile isClock) && isOffset (text.dropWhile isClock)

def isMoment (text : List Char) : Bool :=
  isDate text || isTime text ||
    (isDate (text.take 10) &&
      match text.drop 10 with
      | c :: time => (c == 'T' || c == 't' || c == ' ') && isTimeWithOffset time
      | [] => false)

def isWordChar (c : Char) : Bool :=
  Text.isLetter c || Text.isDigit c || c == '_' || c == '-' || c == '+' || c == '.' || c == ':'

/-- Reads a bare word. A blank between a date and a time belongs to the word. -/
def readWord (text : List Char) : List Char × List Char :=
  let word := text.takeWhile isWordChar
  let rest := text.dropWhile isWordChar
  match rest with
  | ' ' :: c :: more =>
    if isDate word && Text.isDigit c then
      (word ++ ' ' :: (c :: more).takeWhile isWordChar, (c :: more).dropWhile isWordChar)
    else (word, rest)
  | _ => (word, rest)

end LiveList.Toml
