import LiveList.Toml.Scalar

namespace LiveList.Toml

def needsEscape (c : Char) : Bool := isControl c && c != '\n'

def hasTriple (quote : Char) (text : List Char) : Bool :=
  (Text.breakOn [quote, quote, quote] text).isSome

def escapedChar (c : Char) : List Char :=
  if c = '\x08' then ['\\', 'b']
  else if c = '\t' then ['\\', 't']
  else if c = '\x0c' then ['\\', 'f']
  else if c = '\r' then ['\\', 'r']
  else if c = '\\' then ['\\', '\\']
  else if needsEscape c then
    let digit (n : Nat) : Char := (Nat.digitChar n).toUpper
    ['\\', 'u', '0', '0', digit (c.toNat / 16), digit (c.toNat % 16)]
  else [c]

/-- Escapes a text; of each run of double quotes every `period`-th is escaped. -/
def escaped (period : Nat) : (run : Nat) → List Char → List Char
  | _, [] => []
  | run, c :: rest =>
    if c = '\x22' then
      (if (run + 1) % period = 0 then ['\\', c] else [c]) ++ escaped period (run + 1) rest
    else escapedChar c ++ escaped period 0 rest

structure Form where
  quote : Char
  severalLines : Bool
  escapes : Bool
deriving DecidableEq, Repr

def formOf (text : List Char) : Form :=
  let plain := !text.any needsEscape
  let lines := text.contains '\n'
  if plain && !text.contains '\\' && !text.contains '\x22' && !lines then ⟨'\x22', false, true⟩
  else if plain && !text.contains '\x27' && !lines then ⟨'\x27', false, false⟩
  else if plain && !text.contains '\\' && !hasTriple '\x22' text then ⟨'\x22', true, true⟩
  else if plain && !hasTriple '\x27' text then ⟨'\x27', true, false⟩
  else ⟨'\x22', lines, true⟩

def stringText (s : String) : String :=
  let text := s.toList
  let form := formOf text
  let quotes := List.replicate (if form.severalLines then 3 else 1) form.quote
  let first := if form.severalLines && text.contains '\n' then ['\n'] else []
  let body :=
    if form.escapes then escaped (if form.severalLines then 3 else 1) 0 text else text
  String.ofList (quotes ++ first ++ body ++ quotes)

end LiveList.Toml
