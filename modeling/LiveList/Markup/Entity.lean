import LiveList.Text.Scan

namespace LiveList.Markup

def escapeTextChar (c : Char) : List Char :=
  if c = '&' then "&amp;".toList
  else if c = '<' then "&lt;".toList
  else if c = '>' then "&gt;".toList
  else [c]

def escapeAttributeChar (c : Char) : List Char :=
  if c = '\x22' then "&quot;".toList else escapeTextChar c

def escapeText (cs : List Char) : List Char := cs.flatMap escapeTextChar

def escapeAttribute (cs : List Char) : List Char := cs.flatMap escapeAttributeChar

def digitValue? (base : Nat) (c : Char) : Option Nat :=
  let value := if Text.isDigit c then c.toNat - '0'.toNat
    else if 'a' ≤ c && c ≤ 'f' then c.toNat - 'a'.toNat + 10
    else if 'A' ≤ c && c ≤ 'F' then c.toNat - 'A'.toNat + 10
    else base
  if value < base then some value else none

def digitsValue? (base : Nat) (text : List Char) : Option Nat :=
  let digits := match text with
    | '+' :: rest => rest
    | digits => digits
  if digits.isEmpty then none
  else digits.foldlM (fun n c => (digitValue? base c).map (base * n + ·)) 0

def charOfNumber? (n : Nat) : Option Char := if n.isValidChar then some (Char.ofNat n) else none

def referenceNumber? : List Char → Option Nat
  | '#' :: 'x' :: digits => digitsValue? 16 digits
  | '#' :: 'X' :: digits => digitsValue? 16 digits
  | '#' :: digits => digitsValue? 10 digits
  | _ => none

def referenceChar? (name : List Char) : Option Char :=
  if name = "amp".toList then some '&'
  else if name = "lt".toList then some '<'
  else if name = "gt".toList then some '>'
  else if name = "quot".toList then some '\x22'
  else if name = "apos".toList then some '\x27'
  else if name = "nbsp".toList then some '\xa0'
  else (referenceNumber? name).bind charOfNumber?

def greatestName : Nat := 9

def readReference (text : List Char) : Option (Char × List Char) :=
  match Text.cut ';' text with
  | none => none
  | some (name, behind) =>
    if Text.byteSize name ≤ greatestName then (referenceChar? name).map (·, behind) else none

theorem length_lt_of_readReference {text behind : List Char} {c : Char}
    (h : readReference text = some (c, behind)) : behind.length < text.length := by
  unfold readReference at h
  split at h
  · simp at h
  · rename_i name rest found
    split at h
    · obtain ⟨d, -, same⟩ := Option.map_eq_some_iff.1 h
      simp only [Prod.mk.injEq] at same
      have := congrArg List.length (Text.eq_of_cut found)
      simp at this
      rw [← same.2]
      omega
    · simp at h

/-- Decodes the character references of a text in one pass from the left. Whatever is no reference
stays as it is. -/
def decode : List Char → List Char
  | [] => []
  | c :: rest =>
    if c = '&' then
      match h : readReference rest with
      | some (d, behind) =>
        have := length_lt_of_readReference h
        d :: decode behind
      | none => c :: decode rest
    else c :: decode rest
termination_by text => text.length

end LiveList.Markup
