namespace LiveList.Text

def isBlank (c : Char) : Bool :=
  let n := c.toNat
  (0x09 ≤ n && n ≤ 0x0D) || n == 0x20 || n == 0x85 || n == 0xA0 || n == 0x1680 ||
    (0x2000 ≤ n && n ≤ 0x200A) || n == 0x2028 || n == 0x2029 || n == 0x202F || n == 0x205F ||
    n == 0x3000

def isLetter (c : Char) : Bool := ('a' ≤ c && c ≤ 'z') || ('A' ≤ c && c ≤ 'Z')

def isDigit (c : Char) : Bool := '0' ≤ c && c ≤ '9'

def lowerLetter (c : Char) : Char := if 'A' ≤ c && c ≤ 'Z' then Char.ofNat (c.toNat + 32) else c

def trimStart (cs : List Char) : List Char := cs.dropWhile isBlank

def trimEnd (cs : List Char) : List Char := (cs.reverse.dropWhile isBlank).reverse

def trim (cs : List Char) : List Char := trimEnd (trimStart cs)

def trimmed (s : String) : String := String.ofList (trim s.toList)

def pieces (sep : Char) : List Char → List (List Char)
  | [] => [[]]
  | c :: rest =>
    if c = sep then [] :: pieces sep rest
    else match pieces sep rest with
      | [] => [[c]]
      | piece :: more => (c :: piece) :: more

def cut (sep : Char) : List Char → Option (List Char × List Char)
  | [] => none
  | c :: rest =>
    if c = sep then some ([], rest)
    else (cut sep rest).map fun (before, behind) => (c :: before, behind)

def dropPattern : (pattern text : List Char) → Option (List Char)
  | [], text => some text
  | _ :: _, [] => none
  | p :: pattern, c :: text => if c = p then dropPattern pattern text else none

def breakOn (pattern : List Char) : List Char → Option (List Char × List Char)
  | [] => if pattern = [] then some ([], []) else none
  | c :: rest =>
    match dropPattern pattern (c :: rest) with
    | some behind => some ([], behind)
    | none => (breakOn pattern rest).map fun (before, behind) => (c :: before, behind)

def words : List Char → List (List Char)
  | [] => []
  | c :: rest =>
    if isBlank c then words rest
    else match rest, words rest with
      | d :: _, word :: more => if isBlank d then [c] :: word :: more else (c :: word) :: more
      | _, more => [c] :: more

def byteSize : List Char → Nat
  | [] => 0
  | c :: rest => c.utf8Size + byteSize rest

theorem dropPattern_eq_some {pattern text rest : List Char} :
    dropPattern pattern text = some rest ↔ text = pattern ++ rest := by
  induction pattern generalizing text with
  | nil => simp [dropPattern, eq_comm]
  | cons p pattern ih =>
    cases text with
    | nil => simp [dropPattern]
    | cons c text =>
      by_cases h : c = p
      · simp [dropPattern, h, ih]
      · simp [dropPattern, h]

theorem eq_of_cut {sep : Char} {text before behind : List Char}
    (h : cut sep text = some (before, behind)) : text = before ++ sep :: behind := by
  induction text generalizing before behind with
  | nil => simp [cut] at h
  | cons c rest ih =>
    by_cases hc : c = sep
    · simp [cut, hc] at h
      simp [← h.1, ← h.2, hc]
    · simp only [cut, hc, if_false] at h
      obtain ⟨⟨b, a⟩, inner, outer⟩ := Option.map_eq_some_iff.1 h
      simp only [Prod.mk.injEq] at outer
      rw [← outer.1, ← outer.2, ih inner]
      simp

theorem eq_of_breakOn {pattern text before behind : List Char}
    (h : breakOn pattern text = some (before, behind)) : text = before ++ pattern ++ behind := by
  induction text generalizing before behind with
  | nil =>
    by_cases hp : pattern = []
    · simp [breakOn, hp] at h
      simp [hp, ← h.1, h.2]
    · simp [breakOn, hp] at h
  | cons c rest ih =>
    rw [breakOn] at h
    split at h
    · rename_i rest' found
      simp only [Option.some.injEq, Prod.mk.injEq] at h
      simpa [← h.1, ← h.2] using dropPattern_eq_some.1 found
    · obtain ⟨⟨b, a⟩, inner, outer⟩ := Option.map_eq_some_iff.1 h
      simp only [Prod.mk.injEq] at outer
      rw [← outer.1, ← outer.2, ih inner]
      simp

theorem length_lt_of_breakOn {pattern text before behind : List Char} (hp : pattern ≠ [])
    (h : breakOn pattern text = some (before, behind)) : behind.length < text.length := by
  have lengths := congrArg List.length (eq_of_breakOn h)
  have : 0 < pattern.length := List.length_pos_iff.2 hp
  simp at lengths
  omega

end LiveList.Text
