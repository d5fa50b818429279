import LiveList.Text.CaseTable

namespace LiveList.Text

def inRanges (table : List (Nat × Nat)) (c : Char) : Bool :=
  table.any fun (first, last) => first ≤ c.toNat && c.toNat ≤ last

def runImage? (runs : List (Nat × Nat × Nat × Nat)) (c : Char) : Option Char :=
  (runs.find? fun (first, last, step, _) =>
    first ≤ c.toNat && c.toNat ≤ last && (c.toNat - first) % step == 0).map
      fun (first, _, _, image) => Char.ofNat (image + (c.toNat - first))

def caseImage (expansions : List (Nat × List Nat)) (runs : List (Nat × Nat × Nat × Nat))
    (c : Char) : List Char :=
  match expansions.lookup c.toNat with
  | some images => images.map Char.ofNat
  | none => [(runImage? runs c).getD c]

def upperChar : Char → List Char := caseImage CaseTable.upperExpansions CaseTable.upperRuns

def lowerChar : Char → List Char := caseImage CaseTable.lowerExpansions CaseTable.lowerRuns

def meetsCased (cs : List Char) : Bool :=
  match cs.dropWhile (inRanges CaseTable.ignorableRanges) with
  | [] => false
  | c :: _ => inRanges CaseTable.casedRanges c

/-- Lower-cases a text behind the characters `before`, the nearest of which comes first. A capital
sigma takes its final form behind a letter of the same word and before none. -/
def lowerBehind (before : List Char) : List Char → List Char
  | [] => []
  | c :: rest =>
    (if c = 'Σ' then [if meetsCased before && !meetsCased rest then 'ς' else 'σ']
      else lowerChar c) ++ lowerBehind (c :: before) rest

def upper (cs : List Char) : List Char := cs.flatMap upperChar

def lower (cs : List Char) : List Char := lowerBehind [] cs

def capitalized : List Char → List Char
  | [] => []
  | c :: rest => upperChar c ++ lower rest

end LiveList.Text
