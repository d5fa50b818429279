import LiveList.Number.Binary64

/-!
# Shortest decimals

The decimal with the fewest digits that rounds back to a given binary number. All comparisons are
made on natural numbers: a value `v` stands for `v / 2 ^ 1076`.
-/

namespace LiveList.Number

structure Decimal where
  digits : Nat
  exponent : Int
deriving DecidableEq, Repr

structure RoundingRange where
  low : Nat
  value : Nat
  high : Nat
  closed : Bool

def unit : Nat := twoTo 1076

/-- The range of values that round to a positive number. Its ends belong to it if the mantissa is
even. Below a power of two the gap to the next number is half as wide. -/
def roundingRange (x : Binary64) : RoundingRange :=
  let step := twoTo (x.exponent - Binary64.leastExponent).toNat
  let narrow := x.mantissa == twoTo 52 && Binary64.leastExponent < x.exponent
  { low := (4 * x.mantissa - if narrow then 1 else 2) * step
    value := 4 * x.mantissa * step
    high := (4 * x.mantissa + 2) * step
    closed := x.mantissa % 2 == 0 }

def digitCount (n : Nat) : Nat := (Nat.toDigits 10 n).length

def leadingExponent (value : Nat) : Int := (digitCount (value * tenTo 400 / unit) : Int) - 401

def onScale (k : Int) (c value : Nat) : Nat × Nat :=
  (c * tenTo k.toNat * unit, value * tenTo (-k).toNat)

def RoundingRange.holds (range : RoundingRange) (k : Int) (c : Nat) : Bool :=
  let (x, low) := onScale k c range.low
  let (_, high) := onScale k c range.high
  if range.closed then low ≤ x && x ≤ high else low < x && x < high

def nearestOnGrid (range : RoundingRange) (k : Int) : Option Nat :=
  let (step, value) := onScale k 1 range.value
  let below := value / step
  let above := below + 1
  match range.holds k below, range.holds k above with
  | false, false => none
  | true, false => some below
  | false, true => some above
  | true, true =>
    let fromBelow := value - below * step
    let toAbove := above * step - value
    -- The nearer point is taken, and of two equally near ones the even one.
    if fromBelow < toAbove then some below
    else if toAbove < fromBelow then some above
    else if below % 2 = 0 then some below else some above

def searchGrids (range : RoundingRange) (lead : Int) : (tries digits : Nat) → Decimal
  | 0, _ => ⟨range.value / unit, 0⟩
  | tries + 1, digits =>
    let k := lead + 1 - digits
    match nearestOnGrid range k with
    | some c => ⟨c, k⟩
    | none => searchGrids range lead tries (digits + 1)

def Decimal.stripped (d : Decimal) : Decimal :=
  let text := Nat.toDigits 10 d.digits
  let zeros := (text.reverse.takeWhile (· == '0')).length
  if d.digits = 0 then d else ⟨d.digits / tenTo zeros, d.exponent + zeros⟩

/-- The shortest decimal that rounds to a positive number. Seventeen digits always suffice. -/
def shortest (x : Binary64) : Decimal :=
  let range := roundingRange x
  (searchGrids range (leadingExponent range.value) 17 1).stripped

def writtenOut (e : Int) : Bool := -5 ≤ e && e ≤ 15

def Decimal.text (d : Decimal) : String :=
  let digits := Nat.toDigits 10 d.digits
  let e : Int := (digits.length : Int) - 1 + d.exponent
  String.ofList <|
    if writtenOut e then
      if 0 ≤ d.exponent then digits ++ List.replicate d.exponent.toNat '0' ++ ['.', '0']
      else if 0 ≤ e then digits.take (e.toNat + 1) ++ '.' :: digits.drop (e.toNat + 1)
      else ['0', '.'] ++ List.replicate ((-e).toNat - 1) '0' ++ digits
    else
      let fraction := if digits.length = 1 then [] else '.' :: digits.drop 1
      let sign := if 0 ≤ e then '+' else '-'
      digits.take 1 ++ fraction ++ ['e', sign] ++ Nat.toDigits 10 e.natAbs

def floatText (x : Binary64) : String :=
  (if x.negative then "-" else "") ++ (if x.isZero then "0.0" else (shortest x).text)

end LiveList.Number
