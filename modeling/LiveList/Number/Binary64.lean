import LiveList.Number.Power

namespace LiveList

/-- The finite number `± mantissa * 2 ^ exponent`. Normal numbers have `2 ^ 52 ≤ mantissa`, all
others the least exponent. -/
structure Binary64 where
  negative : Bool
  mantissa : Nat
  exponent : Int
deriving DecidableEq, Repr, Inhabited

namespace Binary64

open Number (tenTo twoTo)

def leastExponent : Int := -1074

def greatestExponent : Int := 971

def zero (negative : Bool) : Binary64 := ⟨negative, 0, leastExponent⟩

def isZero (x : Binary64) : Bool := x.mantissa == 0

def same (x y : Binary64) : Bool := x == y || (x.isZero && y.isZero)

def withSign (x : Binary64) (negative : Bool) : Binary64 := { x with negative }

def nearest (num den : Nat) : Nat :=
  let low := num / den
  let rest := num % den
  if 2 * rest < den then low
  else if den < 2 * rest then low + 1
  -- A tie goes to the even neighbour.
  else if low % 2 = 0 then low else low + 1

def scaled (num den : Nat) (e : Int) : Nat × Nat :=
  if 0 ≤ e then (num, den * twoTo e.toNat) else (num * twoTo (-e).toNat, den)

def fittingExponent (num den : Nat) : Int :=
  let e := max ((num.log2 : Int) - den.log2 - 53) leastExponent
  let (n, d) := scaled num den e
  if n / d < twoTo 53 then e else e + 1

def ofRatio (num den : Nat) : Option Binary64 :=
  if num = 0 then some (zero false)
  else
    let e := fittingExponent num den
    let (n, d) := scaled num den e
    let mantissa := nearest n d
    let (mantissa, e) := if mantissa = twoTo 53 then (twoTo 52, e + 1) else (mantissa, e)
    if greatestExponent < e then none else some ⟨false, mantissa, e⟩

def ofNat (n : Nat) : Option Binary64 := ofRatio n 1

def mul (x y : Binary64) : Option Binary64 :=
  let e := x.exponent + y.exponent
  ofRatio (x.mantissa * y.mantissa * twoTo e.toNat) (twoTo (-e).toNat)

def div (x y : Binary64) : Option Binary64 :=
  let e := x.exponent - y.exponent
  ofRatio (x.mantissa * twoTo e.toNat) (y.mantissa * twoTo (-e).toNat)

def powerOfTen (k : Nat) : Option Binary64 := ofNat (tenTo k)

def greatestPower : Nat := 308

end Binary64

end LiveList
