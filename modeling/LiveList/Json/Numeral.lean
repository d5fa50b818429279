import LiveList.Json.Basic
import LiveList.Text.Scan

/-!
# JSON numerals

Reads the text of a number. Integers of 64 bits are read exactly. All other numerals are read as a
significand of at most 64 bits and a power of ten: the significand is rounded to a binary number,
which is then multiplied or divided by the rounded power, so the result may differ from the nearest
number in its last bits. Digits that no longer fit into the significand count as powers of ten
before the point and are dropped behind it.
-/

namespace LiveList.Json.Numeral

def greatestSignificand : Nat := LiveList.Number.twoTo 64 - 1

def greatestExponent : Nat := LiveList.Number.twoTo 31 - 1

structure Digits where
  significand : Nat
  taken : Nat
  rest : List Char

def takeDigits (limit : Nat) : (significand taken : Nat) → List Char → Digits
  | significand, taken, [] => ⟨significand, taken, []⟩
  | significand, taken, c :: rest =>
    if Text.isDigit c then
      let next := significand * 10 + (c.toNat - '0'.toNat)
      if next ≤ limit then takeDigits limit next (taken + 1) rest
      else ⟨significand, taken, c :: rest⟩
    else ⟨significand, taken, c :: rest⟩

def startsWithDigit : List Char → Bool
  | c :: _ => Text.isDigit c
  | [] => false

def startsWithExponent : List Char → Bool
  | c :: _ => c == 'e' || c == 'E'
  | [] => false

/-- Divides by the greatest power of ten until the exponent that is left has a power of its own or
nothing is left of the number. Three rounds suffice for every significand. -/
def divideDown (x : Binary64) (exponent : Nat) : (rounds : Nat) → Option Binary64
  | 0 => some (Binary64.zero false)
  | rounds + 1 =>
    if exponent ≤ Binary64.greatestPower then do x.div (← Binary64.powerOfTen exponent)
    else if x.isZero then some x
    else do
      let smaller ← x.div (← Binary64.powerOfTen Binary64.greatestPower)
      divideDown smaller (exponent - Binary64.greatestPower) rounds

def compose (negative : Bool) (significand : Nat) (exponent : Int) : Option Number := do
  let x ← Binary64.ofNat significand
  let y ← if exponent < 0 then divideDown x (-exponent).toNat 4
    else if x.isZero then some x
    else if exponent.toNat ≤ Binary64.greatestPower then
      x.mul (← Binary64.powerOfTen exponent.toNat)
    else none
  some (.float (y.withSign negative))

def readExponent (negative : Bool) (significand : Nat) (exponent : Int) (text : List Char) :
    Option (Number × List Char) := do
  let (up, text) := match text with
    | '+' :: rest => (true, rest)
    | '-' :: rest => (false, rest)
    | _ => (true, text)
  let digits := takeDigits greatestExponent 0 0 text
  if startsWithDigit digits.rest then
    if significand ≠ 0 && up then none
    else some (.float (Binary64.zero negative), digits.rest.dropWhile Text.isDigit)
  else if digits.taken = 0 then none
  else
    let written : Int := digits.significand
    let total := exponent + if up then written else -written
    some (← compose negative significand total, digits.rest)

def finish (negative : Bool) (significand : Nat) (exponent : Int) (text : List Char) :
    Option (Number × List Char) :=
  match text with
  | c :: rest =>
    if c == 'e' || c == 'E' then readExponent negative significand exponent rest
    else (compose negative significand exponent).map (·, text)
  | [] => (compose negative significand exponent).map (·, text)

def readFraction (negative : Bool) (significand : Nat) (exponent : Int) (text : List Char) :
    Option (Number × List Char) :=
  let digits := takeDigits greatestSignificand significand 0 text
  let exponent := exponent - digits.taken
  if startsWithDigit digits.rest then
    finish negative digits.significand exponent (digits.rest.dropWhile Text.isDigit)
  else if digits.taken = 0 then none
  else finish negative digits.significand exponent digits.rest

def integer (negative : Bool) (significand : Nat) : Option Number :=
  if negative then
    if significand = 0 || LiveList.Number.twoTo 63 < significand then compose true significand 0
    else some (.int (-significand))
  else some (.int significand)

def readMagnitude (negative : Bool) (text : List Char) : Option (Number × List Char) := do
  let digits ← match text with
    | '0' :: rest => if startsWithDigit rest then none else some ⟨0, 1, rest⟩
    | _ => if startsWithDigit text then some (takeDigits greatestSignificand 0 0 text) else none
  let overflowing := digits.rest.takeWhile Text.isDigit
  let exponent : Int := overflowing.length
  let rest := digits.rest.dropWhile Text.isDigit
  match rest with
  | '.' :: fraction => readFraction negative digits.significand exponent fraction
  | _ =>
    if startsWithExponent rest || !overflowing.isEmpty then
      finish negative digits.significand exponent rest
    else some (← integer negative digits.significand, rest)

def read : List Char → Option (Number × List Char)
  | '-' :: rest => readMagnitude true rest
  | text => readMagnitude false text

end LiveList.Json.Numeral
