import LiveList.OrderedMap
import LiveList.Number.Binary64

namespace LiveList.Json

/-- A JSON number: an integer, or a binary number for all that is written with a point or an
exponent or that lies outside the integers of 64 bits. -/
inductive Number where
  | int (value : Int)
  | float (value : Binary64)
deriving DecidableEq, Repr, Inhabited

inductive Value where
  | null
  | bool (value : Bool)
  | number (value : Number)
  | string (value : String)
  | array (items : List Value)
  | object (fields : List (String × Value))
deriving Repr, Inhabited

abbrev Fields := OrderedMap String Value

def Number.same : Number → Number → Bool
  | .int x, .int y => x == y
  | .float x, .float y => x.same y
  | _, _ => false

namespace Value

mutual

def same : Value → Value → Bool
  | .null, .null => true
  | .bool x, .bool y => x == y
  | .number x, .number y => x.same y
  | .string x, .string y => x == y
  | .array xs, .array ys => sameItems xs ys
  | .object xs, .object ys => xs.length == ys.length && sameFields xs ys
  | _, _ => false

def sameItems : List Value → List Value → Bool
  | [], [] => true
  | x :: xs, y :: ys => same x y && sameItems xs ys
  | _, _ => false

def sameFields : List (String × Value) → Fields → Bool
  | [], _ => true
  | (key, x) :: rest, ys =>
    (match OrderedMap.get? ys key with
      | some y => same x y
      | none => false) && sameFields rest ys

end

def ofInt (n : Int) : Value := .number (.int n)

def ofNat (n : Nat) : Value := .number (.int n)

def string? : Value → Option String
  | .string s => some s
  | _ => none

def int64? : Value → Option Int
  | .number (.int n) => if n < (LiveList.Number.twoTo 63 : Int) then some n else none
  | _ => none

def nat? : Value → Option Nat
  | .number (.int n) => if 0 ≤ n then some n.toNat else none
  | _ => none

def field? : Value → String → Option Value
  | .object fields, key => OrderedMap.get? fields key
  | _, _ => none

def isNull : Value → Bool
  | .null => true
  | _ => false

/-- What counts as true: all but `null`, `false`, zero and the empty string. -/
def isTruthy : Value → Bool
  | .null => false
  | .bool b => b
  | .number (.int n) => n != 0
  | .number (.float x) => !x.isZero
  | .string s => s != ""
  | .array _ => true
  | .object _ => true

end Value

end LiveList.Json
