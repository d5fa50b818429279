import LiveList.Json.Basic
import LiveList.Text.Scan

namespace LiveList.Json

def thisPath : String := "this"

def position? (text : String) : Option Nat :=
  let digits := match text.toList with
    | '+' :: rest => rest
    | digits => digits
  if digits.isEmpty || !digits.all Text.isDigit then none
  else some (digits.foldl (fun n c => 10 * n + (c.toNat - '0'.toNat)) 0)

namespace Value

def child? : Value → String → Option Value
  | .object fields, segment => OrderedMap.get? fields segment
  | .array items, segment => (position? segment).bind (items[·]?)
  | _, _ => none

/-- Follows segments strictly: fails where a value to step into is missing or `null`. A missing
last part is no failure. -/
def resolve : Option Value → List String → Option (Option Value)
  | current, [] => some current
  | none, _ :: _ => none
  | some value, segment :: rest =>
    if value.isNull then none else resolve (value.child? segment) rest

def descend : Value → List String → Option Value
  | value, [] => some value
  | value, segment :: rest => (value.child? segment).bind (descend · rest)

def segmentsOf (path : List Char) : List String :=
  (Text.pieces '.' path).map fun piece => String.ofList (Text.trim piece)

def lookup (context : Value) (path : String) : Option Value :=
  let path := Text.trim path.toList
  if path = thisPath.toList then some context else context.descend (segmentsOf path)

def fieldIsTruthy (context : Value) (path : String) : Bool :=
  match context.lookup path with
  | some value => value.isTruthy
  | none => false

end Value

end LiveList.Json
