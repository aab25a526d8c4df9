import TenantAccess.Json.Decode
import TenantAccess.Json.Number

/-!
# Scalars that stand for one another

In settings a number may be written as a text and the other way round, and words stand for truth
values.
-/

namespace TenantAccess.Json

/-- A whole number that needs more than 63 bits counts as a fraction. -/
def settle : Json → Json
  | int n => if n < wordHalf then int n else real (.ofNat n.toNat)
  | j => j

/-- The text of a scalar other than `null`. -/
def lenientText (j : Json) : Option String :=
  match settle j with
  | str s => some s
  | bool b => some (if b then "true" else "false")
  | int n => some (toString n)
  | real x => some x.plainText
  | null | arr _ | obj _ => none

def yesWords : List String := ["true", "on", "yes"]

def noWords : List String := ["false", "off", "no"]

def lenientFlag : Json → Option Bool
  | bool b => some b
  | int n => some (n ≠ 0)
  | real x => some !x.isZero
  | str s =>
    let s := s.toLower
    if s = "1" ∨ s ∈ yesWords then some true
    else if s = "0" ∨ s ∈ noWords then some false
    else none
  | null | arr _ | obj _ => none

/-- A count in digits, with a plus sign in front or not. -/
def countOfText? (s : String) : Option Nat :=
  let ds := match s.toList with
    | '+' :: ds => ds
    | ds => ds
  if ds.isEmpty || !ds.all Char.isDigit then none
  else
    let n := natOfDigits ds
    if n < UInt64.size then some n else none

def lenientCount (j : Json) : Option Nat :=
  match settle j with
  | bool b => some (if b then 1 else 0)
  | int n => if 0 ≤ n then some n.toNat else none
  | real x => some x.toCount
  | str s =>
    let word := s.toLower
    if word ∈ yesWords then some 1
    else if word ∈ noWords then some 0
    else countOfText? s
  | null | arr _ | obj _ => none

/-- The name of a case, in any case of letters. -/
def lenientCaseName : Json → Option String
  | str s => some s.toLower
  | obj [(s, _)] => some s.toLower
  | _ => none

/-- The members of a record: those of an object, or the leading members in order, and what comes
after them does not count. -/
def lenientRecord (names : List String) : Json → Option (List (String × Json))
  | arr elems => some (names.zip elems)
  | j => members? j

/-- The dialect of settings. -/
def lenient : Dialect Json :=
  { strict with
    text := lenientText
    flag := lenientFlag
    count := lenientCount
    record := lenientRecord
    caseName := lenientCaseName }

end TenantAccess.Json
