import TenantAccess.Binary64.Reader

/-!
# What plain words mean

In version 1.1 a plain word is null, a truth value or a number if it reads as one, and else a text.
-/

namespace TenantAccess.Yaml

def nullWords : List String := ["~", "null", "Null", "NULL"]

def truthOf? (s : String) : Option Bool :=
  if s ∈ ["true", "True", "TRUE"] then some true
  else if s ∈ ["false", "False", "FALSE"] then some false
  else none

/-- Digits behind a sign or none, of which there are several and the first is zero. -/
def hasLeadingZero (s : String) : Bool :=
  match (Binary64.splitSign s.toList).2 with
  | '0' :: c :: rest => (c :: rest).all Char.isDigit
  | _ => false

/-- A number without a sign, in base ten or in another one that is marked. -/
def magnitude? (cs : List Char) : Option Nat :=
  match cs with
  | '0' :: 'x' :: ds => natOfDigits? 16 ds
  | '0' :: 'o' :: ds => natOfDigits? 8 ds
  | '0' :: 'b' :: ds => natOfDigits? 2 ds
  | ds => natOfDigits? 10 ds

/-- A number from zero to `limit`, or from its opposite on if there is a minus sign. -/
def whole? (limit : Bool → Nat) (s : String) : Option Int := do
  if hasLeadingZero s then none
  let (negative, cs) := Binary64.splitSign s.toList
  let n ← magnitude? cs
  if n ≤ limit negative then some (if negative then -n else n) else none

/-- A count below `2 ^ 64`. -/
def countOf? (s : String) : Option Nat :=
  (whole? (fun negative ↦ if negative then 0 else UInt64.size - 1) s).bind fun n ↦
    if s.toList.head? = some '-' then none else some n.toNat

/-- The greatest magnitude of a number with 128 bits. -/
def wideLimit (negative : Bool) : Nat :=
  let half := UInt64.size * (UInt64.size / 2)
  if negative then half else 2 * half - 1

/-- Infinity, or no number. -/
def isSpecialNumber (s : String) : Bool :=
  s ∈ [".inf", ".Inf", ".INF", "+.inf", "+.Inf", "+.INF", "-.inf", "-.Inf", "-.INF", ".nan", ".NaN",
    ".NAN"]

/-- Whether a plain word means something else than the text that it is. -/
def isSpecial (s : String) : Bool :=
  s = "" || s ∈ nullWords || (truthOf? s).isSome || hasLeadingZero s ||
    (whole? wideLimit s).isSome || isSpecialNumber s || ((Binary64.ofText? s).any (·.isFinite))

end TenantAccess.Yaml
