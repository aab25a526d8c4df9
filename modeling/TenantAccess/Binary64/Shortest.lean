import TenantAccess.Binary64.Basic

/-!
# The shortest digits of a binary64 number

Every number stands for the reals that round to it.  Of the decimals among these it is written as
one with the fewest digits, and of several as the nearest.
-/

namespace TenantAccess

/-- The number `digits * 10 ^ exponent`. -/
structure Decimal where
  digits : Nat
  exponent : Int

namespace Decimal

/-- Leave out zeros at the end. -/
def trim (d : Decimal) : (fuel : Nat) → Decimal
  | 0 => d
  | fuel + 1 =>
    if d.digits ≠ 0 ∧ d.digits % 10 = 0 then trim ⟨d.digits / 10, d.exponent + 1⟩ fuel else d

def digitList (d : Decimal) : List Char := Nat.toDigits 10 d.digits

/-- How many digits stand before the point. -/
def magnitude (d : Decimal) : Int := d.digitList.length + d.exponent

/-- The digits with a point where one is needed, and no power of ten. -/
def positional (d : Decimal) : List Char :=
  let ds := d.digitList
  if 0 ≤ d.exponent then ds ++ List.replicate d.exponent.toNat '0'
  else
    let places := (-d.exponent).toNat
    let ds := List.replicate (places + 1 - ds.length) '0' ++ ds
    ds.take (ds.length - places) ++ '.' :: ds.drop (ds.length - places)

/-- One digit before the point, and a power of ten with its sign. -/
def scientific (d : Decimal) : List Char :=
  let power := d.magnitude - 1
  let digits := match d.digitList with
    | first :: second :: rest => first :: '.' :: second :: rest
    | ds => ds
  digits ++ 'e' :: (if power < 0 then '-' else '+') :: Nat.toDigits 10 power.natAbs

end Decimal

namespace Binary64

/-- The reals that round to a number, as numerators over one denominator. -/
structure Neighbourhood where
  low : Nat
  value : Nat
  high : Nat
  den : Nat
  /-- Whether the ends round to the number as well. -/
  closed : Bool

/-- What rounds to `significand * 2 ^ exponent`: half a step up, and half a step down, where the
step below a power of two is half as long. -/
def neighbourhood (significand : Nat) (exponent : Int) : Neighbourhood :=
  let isPower := significand = 0x10000000000000 && -1074 < exponent
  let (unit, den) := descale 1 1 (-(exponent - 2))
  { low := (4 * significand - if isPower then 1 else 2) * unit
    value := 4 * significand * unit
    high := (4 * significand + 2) * unit
    den
    closed := significand % 2 = 0 }

namespace Neighbourhood

def contains (h : Neighbourhood) (num den : Nat) : Bool :=
  let lhs := num * h.den
  if h.closed then h.low * den ≤ lhs && lhs ≤ h.high * den
  else h.low * den < lhs && lhs < h.high * den

/-- A multiple of `10 ^ exponent` that rounds to the number, if the two nearest hold one. -/
def onGrid? (h : Neighbourhood) (exponent : Int) : Option Decimal :=
  let (unit, den) :=
    if 0 ≤ exponent then (Nat.pow 10 exponent.toNat, 1) else (1, Nat.pow 10 (-exponent).toNat)
  let below := h.value * den / (unit * h.den)
  let rest := h.value * den - below * unit * h.den
  let holds (k : Nat) := k ≠ 0 && h.contains (k * unit) den
  match holds below, holds (below + 1) with
  | true, true => some ⟨if 2 * rest ≤ unit * h.den then below else below + 1, exponent⟩
  | true, false => some ⟨below, exponent⟩
  | false, true => some ⟨below + 1, exponent⟩
  | false, false => none

/-- The first of ever finer grids that holds a decimal for the number. -/
def search (h : Neighbourhood) (exponent : Int) : (fuel : Nat) → Decimal
  | 0 => ⟨0, 0⟩
  | fuel + 1 =>
    match h.onGrid? exponent with
    | some d => d.trim 400
    | none => search h (exponent - 1) fuel

/-- The power of ten of the first digit. -/
def topPower (h : Neighbourhood) : Int :=
  (Nat.toDigits 10 (h.value * Nat.pow 10 350 / h.den)).length - 351

def shortest (h : Neighbourhood) : Decimal := h.search h.topPower 18

end Neighbourhood

/-- The shortest decimal that rounds to a positive number. -/
def shortest (significand : Nat) (exponent : Int) : Decimal :=
  if significand = 0 then ⟨0, 0⟩ else (neighbourhood significand exponent).shortest

def signed (negative : Bool) (cs : List Char) : String :=
  String.ofList (if negative then '-' :: cs else cs)

/-- The text without a power of ten. -/
def plainText : Binary64 → String
  | finite negative m q => signed negative (shortest m q).positional
  | infinite negative => signed negative ['i', 'n', 'f']
  | nan => "NaN"

/-- The text that reads back as a fraction: with a point if the number is neither large nor small,
else with a power of ten. -/
def fractionText : Binary64 → String
  | finite negative m q =>
    let d := shortest m q
    signed negative
      (if -5 < d.magnitude ∧ d.magnitude ≤ 16 then
        d.positional ++ if 0 ≤ d.exponent then ['.', '0'] else []
      else d.scientific)
  | infinite _ | nan => "null"

end Binary64

end TenantAccess
