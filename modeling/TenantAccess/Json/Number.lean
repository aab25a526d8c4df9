import TenantAccess.Json.Basic
import TenantAccess.Text.Character

/-!
# Numbers in JSON text

A whole number that fits into 64 bits is kept as it is.  Of any other the digits that fit into 64
bits are rounded, and then multiplied or divided by a rounded power of ten, so that its last place
may be off by one.
-/

namespace TenantAccess.Json

/-- Half the numbers of 64 bits: those below it have a signed form. -/
def wordHalf : Nat := UInt64.size / 2

/-- Digits that were taken up, and the power of ten that is due to them. -/
structure Significand where
  digits : Nat := 0
  exponent : Int := 0
  /-- Whether a digit did not fit any more. -/
  full : Bool := false

namespace Significand

/-- Take up a digit.  Each that is taken up lowers the power of ten by `taken`, and each that is not
raises it by `left`. -/
def add (taken left : Int) (s : Significand) (c : Char) : Significand :=
  let digits := s.digits * 10 + (c.toNat - '0'.toNat)
  if !s.full ∧ digits < UInt64.size then { s with digits, exponent := s.exponent - taken }
  else { s with exponent := s.exponent + left, full := true }

/-- The digits before a point and those behind it.  What does not fit before the point still counts
as a place; behind it digits are taken up again until one does not fit. -/
def ofDigits (whole fraction : List Char) : Significand :=
  fraction.foldl (add 1 0) { whole.foldl (add 0 1) {} with full := false }

end Significand

/-- Scale by a power of ten, by `10 ^ 308` at most in one step; `none` if that leads to infinity. -/
def scale? (x : Binary64) (exponent : Int) : (fuel : Nat) → Option Binary64
  | 0 => some x
  | fuel + 1 =>
    if x.isZero then some x
    else if 308 < exponent then none
    else if 0 ≤ exponent then
      match x.mul (Binary64.ofDecimal false 1 exponent) with
      | .infinite _ => none
      | y => some y
    else if -308 ≤ exponent then some (x.div (Binary64.ofDecimal false 1 (-exponent)))
    else scale? (x.div (Binary64.ofDecimal false 1 308)) (exponent + 308) fuel

/-- Digits that do not start with a superfluous zero. -/
def isWhole : List Char → Bool
  | [] => false
  | ['0'] => true
  | '0' :: _ => false
  | _ => true

/-- The fraction of a number and the rest; `none` if a point is not followed by digits. -/
def splitFraction : List Char → Option (List Char × List Char)
  | '.' :: rest =>
    let digits := rest.takeWhile Char.isDigit
    if digits.isEmpty then none else some (digits, rest.dropWhile Char.isDigit)
  | rest => some ([], rest)

def exponent? : List Char → Option Int
  | [] => none
  | c :: rest =>
    if c = 'e' ∨ c = 'E' then
      let (negative, digits) :=
        match rest with
        | '+' :: ds => (false, ds)
        | '-' :: ds => (true, ds)
        | ds => (false, ds)
      if digits.isEmpty || !digits.all Char.isDigit then none
      else some (if negative then -natOfDigits digits else natOfDigits digits)
    else none

/-- What a number is written with. -/
structure Numeral where
  negative : Bool
  whole : List Char
  fraction : List Char
  exponent : Int
  /-- Whether it has neither a fraction nor an exponent. -/
  isWhole : Bool

def numeral? (cs : List Char) : Option Numeral := do
  let (negative, cs) := match cs with
    | '-' :: cs => (true, cs)
    | cs => (false, cs)
  let whole := cs.takeWhile Char.isDigit
  if !isWhole whole then none
  let (fraction, rest) ← splitFraction (cs.dropWhile Char.isDigit)
  let exponent ← if rest.isEmpty then some 0 else exponent? rest
  some ⟨negative, whole, fraction, exponent, fraction.isEmpty && rest.isEmpty⟩

namespace Numeral

/-- A negative zero is no whole number. -/
def value? (n : Numeral) : Option Json :=
  let s := Significand.ofDigits n.whole n.fraction
  let fits := !s.full && if n.negative then s.digits ≠ 0 && s.digits ≤ wordHalf else true
  if n.isWhole && s.exponent = 0 && fits then
    some (.int (if n.negative then -s.digits else s.digits))
  else
    (scale? (.ofRatio n.negative s.digits 1) (s.exponent + n.exponent) 5).map .real

end Numeral

def number? (cs : List Char) : Option Json := (numeral? cs).bind (·.value?)

end TenantAccess.Json
