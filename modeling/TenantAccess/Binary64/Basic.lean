/-!
# Binary64 numbers

A finite number is a significand below `2 ^ 53` times a power of two, which is `2 ^ -1074` at least.
`ofRatio` takes a quotient to the nearest number and a tie to the even significand; what would need
a power above `2 ^ 971` is infinite.
-/

namespace TenantAccess

inductive Binary64 where
  /-- The number `significand * 2 ^ exponent`. -/
  | finite (negative : Bool) (significand : Nat) (exponent : Int)
  | infinite (negative : Bool)
  | nan
deriving DecidableEq, Inhabited

namespace Binary64

def zero (negative : Bool) : Binary64 := finite negative 0 (-1074)

def isZero : Binary64 → Bool
  | finite _ significand _ => significand = 0
  | _ => false

/-- The nearest whole number to `num / den`, and of two that are equally near the even one. -/
def roundDiv (num den : Nat) : Nat :=
  let whole := num / den
  let twice := 2 * (num % den)
  if twice < den ∨ (twice = den ∧ whole % 2 = 0) then whole else whole + 1

/-- The quotient `num / den` divided by `2 ^ exponent`. -/
def descale (num den : Nat) (exponent : Int) : Nat × Nat :=
  if 0 ≤ exponent then (num, den * Nat.pow 2 exponent.toNat)
  else (num * Nat.pow 2 (-exponent).toNat, den)

/-- A significand that may have been rounded up to `2 ^ 53`, times a power of two. -/
def assemble (negative : Bool) (significand : Nat) (exponent : Int) : Binary64 :=
  let (significand, exponent) :=
    if significand = 0x20000000000000 then (0x10000000000000, exponent + 1)
    else (significand, exponent)
  if 971 < exponent then infinite negative else finite negative significand exponent

/-- The nearest number to `num / den`. -/
def ofRatio (negative : Bool) (num den : Nat) : Binary64 :=
  if num = 0 then zero negative
  else
    let top : Int := num.log2 - den.log2
    let (n, d) := descale num den top
    let top := if n < d then top - 1 else top
    let exponent := max (top - 52) (-1074)
    let (n, d) := descale num den exponent
    assemble negative (roundDiv n d) exponent

/-- The nearest number to `mantissa * 10 ^ exponent`. -/
def ofDecimal (negative : Bool) (mantissa : Nat) (exponent : Int) : Binary64 :=
  let magnitude := (Nat.toDigits 10 mantissa).length + exponent
  if mantissa = 0 ∨ magnitude < -330 then zero negative
  else if 310 < magnitude then infinite negative
  else if 0 ≤ exponent then ofRatio negative (mantissa * Nat.pow 10 exponent.toNat) 1
  else ofRatio negative mantissa (Nat.pow 10 (-exponent).toNat)

def ofNat (n : Nat) : Binary64 := ofRatio false n 1

/-- The product of finite numbers; anything else makes no number. -/
def mul : Binary64 → Binary64 → Binary64
  | finite a m p, finite b n q =>
    let (num, den) := descale (m * n) 1 (-(p + q))
    ofRatio (a != b) num den
  | _, _ => nan

/-- The quotient of finite numbers, the second of which is not zero; anything else makes no
number. -/
def div : Binary64 → Binary64 → Binary64
  | finite a m p, finite b n q =>
    if n = 0 then nan
    else
      let (num, den) := descale m n (q - p)
      ofRatio (a != b) num den
  | _, _ => nan

/-- The nearest count below `2 ^ 64`; a half goes up, and what is no number counts as zero. -/
def toCount : Binary64 → Nat
  | finite true _ _ | infinite true | nan => 0
  | infinite false => UInt64.size - 1
  | finite false m q =>
    let (n, d) := descale m 1 (-q)
    min ((2 * n + d) / (2 * d)) (UInt64.size - 1)

end Binary64

end TenantAccess
