import TenantAccess.Binary64.Basic
import TenantAccess.Text.Character

/-!
# Reading decimal fractions

Digits with a point among, before or behind them, an exponent or none, and a sign or none; the words
for infinity and for no number are read in any case of letters.
-/

namespace TenantAccess.Binary64

/-- The sign, and what follows it. -/
def splitSign : List Char → Bool × List Char
  | '-' :: cs => (true, cs)
  | '+' :: cs => (false, cs)
  | cs => (false, cs)

/-- The power of ten behind the mark of an exponent. -/
def powerOfTen? (cs : List Char) : Option Int :=
  let (negative, ds) := splitSign cs
  if ds.isEmpty || !ds.all Char.isDigit then none
  else some (if negative then -natOfDigits ds else natOfDigits ds)

def decimalOf? (negative : Bool) (cs : List Char) : Option Binary64 := do
  let whole := cs.takeWhile Char.isDigit
  let rest := cs.drop whole.length
  let (fraction, rest) := match rest with
    | '.' :: rest => (rest.takeWhile Char.isDigit, rest.dropWhile Char.isDigit)
    | rest => ([], rest)
  if whole.isEmpty && fraction.isEmpty then none
  let exponent ← match rest with
    | [] => some 0
    | c :: rest => if c = 'e' ∨ c = 'E' then powerOfTen? rest else none
  some (ofDecimal negative (natOfDigits (whole ++ fraction)) (exponent - fraction.length))

/-- The number nearest to what a text writes. -/
def ofText? (s : String) : Option Binary64 :=
  let (negative, cs) := splitSign s.toList
  match decimalOf? negative cs with
  | some x => some x
  | none =>
    let word := (String.ofList cs).toLower
    if word = "inf" ∨ word = "infinity" then some (infinite negative)
    else if word = "nan" then some nan
    else none

def isFinite : Binary64 → Bool
  | finite _ _ _ => true
  | infinite _ | nan => false

end TenantAccess.Binary64
