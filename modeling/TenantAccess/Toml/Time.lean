import TenantAccess.Time.Timestamp

/-!
# Dates and times in TOML

A date, a time of the day, or both with an offset or none.  The text of one always has `T` between
date and time, nine places of a second at most and none that is a superfluous zero.
-/

namespace TenantAccess.Toml

def isNumeral (cs : List Char) : Bool := !cs.isEmpty && cs.all Char.isDigit

def numeral (cs : List Char) : Nat := cs.foldl (fun n c ↦ n * 10 + (c.toNat - '0'.toNat)) 0

/-- Two digits that write a number up to `most`. -/
def isPair (most : Nat) (a b : Char) : Bool :=
  isNumeral [a, b] && numeral [a, b] ≤ most

def isDate : List Char → Bool
  | [a, b, c, d, '-', e, f, '-', g, h] =>
    isNumeral [a, b, c, d] && isPair 12 e f && isPair 31 g h && numeral [e, f] ≠ 0 &&
      numeral [g, h] ≠ 0 && numeral [g, h] ≤ daysInMonth (numeral [a, b, c, d]) (numeral [e, f])
  | _ => false

/-- The text of an offset from universal time. -/
def offsetText? : List Char → Option (List Char)
  | [] => some []
  | ['Z'] | ['z'] => some ['Z']
  | [sign, a, b, ':', c, d] =>
    if (sign = '+' ∨ sign = '-') ∧ isPair 23 a b ∧ isPair 59 c d then
      some ((if numeral [a, b, c, d] = 0 then '+' else sign) :: [a, b, ':', c, d])
    else none
  | _ => none

/-- The text of the places of a second. -/
def placesText (cs : List Char) : List Char :=
  let places := ((cs.take 9).reverse.dropWhile (· = '0')).reverse
  if places.isEmpty then [] else '.' :: places

/-- The text of a time of the day; an offset may follow where `zoned` holds. -/
def timeText? (zoned : Bool) : List Char → Option (List Char)
  | a :: b :: ':' :: c :: d :: ':' :: e :: f :: rest => do
    if !(isPair 23 a b && isPair 59 c d && isPair 60 e f) then none
    let (places, rest) ← match rest with
      | '.' :: rest =>
        let places := rest.takeWhile Char.isDigit
        if places.isEmpty then none else some (placesText places, rest.dropWhile Char.isDigit)
      | rest => some ([], rest)
    if !zoned && !rest.isEmpty then none
    some (a :: b :: ':' :: c :: d :: ':' :: e :: f :: (places ++ (← offsetText? rest)))
  | _ => none

/-- The text of a date or a time, alone or with the time behind a date. -/
def momentText? (cs : List Char) : Option String :=
  match cs.drop 10 with
  | [] => if isDate cs then some (String.ofList cs) else (timeText? false cs).map String.ofList
  | c :: time =>
    if isDate (cs.take 10) then
      if c = 'T' ∨ c = 't' ∨ c = ' ' then
        (timeText? true time).map fun time ↦ String.ofList (cs.take 10 ++ 'T' :: time)
      else none
    else (timeText? false cs).map String.ofList

end TenantAccess.Toml
