import TenantAccess.Text.Character

/-!
# Points in time

A `Timestamp` is a civil date and time of day in UTC, down to nanoseconds.  Its written form is
RFC 3339 with `Z` and the fewest of 0, 3, 6 or 9 fractional digits that are exact.  Reading accepts
any offset, and blanks between the parts.  A second numbered 60 is a leap second.
-/

namespace TenantAccess

def isLeapYear (y : Int) : Bool := y % 4 = 0 && (y % 100 ≠ 0 || y % 400 = 0)

def daysInMonth (y : Int) (m : Nat) : Nat :=
  if m = 2 then if isLeapYear y then 29 else 28
  else if m = 4 ∨ m = 6 ∨ m = 9 ∨ m = 11 then 30
  else 31

theorem daysInMonth_le (y : Int) (m : Nat) : daysInMonth y m ≤ 31 := by
  unfold daysInMonth; grind

/-- The first year that a date can have. -/
def firstYear : Int := -262143

/-- The last year that a date can have. -/
def lastYear : Int := 262142

structure Date where
  year : Int
  month : Nat
  day : Nat
  valid : firstYear ≤ year ∧ year ≤ lastYear ∧ 1 ≤ month ∧ month ≤ 12 ∧ 1 ≤ day ∧
    day ≤ daysInMonth year month
deriving DecidableEq

namespace Date

def of? (year : Int) (month day : Nat) : Option Date :=
  if h : firstYear ≤ year ∧ year ≤ lastYear ∧ 1 ≤ month ∧ month ≤ 12 ∧ 1 ≤ day ∧
      day ≤ daysInMonth year month then
    some ⟨year, month, day, h⟩
  else none

def next? (d : Date) : Option Date :=
  if d.day < daysInMonth d.year d.month then of? d.year d.month (d.day + 1)
  else if d.month < 12 then of? d.year (d.month + 1) 1
  else of? (d.year + 1) 1 1

def previous? (d : Date) : Option Date :=
  if 1 < d.day then of? d.year d.month (d.day - 1)
  else if 1 < d.month then of? d.year (d.month - 1) (daysInMonth d.year (d.month - 1))
  else of? (d.year - 1) 12 31

end Date

structure Timestamp where
  date : Date
  hour : Nat
  minute : Nat
  second : Nat
  nanosecond : Nat
  valid : hour < 24 ∧ minute < 60 ∧ second ≤ 60 ∧ nanosecond < 1_000_000_000
deriving DecidableEq

namespace Timestamp

/-! ## Writing -/

/-- The digits of `n`, with zeros in front up to `width`. -/
def padded (width n : Nat) : List Char :=
  let ds := Nat.toDigits 10 n
  List.replicate (width - ds.length) '0' ++ ds

/-- Four digits; a year outside 0 to 9999 carries a sign. -/
def yearText (y : Int) : List Char :=
  if y < 0 then '-' :: padded 4 y.natAbs
  else if 9999 < y then '+' :: padded 4 y.natAbs
  else padded 4 y.natAbs

def fractionText (n : Nat) : List Char :=
  if n = 0 then []
  else if n % 1000000 = 0 then '.' :: padded 3 (n / 1000000)
  else if n % 1000 = 0 then '.' :: padded 6 (n / 1000)
  else '.' :: padded 9 n

def chars (t : Timestamp) : List Char :=
  yearText t.date.year ++ '-' :: padded 2 t.date.month ++ '-' :: padded 2 t.date.day ++
    'T' :: padded 2 t.hour ++ ':' :: padded 2 t.minute ++ ':' :: padded 2 t.second ++
    fractionText t.nanosecond ++ ['Z']

def text (t : Timestamp) : String := String.ofList t.chars

/-! ## Reading -/

def skip (cs : List Char) : List Char := cs.dropWhile isBlank

def number (ds : List Char) : Nat := ds.foldl (fun n c ↦ n * 10 + (c.toNat - '0'.toNat)) 0

/-- A number behind blanks, of one digit at least and `most` at most. -/
def count? (most : Nat) (cs : List Char) : Option (Nat × List Char) :=
  let cs := skip cs
  let ds := (cs.take most).takeWhile Char.isDigit
  if ds.isEmpty then none else some (number ds, cs.drop ds.length)

/-- A number of one digit at least. -/
def digits? (cs : List Char) : Option (Nat × List Char) :=
  let ds := cs.takeWhile Char.isDigit
  if ds.isEmpty then none else some (number ds, cs.drop ds.length)

/-- A year behind blanks has four digits at most, or any number of them behind a sign. -/
def year? (cs : List Char) : Option (Int × List Char) :=
  match skip cs with
  | '-' :: cs => (digits? cs).map fun (n, r) ↦ (-(n : Int), r)
  | '+' :: cs => (digits? cs).map fun (n, r) ↦ ((n : Int), r)
  | cs => (count? 4 cs).map fun (n, r) ↦ ((n : Int), r)

def char? (p : Char → Bool) : List Char → Option (List Char)
  | c :: rest => if p c then some rest else none
  | [] => none

/-- Digits past the ninth are dropped. -/
def fraction? : List Char → Option (Nat × List Char)
  | '.' :: cs =>
    let ds := cs.takeWhile Char.isDigit
    if ds.isEmpty then none
    else
      let kept := ds.take 9
      some (number kept * Nat.pow 10 (9 - kept.length), cs.dropWhile Char.isDigit)
  | cs => some (0, cs)

/-- Hours and minutes of an offset, between which colons and blanks may stand. -/
def offsetMinutes? : List Char → Option (Nat × List Char)
  | a :: b :: cs =>
    match cs.dropWhile fun c ↦ c = ':' || isBlank c with
    | c :: d :: rest =>
      if [a, b, c, d].all Char.isDigit && number [c, d] < 60 then
        some (number [a, b] * 60 + number [c, d], rest)
      else none
    | _ => none
  | _ => none

/-- Minutes east of UTC. -/
def offset? : List Char → Option (Int × List Char)
  | '+' :: cs => (offsetMinutes? cs).map fun (n, r) ↦ ((n : Int), r)
  | '-' :: cs | '\u2212' :: cs => (offsetMinutes? cs).map fun (n, r) ↦ (-(n : Int), r)
  | cs =>
    if ((cs.take 3).map Char.toUpper) = ['U', 'T', 'C'] then some (0, cs.drop 3)
    else (char? (fun c ↦ c = 'Z' || c = 'z') cs).map (0, ·)

/-- The point in time that stands on the clocks at an offset of less than a day. -/
def ofParts? (date : Date) (h mi s n : Nat) (offset : Int) : Option Timestamp := do
  if ht : h < 24 ∧ mi < 60 ∧ s ≤ 60 ∧ n < 1_000_000_000 then
    if offset.natAbs < 1440 then
      let minutes : Int := h * 60 + mi - offset
      let date ←
        if minutes < 0 then date.previous? else if 1440 ≤ minutes then date.next? else some date
      let ofDay := (minutes % 1440).toNat
      some ⟨date, ofDay / 60, ofDay % 60, s, n, by omega⟩
    else none
  else none

def ofChars? (cs : List Char) : Option Timestamp := do
  let (y, cs) ← year? cs
  let cs ← char? (· = '-') (skip cs)
  let (mo, cs) ← count? 2 cs
  let cs ← char? (· = '-') (skip cs)
  let (d, cs) ← count? 2 cs
  let cs ← char? (fun c ↦ c = 'T' || c = 't' || c = ' ') cs
  let (h, cs) ← count? 2 cs
  let cs ← char? (· = ':') (skip cs)
  let (mi, cs) ← count? 2 cs
  let cs ← char? (· = ':') (skip cs)
  let (s, cs) ← count? 2 cs
  let (n, cs) ← fraction? cs
  let (offset, cs) ← offset? (skip cs)
  if (skip cs).isEmpty then ofParts? (← Date.of? y mo d) h mi s n offset else none

def ofString? (s : String) : Option Timestamp := ofChars? s.toList

end Timestamp

end TenantAccess
