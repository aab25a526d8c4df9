import TenantAccess.Text.Character
import TenantAccess.Time.Duration

/-!
# Reading spans of time

A span is written as numbers with units, `1h 30min` or `1.5s`; white space may stand around
numbers and units, and inside numbers.  All arithmetic is on 64-bit counts: a number, a product, a
sum or a part that does not fit is refused.
-/

namespace TenantAccess.Duration

inductive TimeUnit where
  | nanosecond | microsecond | millisecond | second | minute | hour | day | week | month | year
deriving DecidableEq

namespace TimeUnit

def ofName? (s : String) : Option TimeUnit :=
  if s ∈ ["nanos", "nsec", "ns"] then some nanosecond
  else if s ∈ ["usec", "us", "µs"] then some microsecond
  else if s ∈ ["millis", "msec", "ms"] then some millisecond
  else if s ∈ ["seconds", "second", "secs", "sec", "s"] then some second
  else if s ∈ ["minutes", "minute", "min", "mins", "m"] then some minute
  else if s ∈ ["hours", "hour", "hrs", "hr", "h"] then some hour
  else if s ∈ ["days", "day", "d"] then some day
  else if s ∈ ["weeks", "week", "wks", "wk", "w"] then some week
  else if s ∈ ["months", "month", "M"] then some month
  else if s ∈ ["years", "year", "yrs", "yr", "y"] then some year
  else none

/-- Nanoseconds of a unit shorter than a second. -/
def nanoseconds : TimeUnit → Nat
  | nanosecond => 1
  | microsecond => 1_000
  | millisecond => 1_000_000
  | _ => 0

/-- Seconds of a unit that is not shorter than a second. -/
def seconds : TimeUnit → Nat
  | second => 1
  | minute => 60
  | hour => 3600
  | day => 86400
  | week => 604800
  | month => 2630016
  | year => 31557600
  | _ => 0

/-- How many parts a fraction of the unit counts: nanoseconds, or seconds if the unit is longer than
a minute. -/
def fractionScale : TimeUnit → Nat × Bool
  | nanosecond => (0, true)
  | microsecond => (1_000, true)
  | millisecond => (1_000_000, true)
  | second => (1_000_000_000, true)
  | minute => (60_000_000_000, true)
  | u => (u.seconds, false)

end TimeUnit

/-- A fraction under construction. -/
structure Fraction where
  numerator : Nat
  denominator : Nat

def word? (n : Nat) : Option Nat := if n < UInt64.size then some n else none

/-- Add seconds and nanoseconds to a span. -/
def extend? (d : Duration) (s n : Nat) : Option Duration := do
  let n ← word? (d.subsecond + n)
  let s ← word? (s + n / 1_000_000_000)
  ofParts? (← word? (d.seconds + s)) (n % 1_000_000_000)

/-- Add `n` and a fraction of the unit named `u`. -/
def addUnits? (d : Duration) (n : Nat) (f : Option Fraction) (u : String) : Option Duration := do
  let u ← TimeUnit.ofName? u
  let d ← extend? d (← word? (n * u.seconds)) (← word? (n * u.nanoseconds))
  match f with
  | none => some d
  | some f =>
    let (scale, inNanoseconds) := u.fractionScale
    if scale = 0 then none
    let product ← word? (f.numerator * scale)
    if product % f.denominator ≠ 0 then none
    let part := product / f.denominator
    if inNanoseconds then extend? d 0 part else extend? d part 0

/-- Where the reader stands: the span so far, and the number and unit that are being read. -/
inductive Mode where
  | blank (seen : Bool)
  | whole (n : Nat)
  | fraction (n : Nat) (f : Fraction)
  | unit (n : Nat) (f : Option Fraction) (name : List Char)

structure Reader where
  total : Duration
  mode : Mode

namespace Reader

def isUnitLetter (c : Char) : Bool := c.isAlpha || c = 'µ'

def digit (c : Char) : Nat := c.toNat - '0'.toNat

def feed (r : Reader) (c : Char) : Option Reader :=
  match r.mode with
  | .blank seen =>
    if c.isDigit then some { r with mode := .whole (digit c) }
    else if isBlank c then some { r with mode := .blank seen }
    else none
  | .whole n =>
    if c.isDigit then do some { r with mode := .whole (← word? (n * 10 + digit c)) }
    else if isBlank c then some r
    else if isUnitLetter c then some { r with mode := .unit n none [c] }
    else if c = '.' then some { r with mode := .fraction n ⟨0, 1⟩ }
    else none
  | .fraction n f =>
    if c.isDigit then do
      let f : Fraction := ⟨← word? (f.numerator * 10 + digit c), ← word? (f.denominator * 10)⟩
      some { r with mode := .fraction n f }
    else if isBlank c then some r
    else if isUnitLetter c ∧ f.denominator ≠ 1 then some { r with mode := .unit n (some f) [c] }
    else none
  | .unit n f name =>
    if isUnitLetter c then some { r with mode := .unit n f (c :: name) }
    else if c.isDigit ∨ isBlank c then do
      let total ← addUnits? r.total n f (String.ofList name.reverse)
      some ⟨total, if c.isDigit then .whole (digit c) else .blank true⟩
    else none

def finish (r : Reader) : Option Duration :=
  match r.mode with
  | .blank true => some r.total
  | .unit n f name => addUnits? r.total n f (String.ofList name.reverse)
  | _ => none

end Reader

/-- The lone text `0` needs no unit. -/
def ofText? (s : String) : Option Duration := do
  if s = "0" then some zero
  else (← s.toList.foldlM Reader.feed ⟨zero, .blank false⟩).finish

end TenantAccess.Duration
