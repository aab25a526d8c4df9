/-!
# Spans of time

A `Duration` is a whole number of nanoseconds whose seconds fit in 64 bits.  `ofText?` reads the
written form of settings (`2h 30min`), `text` writes the form used in messages (`1.5s`).
-/

namespace TenantAccess

structure Duration where
  nanoseconds : Nat
  bounded : nanoseconds < UInt64.size * 1_000_000_000
deriving DecidableEq

namespace Duration

/-- The longest span in nanoseconds. -/
def longest : Nat := UInt64.size * 1_000_000_000 - 1

theorem min_longest_lt (n : Nat) : min n longest < UInt64.size * 1_000_000_000 :=
  Nat.lt_of_le_of_lt (Nat.min_le_right n longest) (by decide)

def zero : Duration := ⟨0, by decide⟩

instance : Inhabited Duration := ⟨zero⟩

/-- The span of `n` nanoseconds, if it is short enough. -/
def ofNanoseconds? (n : Nat) : Option Duration :=
  if h : n < UInt64.size * 1_000_000_000 then some ⟨n, h⟩ else none

def ofParts? (seconds nanoseconds : Nat) : Option Duration :=
  ofNanoseconds? (seconds * 1_000_000_000 + nanoseconds)

/-- `n` seconds, cut off at the longest span. -/
def ofSeconds (n : Nat) : Duration := ⟨min (n * 1_000_000_000) longest, min_longest_lt _⟩

/-- `n` milliseconds, cut off at the longest span. -/
def ofMilliseconds (n : Nat) : Duration := ⟨min (n * 1_000_000) longest, min_longest_lt _⟩

def seconds (d : Duration) : Nat := d.nanoseconds / 1_000_000_000

def subsecond (d : Duration) : Nat := d.nanoseconds % 1_000_000_000

/-- Whole milliseconds, rounded up. -/
def milliseconds (d : Duration) : Nat := (d.nanoseconds + 999_999) / 1_000_000

/-- `none` if the product is too long. -/
def scale? (d : Duration) (n : Nat) : Option Duration := ofNanoseconds? (d.nanoseconds * n)

instance : Min Duration := ⟨fun a b ↦ if a.nanoseconds ≤ b.nanoseconds then a else b⟩

@[simp] theorem nanoseconds_min (a b : Duration) :
    (min a b).nanoseconds = min a.nanoseconds b.nanoseconds := by
  simp only [min]; grind

/-! ## In messages -/

/-- The fraction `part / unit` (where `unit` is a power of ten) without trailing zeros. -/
def fractionText (part unit : Nat) : String :=
  let ds := Nat.toDigits 10 (unit + part)
  let ds := (ds.drop 1).reverse.dropWhile (· = '0')
  if ds.isEmpty then "" else "." ++ String.ofList ds.reverse

/-- The span in the largest of the units s, ms, µs and ns that gives a whole part. -/
def text (d : Duration) : String :=
  let n := d.nanoseconds
  let inUnit (unit : Nat) (name : String) :=
    toString (n / unit) ++ fractionText (n % unit) unit ++ name
  if 1_000_000_000 ≤ n then inUnit 1_000_000_000 "s"
  else if 1_000_000 ≤ n then inUnit 1_000_000 "ms"
  else if 1_000 ≤ n then inUnit 1_000 "µs"
  else toString n ++ "ns"

end Duration

end TenantAccess
