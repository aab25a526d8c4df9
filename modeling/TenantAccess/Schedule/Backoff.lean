import TenantAccess.SortedMap
import TenantAccess.Time.Duration

/-!
# Delays between attempts

The delay doubles with every failure of a key until it reaches the longest one; a success starts
over.
-/

namespace TenantAccess

open Std

structure Backoff (κ : Type) [Ord κ] where
  base : Duration
  longest : Duration
  failed : SortedMap κ Nat := ∅

namespace Backoff

variable {κ : Type} [Ord κ] [TransOrd κ] [LawfulEqOrd κ]

/-- Failures are counted up to this number. -/
def mostFailures : Nat := UInt32.size - 1

def failures (b : Backoff κ) (k : κ) : Nat := (b.failed.get? k).getD 0

/-- The delay after `n` earlier failures.  A product too long for a `Duration` is cut off. -/
def delay (b : Backoff κ) (n : Nat) : Duration :=
  match b.base.scale? (Nat.pow 2 (min n 31)) with
  | some d => min d b.longest
  | none => b.longest

/-- The delay before the next attempt; one more failure is counted. -/
def next (b : Backoff κ) (k : κ) : Duration × Backoff κ :=
  (b.delay (b.failures k),
    { b with failed := b.failed.insert k (min (b.failures k + 1) mostFailures) })

def reset (b : Backoff κ) (k : κ) : Backoff κ := { b with failed := b.failed.erase k }

end Backoff

end TenantAccess
