import TenantAccess.Error
import TenantAccess.Time.Duration

/-!
# Reconcile slots

A fixed number of slots bounds how many reconciles run at once.  Whoever finds no free slot waits
in line; a slot that is given back goes to the first in line, who holds it from its next turn on.
Every slot that was held is given back with an outcome.
-/

namespace TenantAccess

inductive Outcome where
  | succeeded | failed
  /-- It was given up without a result. -/
  | aborted
deriving DecidableEq

structure PoolStats where
  maxWorkers : Nat
  inFlight : Nat := 0
  peak : Nat := 0
  succeeded : Nat := 0
  failed : Nat := 0
  aborted : Nat := 0
  timeouts : Nat := 0
deriving DecidableEq

namespace PoolStats

def enter (s : PoolStats) : PoolStats :=
  { s with inFlight := s.inFlight + 1, peak := max s.peak (s.inFlight + 1) }

def leave (s : PoolStats) : Outcome → PoolStats
  | .succeeded => { s with inFlight := s.inFlight - 1, succeeded := s.succeeded + 1 }
  | .failed => { s with inFlight := s.inFlight - 1, failed := s.failed + 1 }
  | .aborted => { s with inFlight := s.inFlight - 1, aborted := s.aborted + 1 }

def timeOut (s : PoolStats) : PoolStats := { s with timeouts := s.timeouts + 1 }

def encode (s : PoolStats) : Json :=
  .obj [("max_workers", Json.nat s.maxWorkers), ("in_flight", Json.nat s.inFlight),
    ("peak_in_flight", Json.nat s.peak), ("succeeded", Json.nat s.succeeded),
    ("failed", Json.nat s.failed), ("aborted", Json.nat s.aborted),
    ("acquire_timeouts", Json.nat s.timeouts)]

end PoolStats

/-- Slots for which those named by `ι` may ask. -/
structure WorkerPool (ι : Type) where
  stats : PoolStats
  /-- Free slots. -/
  available : Nat
  waiting : List ι := []
  /-- Those to whom a slot was given and who have not run since. -/
  assigned : List ι := []
  /-- Those whom closing has sent away and who have not run since. -/
  dismissed : List ι := []
  isClosed : Bool := false

namespace WorkerPool

variable {ι : Type} [DecidableEq ι]

def ofSize (n : Nat) : WorkerPool ι := { stats := { maxWorkers := n }, available := n }

inductive Answer where
  | granted | waits | closed
deriving DecidableEq

/-- Take up a slot that was set aside. -/
def enter (p : WorkerPool ι) : WorkerPool ι := { p with stats := p.stats.enter }

def acquire (p : WorkerPool ι) (w : ι) : Answer × WorkerPool ι :=
  if p.isClosed then (.closed, p)
  else if 0 < p.available then (.granted, enter { p with available := p.available - 1 })
  else (.waits, { p with waiting := p.waiting ++ [w] })

/-- A slot is free again: the first in line gets it. -/
def giveBack (p : WorkerPool ι) : WorkerPool ι :=
  match p.waiting with
  | [] => { p with available := p.available + 1 }
  | w :: rest => { p with waiting := rest, assigned := p.assigned ++ [w] }

/-- Whoever held a slot reports and gives it back. -/
def leave (p : WorkerPool ι) (o : Outcome) : WorkerPool ι :=
  giveBack { p with stats := p.stats.leave o }

/-- Closing sends away everybody in line. -/
def close (p : WorkerPool ι) : WorkerPool ι :=
  { p with isClosed := true, waiting := [], dismissed := p.dismissed ++ p.waiting }

/-- `w`, who waited, has a turn; `none` if nothing has happened to it.  In a closed pool even a
slot that was set aside is not taken up. -/
def resume? (p : WorkerPool ι) (w : ι) : Option (Answer × WorkerPool ι) :=
  if w ∈ p.assigned then
    let p := { p with assigned := p.assigned.erase w }
    some (if p.isClosed then (.closed, p.giveBack) else (.granted, p.enter))
  else if w ∈ p.dismissed then some (.closed, { p with dismissed := p.dismissed.erase w })
  else none

/-- `w` has waited too long. -/
def timeOut (p : WorkerPool ι) (w : ι) : WorkerPool ι :=
  { p with waiting := p.waiting.erase w, stats := p.stats.timeOut }

/-- `w` does not want a slot any more. -/
def cancel (p : WorkerPool ι) (w : ι) : WorkerPool ι :=
  if w ∈ p.assigned then giveBack { p with assigned := p.assigned.erase w }
  else { p with waiting := p.waiting.erase w, dismissed := p.dismissed.erase w }

end WorkerPool

def Error.slotsClosed : Error := .new .shutdownInProgress "Reconcile slots are closed"

def Error.noSlot (limit : Duration) : Error :=
  .internalError ("no reconcile slot within " ++ limit.text)

end TenantAccess
