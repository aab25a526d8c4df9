/-!
# The work queue

A key is pending, in flight or neither.  Adding a pending key changes nothing; adding a key that is
in flight marks it, and it becomes pending again when its holder is done.
-/

namespace TenantAccess

structure WorkQueue (κ : Type) where
  /-- Keys to hand out, next first. -/
  pending : List κ := []
  /-- Keys that were added since they were last handed out. -/
  dirty : List κ := []
  /-- Keys handed out. -/
  inFlight : List κ := []
  isDown : Bool := false

namespace WorkQueue

variable {κ : Type} [DecidableEq κ]

def insert (k : κ) (l : List κ) : List κ := if k ∈ l then l else k :: l

def add (q : WorkQueue κ) (k : κ) : WorkQueue κ :=
  if q.isDown ∨ k ∈ q.dirty then q
  else if k ∈ q.inFlight then { q with dirty := k :: q.dirty }
  else { q with dirty := k :: q.dirty, pending := q.pending ++ [k] }

/-- Hand out the next key, if there is one. -/
def take? (q : WorkQueue κ) : Option (κ × WorkQueue κ) :=
  if q.isDown then none
  else
    match q.pending with
    | [] => none
    | k :: rest =>
      some (k, { q with
        pending := rest
        dirty := q.dirty.filter (· ≠ k)
        inFlight := insert k q.inFlight })

/-- The holder of `k` is done with it. -/
def done (q : WorkQueue κ) (k : κ) : WorkQueue κ :=
  let q := { q with inFlight := q.inFlight.filter (· ≠ k) }
  if k ∈ q.dirty ∧ ¬q.isDown then { q with pending := q.pending ++ [k] } else q

def shutDown (q : WorkQueue κ) : WorkQueue κ := { q with isDown := true }

def length (q : WorkQueue κ) : Nat := q.pending.length

def isEmpty (q : WorkQueue κ) : Bool := q.pending.isEmpty

def isInFlight (q : WorkQueue κ) (k : κ) : Bool := k ∈ q.inFlight

def isIdle (q : WorkQueue κ) : Bool := q.pending.isEmpty && q.inFlight.isEmpty

end WorkQueue

end TenantAccess
