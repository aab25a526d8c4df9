import TenantAccess.Schedule.WorkQueue

/-!
# Waiting for work

Takers who find the queue empty wait in the order in which they came.  A key that becomes pending
wakes one of them, or is remembered as a signal for the next taker to come.  A woken taker looks
again when it is its turn to run; until then somebody else may have taken the key.
-/

namespace TenantAccess

/-- A work queue whose takers are named by `ι`. -/
structure WaitingQueue (κ ι : Type) where
  queue : WorkQueue κ := {}
  /-- A wake-up that found nobody waiting. -/
  signal : Bool := false
  waiting : List ι := []
  /-- Takers that were woken and have not run since, first woken first. -/
  woken : List ι := []

namespace WaitingQueue

variable {κ ι : Type} [DecidableEq κ] [DecidableEq ι]

/-- Wake the taker who has waited longest, or leave a signal. -/
def notify (s : WaitingQueue κ ι) : WaitingQueue κ ι :=
  match s.waiting with
  | [] => { s with signal := true }
  | w :: rest => { s with waiting := rest, woken := s.woken ++ [w] }

/-- Change the queue, and wake somebody if a key has become pending. -/
def change (s : WaitingQueue κ ι) (q : WorkQueue κ) : WaitingQueue κ ι :=
  if s.queue.length < q.length then notify { s with queue := q } else { s with queue := q }

def add (s : WaitingQueue κ ι) (k : κ) : WaitingQueue κ ι := s.change (s.queue.add k)

def done (s : WaitingQueue κ ι) (k : κ) : WaitingQueue κ ι := s.change (s.queue.done k)

/-- Shutting down wakes everybody. -/
def shutDown (s : WaitingQueue κ ι) : WaitingQueue κ ι :=
  { s with queue := s.queue.shutDown, signal := true, waiting := [], woken := s.woken ++ s.waiting }

inductive Answer (κ : Type) where
  | key (k : κ)
  | waits
  | shutDown
deriving DecidableEq

/-- The taker `w` looks for a key, using up a signal.  It waits if there is none. -/
def look (s : WaitingQueue κ ι) (w : ι) : Answer κ × WaitingQueue κ ι :=
  let s := { s with signal := false }
  if s.queue.isDown then (.shutDown, s)
  else
    match s.queue.take? with
    | some (k, q) => (.key k, { s with queue := q })
    | none => (.waits, { s with waiting := s.waiting ++ [w] })

/-- The first woken taker looks again. -/
def resume? (s : WaitingQueue κ ι) : Option (ι × Answer κ × WaitingQueue κ ι) :=
  match s.woken with
  | [] => none
  | w :: rest => some (w, look { s with woken := rest } w)

/-- The taker `w` gives up.  If it was woken, its wake-up goes to somebody else. -/
def cancel (s : WaitingQueue κ ι) (w : ι) : WaitingQueue κ ι :=
  if w ∈ s.woken then notify { s with woken := s.woken.erase w }
  else { s with waiting := s.waiting.erase w }

/-- Everybody woken has had a turn: who got an answer, and the state after it. -/
def settle (s : WaitingQueue κ ι) : List (ι × Answer κ) × WaitingQueue κ ι :=
  s.woken.foldl
    (fun (answers, s) w ↦
      match look { s with woken := s.woken.erase w } w with
      | (.waits, s) => (answers, s)
      | (answer, s) => (answers ++ [(w, answer)], s))
    ([], s)

end WaitingQueue

end TenantAccess
