/-!
# What is due when

Time passes in whole milliseconds, and only from one due entry to the next.  Entries due at one
time come in the order in which they were made.
-/

namespace TenantAccess

structure Agenda (α : Type) where
  now : Nat := 0
  /-- Entries with their times, in the order in which they come due. -/
  entries : List (Nat × α) := []

namespace Agenda

variable {α : Type}

def insert (time : Nat) (a : α) : List (Nat × α) → List (Nat × α)
  | [] => [(time, a)]
  | (t, b) :: rest => if time < t then (time, a) :: (t, b) :: rest else (t, b) :: insert time a rest

/-- Put `a` down for `delay` milliseconds from now. -/
def plan (g : Agenda α) (delay : Nat) (a : α) : Agenda α :=
  { g with entries := insert (g.now + delay) a g.entries }

/-- The time of the next entry, unless it lies after `limit`. -/
def nextTime? (g : Agenda α) (limit : Nat) : Option Nat :=
  match g.entries with
  | [] => none
  | (t, _) :: _ => if t ≤ limit then some t else none

/-- Everything due at `time`; the clock shows that time then. -/
def take (g : Agenda α) (time : Nat) : List α × Agenda α :=
  ((g.entries.takeWhile (·.1 ≤ time)).map (·.2),
    { now := max g.now time, entries := g.entries.dropWhile (·.1 ≤ time) })

theorem length_take_lt {g : Agenda α} {limit time : Nat} (h : g.nextTime? limit = some time) :
    (g.take time).2.entries.length < g.entries.length := by
  unfold nextTime? at h
  split at h
  · simp at h
  · next t a rest he =>
    split at h
    · cases h
      have := (List.dropWhile_sublist (fun e : Nat × α ↦ decide (e.1 ≤ time)) (l := rest)).length_le
      simp only [take, he, List.length_cons]
      rw [List.dropWhile_cons_of_pos (by simp)]
      omega
    · simp at h

def erase [DecidableEq α] (g : Agenda α) (a : α) : Agenda α :=
  { g with entries := g.entries.filter (·.2 ≠ a) }

def moveTo (g : Agenda α) (time : Nat) : Agenda α := { g with now := max g.now time }

end Agenda

end TenantAccess
