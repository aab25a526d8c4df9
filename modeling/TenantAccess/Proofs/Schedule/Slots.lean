import TenantAccess.Schedule.WorkerPool

/-!
# Slots that nobody works in

While a pool is open, a slot that is given out is one fewer to have, and one that is given back is
one more, be it free or set aside for somebody in line.
-/

namespace TenantAccess.WorkerPool

variable {ι : Type} {p p' : WorkerPool ι} {w : ι} {a : Answer}

/-- Slots in which nobody works. -/
def spare (p : WorkerPool ι) : Nat := p.available + p.assigned.length

structure Open (p : WorkerPool ι) : Prop where
  not_closed : p.isClosed = false
  dismissed : p.dismissed = []

theorem open_ofSize (n : Nat) : (ofSize n : WorkerPool ι).Open := ⟨rfl, rfl⟩

/-- Who asks an open pool gets a slot, or waits and leaves all of them to others. -/
theorem Open.acquire (h : p.Open) (hacquire : p.acquire w = (a, p')) :
    p'.Open ∧ (a = .granted ∧ p'.spare + 1 = p.spare ∨ a = .waits ∧ p'.spare = p.spare) := by
  unfold WorkerPool.acquire at hacquire
  rw [h.not_closed] at hacquire
  by_cases hfree : 0 < p.available
  · simp only [Bool.false_eq_true, if_false, if_pos hfree, Prod.mk.injEq] at hacquire
    obtain ⟨rfl, rfl⟩ := hacquire
    refine ⟨⟨rfl, h.dismissed⟩, .inl ⟨rfl, ?_⟩⟩
    simp only [spare, enter]
    omega
  · simp only [Bool.false_eq_true, if_false, if_neg hfree, Prod.mk.injEq] at hacquire
    obtain ⟨rfl, rfl⟩ := hacquire
    exact ⟨⟨rfl, h.dismissed⟩, .inr ⟨rfl, rfl⟩⟩

theorem Open.leave (h : p.Open) (o : Outcome) :
    (p.leave o).Open ∧ (p.leave o).spare = p.spare + 1 := by
  unfold WorkerPool.leave giveBack
  dsimp only
  split
  · refine ⟨⟨h.not_closed, h.dismissed⟩, ?_⟩
    simp only [spare]
    omega
  · refine ⟨⟨h.not_closed, h.dismissed⟩, ?_⟩
    simp only [spare, List.length_append, List.length_singleton]
    omega

variable [DecidableEq ι]

/-- Who waited for an open pool is called for nothing but a slot. -/
theorem Open.resume (h : p.Open) (hresume : p.resume? w = some (a, p')) :
    a = .granted ∧ p'.Open ∧ p'.spare + 1 = p.spare := by
  unfold resume? at hresume
  by_cases hmem : w ∈ p.assigned
  · simp only [if_pos hmem, h.not_closed, Bool.false_eq_true, if_false, Option.some.injEq,
      Prod.mk.injEq] at hresume
    obtain ⟨rfl, rfl⟩ := hresume
    refine ⟨rfl, ⟨rfl, h.dismissed⟩, ?_⟩
    have hlength := List.length_erase_of_mem hmem
    have hpos := List.length_pos_of_mem hmem
    simp only [spare, enter]
    omega
  · simp [hmem, h.dismissed] at hresume

theorem Open.timeOut (h : p.Open) : (p.timeOut w).Open ∧ (p.timeOut w).spare = p.spare :=
  ⟨⟨h.not_closed, h.dismissed⟩, rfl⟩

end TenantAccess.WorkerPool
