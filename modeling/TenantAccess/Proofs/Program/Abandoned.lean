import TenantAccess.Proofs.Program.Asks

/-!
# Programs that are given up

A program may be given up between any two of its requests.  What it had asked until then is done, and
the rest is not.
-/

namespace TenantAccess

variable {α β : Type} {env : Surroundings} {w w' v : World}

/-- Requests that write one object at most. -/
def Request.Single : Request → Prop
  | delete _ => False
  | _ => True

theorem Request.Single.writes_perform_le {r : Request} (h : r.Single) (env : Surroundings)
    (w : World) : (r.perform env w).2.store.writes ≤ w.store.writes + 1 := by
  cases r with
  | create kind object =>
    change (Store.create env.ambient kind object w.store).2.writes ≤ _
    rcases Store.create_cases env.ambient kind object w.store with ⟨e, he⟩ | ⟨m, -, -, heq⟩
    · rw [he]
      exact Nat.le_succ _
    · rw [heq]
      exact Nat.le_refl _
  | update kind object =>
    change (Store.update kind object w.store).2.writes ≤ _
    rcases Store.update_cases kind object w.store with ⟨e, he⟩ | ⟨m, current, c, -, -, -, -, heq⟩
    · rw [he]
      exact Nat.le_succ _
    · rw [heq]
      exact Nat.le_refl _
  | delete ref => exact h.elim
  | get | list | review | claims | publish => exact Nat.le_succ _

namespace Program

inductive GivenUp (env : Surroundings) : Program α → World → World → Prop
  | now (p : Program α) (w : World) : GivenUp env p w w
  | later {r : Request} {next : r.Reply → Program α} {w v : World}
      (h : GivenUp env (next (r.perform env w).1) (r.perform env w).2 v) :
      GivenUp env (ask r next) w v

theorem givenUp_run (env : Surroundings) (p : Program α) (w : World) :
    p.GivenUp env w (p.run env w).2 := by
  induction p generalizing w with
  | done a => exact .now _ w
  | ask r next ih => exact .later (ih _ _)

theorem GivenUp.of_bind {p : Program α} {f : α → Program β} (h : (p >>= f).GivenUp env w v) :
    p.GivenUp env w v ∨ (f (p.run env w).1).GivenUp env (p.run env w).2 v := by
  induction p generalizing w with
  | done a => exact .inr h
  | ask r next ih =>
    change (ask r fun reply ↦ next reply >>= f).GivenUp env w v at h
    cases h with
    | now => exact .inl (.now _ _)
    | later h => exact (ih _ h).imp_left .later

theorem GivenUp.store_eq {p : Program α} (hp : p.Asks Request.AnyReply Request.Reads)
    (h : p.GivenUp env w v) : v.store = w.store := by
  induction h with
  | now => rfl
  | @later r next _ _ h ih =>
    rw [ih (hp.2 _ trivial)]
    have hreads := hp.1
    cases r <;> first | rfl | cases hreads

/-- A program that writes object by object can be given up after any number of its writes. -/
theorem exists_givenUp {p : Program α} (hp : p.Asks Request.AnyReply Request.Single) {k : Nat}
    (hk : w.store.writes ≤ k) (hk' : k ≤ (p.run env w).2.store.writes) :
    ∃ v, p.GivenUp env w v ∧ v.store.writes = k := by
  induction p generalizing w with
  | done a => exact ⟨w, .now _ w, Nat.le_antisymm hk hk'⟩
  | ask r next ih =>
    rcases Nat.eq_or_lt_of_le hk with rfl | hlt
    · exact ⟨w, .now _ w, rfl⟩
    · have hstep := hp.1.writes_perform_le env w
      obtain ⟨v, hv, hwrites⟩ := ih _ (hp.2 _ trivial) (Nat.le_trans hstep hlt) hk'
      exact ⟨v, .later hv, hwrites⟩

end Program

namespace Task

/-- The task was begun in `w` and given up in `v`. -/
def GivenUp (env : Surroundings) (t : Task α) (w v : World) : Prop :=
  Program.GivenUp env t.run w v

theorem GivenUp.eq_of_pure {a : α} (h : (pure a : Task α).GivenUp env w v) : v = w := by
  cases h
  rfl

theorem GivenUp.of_bind {x : Task α} {f : α → Task β} (h : (x >>= f).GivenUp env w v) :
    x.GivenUp env w v ∨
      ∃ a w', x.exec env w = (.ok a, w') ∧ (f a).GivenUp env w' v := by
  rcases Program.GivenUp.of_bind h with h | h
  · exact .inl h
  · change Program.GivenUp env (ExceptT.bindCont f (x.exec env w).1) (x.exec env w).2 v at h
    have hover : x.GivenUp env w (x.exec env w).2 := Program.givenUp_run env x.run w
    rcases hexec : x.exec env w with ⟨e | a, w'⟩ <;> rw [hexec] at h hover
    · -- what fails is over
      cases h
      exact .inl hover
    · exact .inr ⟨a, w', rfl, h⟩

theorem GivenUp.store_eq {t : Task α} (ht : t.Asks Request.AnyReply Request.Reads)
    (h : t.GivenUp env w v) : v.store = w.store := Program.GivenUp.store_eq ht h

theorem GivenUp.of_bind_reads {x : Task α} {f : α → Task β}
    (hx : x.Asks Request.AnyReply Request.Reads) (h : (x >>= f).GivenUp env w v) :
    v.store = w.store ∨ ∃ a w', x.exec env w = (.ok a, w') ∧ (f a).GivenUp env w' v :=
  h.of_bind.imp_left fun h ↦ h.store_eq hx

theorem GivenUp.of_ask_bind {r : Request} {f : r.Reply → Task α}
    (hf : ∀ reply, (f reply).Asks Request.AnyReply fun _ ↦ False)
    (h : (ask r >>= f).GivenUp env w v) : v = w ∨ v = ((ask r >>= f).exec env w).2 := by
  cases h with
  | now => exact .inl rfl
  | later h =>
    right
    rw [exec_bind_of_ok (exec_ask r)]
    have hnothing := hf (r.perform env w).1
    change Program.GivenUp env (f (r.perform env w).1).run _ v at h
    unfold exec
    cases hrest : (f (r.perform env w).1).run with
    | done a =>
      rw [hrest] at h
      cases h
      rfl
    | ask r' next =>
      rw [Asks, hrest] at hnothing
      exact hnothing.1.elim

end Task

end TenantAccess
