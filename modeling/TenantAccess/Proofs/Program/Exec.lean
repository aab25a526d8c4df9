import TenantAccess.Program
import TenantAccess.Proofs.Store.Sweep

/-!
# Running tasks in one go

What a task comes to when nothing else happens meanwhile: one lemma for each way to combine tasks,
and one for each typed operation on the store.
-/

namespace TenantAccess

open Json

namespace Program

instance : LawfulMonad Program := .mk' Program
  (fun p ↦ by
    induction p with
    | done a => rfl
    | ask r next ih => exact congrArg (ask r) (funext ih))
  (fun _ _ ↦ rfl)
  (fun p f g ↦ by
    induction p with
    | done a => rfl
    | ask r next ih => exact congrArg (ask r) (funext ih))

variable {α β : Type} (env : Surroundings) (w : World)

@[simp] theorem run_pure (a : α) : (pure a : Program α).run env w = (a, w) := rfl

@[simp] theorem run_done (a : α) : (done a).run env w = (a, w) := rfl

@[simp] theorem run_ask (r : Request) (next : r.Reply → Program α) :
    (ask r next).run env w = (next (r.perform env w).1).run env (r.perform env w).2 := rfl

@[simp] theorem run_bind (p : Program α) (f : α → Program β) :
    (p >>= f).run env w = (f (p.run env w).1).run env (p.run env w).2 := by
  induction p generalizing w with
  | done a => rfl
  | ask r next ih => exact ih _ _

end Program

namespace Task

variable {α β : Type} {env : Surroundings} {w w' w'' : World}

/-- The outcome of a task that runs to its end, and the world it leaves. -/
def exec (env : Surroundings) (t : Task α) (w : World) : Except Error α × World :=
  Program.run env t.run w

@[simp] theorem exec_pure (a : α) : (pure a : Task α).exec env w = (.ok a, w) := rfl

@[simp] theorem exec_throw (e : Error) : (throw e : Task α).exec env w = (.error e, w) := rfl

@[simp] theorem exec_ask (r : Request) :
    (ask r).exec env w = (.ok (r.perform env w).1, (r.perform env w).2) := rfl

theorem exec_bind (x : Task α) (f : α → Task β) :
    (x >>= f).exec env w =
      match x.exec env w with
      | (.ok a, w') => (f a).exec env w'
      | (.error e, w') => (.error e, w') := by
  unfold exec
  rw [ExceptT.run_bind, Program.run_bind]
  rcases h : Program.run env x.run w with ⟨_ | _, w'⟩ <;> rfl

theorem exec_bind_of_ok {x : Task α} {a : α} (h : x.exec env w = (.ok a, w'))
    (f : α → Task β) : (x >>= f).exec env w = (f a).exec env w' := by
  rw [exec_bind, h]

theorem exec_bind_of_error {x : Task α} {e : Error} (h : x.exec env w = (.error e, w'))
    (f : α → Task β) : (x >>= f).exec env w = (.error e, w') := by
  rw [exec_bind, h]

theorem exec_bind_eq_ok_iff {x : Task α} {f : α → Task β} {b : β} :
    (x >>= f).exec env w = (.ok b, w'') ↔
      ∃ a w', x.exec env w = (.ok a, w') ∧ (f a).exec env w' = (.ok b, w'') := by
  rw [exec_bind]
  rcases h : x.exec env w with ⟨e | a, w'⟩
  · constructor
    · intro heq
      cases heq
    · rintro ⟨a, w', heq, -⟩
      cases heq
  · constructor
    · exact fun heq ↦ ⟨a, w', rfl, heq⟩
    · rintro ⟨a', w₁, heq, hf⟩
      cases heq
      exact hf

theorem exec_map (f : α → β) (x : Task α) :
    (f <$> x).exec env w =
      match x.exec env w with
      | (.ok a, w') => (.ok (f a), w')
      | (.error e, w') => (.error e, w') := by
  have h : (f <$> x : Task β) = x >>= fun a ↦ pure (f a) := rfl
  rw [h, exec_bind]
  rfl

theorem exec_map_of_ok {x : Task α} {a : α} (h : x.exec env w = (.ok a, w')) (f : α → β) :
    (f <$> x).exec env w = (.ok (f a), w') := by
  rw [exec_map, h]

theorem exec_tryCatch (x : Task α) (handler : Error → Task α) :
    (tryCatch x handler).exec env w =
      match x.exec env w with
      | (.ok a, w') => (.ok a, w')
      | (.error e, w') => (handler e).exec env w' := by
  unfold exec
  rw [ExceptT.run_tryCatch, Program.run_bind]
  rcases Program.run env x.run w with ⟨_ | _, w'⟩ <;> rfl

@[simp] theorem exec_ofStore_ok (a : α) : (ofStore (.ok a)).exec env w = (.ok a, w) := rfl

@[simp] theorem exec_ofStore_error (e : StoreError) :
    (ofStore (.error e) : Task α).exec env w = (.error e.toError, w) := rfl

/-! ## Typed operations -/

section Typed

variable [Resource α] {now : Timestamp}

theorem exec_decode {object : Json} {a : α}
    (h : Resource.decode strict now object = some a) :
    (decode (α := α) now object).exec env w = (.ok a, w) := by
  rw [decode, h]
  rfl

theorem exec_decode_eq_ok_iff {object : Json} {a : α} :
    (decode (α := α) now object).exec env w = (.ok a, w') ↔
      Resource.decode strict now object = some a ∧ w' = w := by
  unfold decode
  cases Resource.decode (α := α) strict now object with
  | none =>
    constructor
    · intro h
      cases h
    · intro h
      cases h.1
  | some a' =>
    change ((.ok a', w) : Except Error α × World) = _ ↔ _
    rw [Prod.mk.injEq, Except.ok.injEq, Option.some.injEq, eq_comm (a := w)]

theorem exec_mapM_decode_eq_ok_iff {objects : List Json} {l : List α} :
    (objects.mapM (decode (α := α) now)).exec env w = (.ok l, w') ↔
      objects.mapM (Resource.decode strict now) = some l ∧ w' = w := by
  induction objects generalizing l w w' with
  | nil =>
    change ((.ok [], w) : Except Error (List α) × World) = _ ↔ (some [] : Option (List α)) = _ ∧ _
    rw [Prod.mk.injEq, Except.ok.injEq, Option.some.injEq, eq_comm (a := w)]
  | cons object rest ih =>
    rw [List.mapM_cons, exec_bind_eq_ok_iff]
    simp only [exec_decode_eq_ok_iff, exec_bind_eq_ok_iff]
    simp only [List.mapM_cons, Option.bind_eq_bind, Option.bind_eq_some_iff, exec_pure,
      Prod.mk.injEq, Except.ok.injEq, Option.pure_def, Option.some.injEq]
    constructor
    · rintro ⟨a, _, ⟨ha, rfl⟩, l', w₁, hl, rfl, rfl⟩
      obtain ⟨hrest, rfl⟩ := ih.1 hl
      exact ⟨⟨a, ha, l', hrest, rfl⟩, rfl⟩
    · rintro ⟨⟨a, ha, l', hl, rfl⟩, rfl⟩
      exact ⟨a, w', ⟨ha, rfl⟩, l', w', ih.2 ⟨hl, rfl⟩, rfl, rfl⟩

end Typed

end Task

end TenantAccess
