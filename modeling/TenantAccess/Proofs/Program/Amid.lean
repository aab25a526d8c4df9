import TenantAccess.Proofs.Program.Asks
import TenantAccess.Proofs.Store.Effect

/-!
# Programs amid others

A client works through its program while others use the same store: between any two of its requests
anything may be asked by anybody.  A program meets a condition if each of its requests satisfies it
in the world in which it is made.
-/

namespace TenantAccess

variable {α β : Type} {w w' w'' : World}

namespace World

/-- Requests of anybody lead from one world to another. -/
inductive Reaches : World → World → Prop
  | refl (w : World) : Reaches w w
  | step {w w' : World} (h : Reaches w w') (env : Surroundings) (r : Request) :
      Reaches w (r.perform env w').2

namespace Reaches

theorem trans (h : w.Reaches w') (h' : w'.Reaches w'') : w.Reaches w'' := by
  induction h' with
  | refl => exact h
  | step _ env r ih => exact .step ih env r

theorem coherent (h : w.Reaches w') (hw : w.store.Coherent) : w'.store.Coherent := by
  induction h with
  | refl => exact hw
  | step _ env r ih => exact coherent_perform env r ih

theorem later (h : w.Reaches w') (hw : w.store.Coherent) :
    ∃ news, w.store.Later news w'.store := by
  induction h with
  | refl => exact ⟨[], Store.later_nil _⟩
  | step h env r ih =>
    obtain ⟨news, hnews⟩ := ih
    obtain ⟨more, hmore⟩ := later_perform env r (h.coherent hw)
    exact ⟨news ++ more, hnews.trans hmore⟩

end Reaches

end World

namespace Program

theorem reaches_run (env : Surroundings) (p : Program α) (w : World) :
    w.Reaches (p.run env w).2 := by
  induction p generalizing w with
  | done a => exact .refl w
  | ask r next ih => exact (World.Reaches.step (.refl w) env r).trans (ih _ _)

/-- What is left of a program, and the world, after it and others have had some turns. -/
inductive Amid : Program α → World → Program α → World → Prop
  | refl (p : Program α) (w : World) : Amid p w p w
  | own {r : Request} {next : r.Reply → Program α} {w w' : World} {p' : Program α}
      (env : Surroundings)
      (h : Amid (next (r.perform env w).1) (r.perform env w).2 p' w') : Amid (ask r next) w p' w'
  | other {p p' : Program α} {w w' : World} (env : Surroundings) (r : Request)
      (h : Amid p (r.perform env w).2 p' w') : Amid p w p' w'

/-- Amid others every request satisfies `P` when it is made, and the result satisfies `Q`. -/
def Meets (P : World → Request → Prop) (Q : α → World → Prop) : Program α → World → Prop
  | done a, w => Q a w
  | ask r next, w => ∀ w', w.Reaches w' →
      P w' r ∧ ∀ env, (next (r.perform env w').1).Meets P Q (r.perform env w').2

variable {P : World → Request → Prop} {Q Q' : α → World → Prop}

theorem Meets.imp {p : Program α} (h : p.Meets P Q w) (hQ : ∀ a w, Q a w → Q' a w) :
    p.Meets P Q' w := by
  induction p generalizing w with
  | done a => exact hQ a w h
  | ask r next ih => exact fun w' hw ↦ ⟨(h w' hw).1, fun env ↦ ih _ ((h w' hw).2 env)⟩

theorem Meets.bind {p : Program α} {f : α → Program β} {Q : β → World → Prop}
    (h : p.Meets P (fun a w ↦ (f a).Meets P Q w) w) : (p >>= f).Meets P Q w := by
  induction p generalizing w with
  | done a => exact h
  | ask r next ih => exact fun w' hw ↦ ⟨(h w' hw).1, fun env ↦ ih _ ((h w' hw).2 env)⟩

theorem Asks.meets {P₀ : Request → Prop} {p : Program α} (hp : p.Asks Request.AnyReply P₀)
    (hw : w.store.Coherent) (hP : ∀ w', w.Reaches w' → ∀ r, P₀ r → P w' r) :
    p.Meets P (fun _ w ↦ w.store.Coherent) w := by
  induction p generalizing w with
  | done a => exact hw
  | ask r next ih =>
    refine fun w' hw' ↦ ⟨hP w' hw' r hp.1, fun env ↦ ih _ (hp.2 _ trivial) ?_ fun w'' hw'' ↦ ?_⟩
    · exact coherent_perform env r (hw'.coherent hw)
    · exact hP w'' ((hw'.step env r).trans hw'')

theorem Asks.exists_eq_done {p : Program α} (hp : p.Asks Request.AnyReply fun _ ↦ False) :
    ∃ a, p = done a := by
  cases p with
  | done a => exact ⟨a, rfl⟩
  | ask r next => exact hp.1.elim

theorem Meets.later {p : Program α} (h : p.Meets P (fun _ _ ↦ True) w) (hw : w.Reaches w') :
    p.Meets P (fun _ _ ↦ True) w' := by
  cases p with
  | done a => exact trivial
  | ask r next => exact fun w'' hw' ↦ h w'' (hw.trans hw')

theorem Meets.of_amid {p : Program α} (h : p.Meets P (fun _ _ ↦ True) w) {r : Request}
    {next : r.Reply → Program α} (hamid : p.Amid w (ask r next) w') : P w' r := by
  generalize hp' : ask r next = p' at hamid
  induction hamid with
  | refl p w =>
    subst hp'
    exact (h w (.refl w)).1
  | own env _ ih => exact ih ((h _ (.refl _)).2 env) hp'
  | other env r _ ih => exact ih (h.later (.step (.refl _) env r)) hp'

end Program

namespace Task

/-- `Program.Meets` for a task, whose result counts if there is one. -/
def Meets (P : World → Request → Prop) (Q : α → World → Prop) (t : Task α) (w : World) : Prop :=
  Program.Meets P (fun r w ↦ ∀ a, r = .ok a → Q a w) t.run w

variable {P : World → Request → Prop} {Q : α → World → Prop}

theorem meets_pure {a : α} (h : Q a w) : (pure a : Task α).Meets P Q w := by
  rintro _ ⟨⟩
  exact h

theorem meets_throw (e : Error) : (throw e : Task α).Meets P Q w := nofun

theorem Meets.bind {x : Task α} {f : α → Task β} {Q : β → World → Prop}
    (h : x.Meets P (fun a w ↦ (f a).Meets P Q w) w) : (x >>= f).Meets P Q w := by
  refine Program.Meets.bind (Program.Meets.imp h fun r w hr ↦ ?_)
  cases r with
  | ok a => exact hr a rfl
  | error e => exact meets_throw e

theorem Meets.tryCatch {x : Task α} {handler : Error → Task α} (h : x.Meets P Q w)
    (hhandler : ∀ e w, (handler e).Meets P Q w) :
    (tryCatch x handler : Task α).Meets P Q w := by
  refine Program.Meets.bind (Program.Meets.imp h fun r w hr ↦ ?_)
  cases r with
  | ok a => exact meets_pure (hr a rfl)
  | error e => exact hhandler e w

theorem meets_ask_bind {r : Request} {f : r.Reply → Task α}
    (hf : ∀ reply, (f reply).Asks Request.AnyReply fun _ ↦ False)
    (h : ∀ w', w.Reaches w' → P w' r ∧ ∀ env a w'',
      (ask r >>= f).exec env w' = (.ok a, w'') → Q a w'') :
    (ask r >>= f).Meets P Q w := by
  intro w' hw
  refine ⟨(h w' hw).1, fun env ↦ ?_⟩
  have hexec := (h w' hw).2 env
  rw [exec_bind_of_ok (exec_ask r), exec] at hexec
  obtain ⟨result, hresult⟩ := (hf (r.perform env w').1).exists_eq_done
  change Program.Meets P _ (f (r.perform env w').1).run _
  rw [hresult] at hexec ⊢
  exact fun a ha ↦ hexec a _ (Prod.ext ha rfl)

theorem Meets.imp {t : Task α} {Q' : α → World → Prop} (h : t.Meets P Q w)
    (hQ : ∀ a w, Q a w → Q' a w) : t.Meets P Q' w :=
  Program.Meets.imp h fun _ w hr a ha ↦ hQ a w (hr a ha)

theorem Asks.meets {P₀ : Request → Prop} {t : Task α} (ht : t.Asks Request.AnyReply P₀)
    (hw : w.store.Coherent) (hP : ∀ w', w.Reaches w' → ∀ r, P₀ r → P w' r) :
    t.Meets P (fun _ w ↦ w.store.Coherent) w :=
  Program.Meets.imp (Program.Asks.meets ht hw hP) fun _ _ h _ _ ↦ h

section Typed

variable [Resource α] [Resource.Lawful α] {now : Timestamp}

theorem meets_find? {key : ObjectKey} {Q : Option α → World → Prop} (hw : w.store.Coherent)
    (hP : ∀ w', P w' (.get ⟨Resource.kind α, key⟩)) (hnone : ∀ w', w.Reaches w' → Q none w')
    (hsome : ∀ w' a, w.Reaches w' → w'.store.Has now a → Resource.key a = key → Q (some a) w') :
    (find? (α := α) now key).Meets P Q w := by
  refine meets_ask_bind (fun reply ↦ ?_) fun w' hw' ↦ ⟨hP w', fun env o w'' heq ↦ ?_⟩
  · rcases reply with e | object
    · cases e <;> exact trivial
    · exact (asks_decode object).bind fun _ ↦ trivial
  · obtain ⟨rfl, ⟨rfl, -⟩ | ⟨a, rfl, ha, hkey⟩⟩ := exec_find?_eq_ok (hw'.coherent hw) heq
    · exact hnone w'' hw'
    · exact hsome w'' a hw' ha hkey

theorem meets_list {params : ListParams} {Q : List α → World → Prop} (hw : w.store.Coherent)
    (hP : ∀ w', P w' (.list (Resource.kind α) params))
    (hQ : ∀ w', w.Reaches w' → Q (w'.store.objectsOf α now params) w') :
    (list now params).Meets P Q w := by
  refine meets_ask_bind (fun reply ↦ (asks_ofStore reply).bind asks_mapM_decode)
    fun w' hw' ↦ ⟨hP w', fun env l w'' heq ↦ ?_⟩
  obtain ⟨rfl, rfl⟩ := exec_list_eq_ok (hw'.coherent hw) heq
  exact hQ w'' hw'

end Typed

end Task

end TenantAccess
