import TenantAccess.Proofs.Program.Asks

/-!
# What a program asks and is answered

Whatever answers the requests of a program, be it a store, other clients of that store or a fault, the
program takes one course: the requests that it comes to ask, each with its answer.
-/

namespace TenantAccess

variable {α β σ : Type} {answer : (r : Request) → StateM σ r.Reply} {P : Request → Prop}
  {s s' : σ}

structure Exchange where
  request : Request
  reply : request.Reply

namespace Program

/-- Begun in `s`, the program has the exchanges of a list and ends with a result, in another state. -/
inductive Course (answer : (r : Request) → StateM σ r.Reply) :
    Program α → σ → List Exchange → α → σ → Prop
  | done (a : α) (s : σ) : Course answer (done a) s [] a s
  | ask {r : Request} {next : r.Reply → Program α} {s s' : σ} {l : List Exchange} {a : α}
    (h : Course answer (next ((answer r).run s).1) ((answer r).run s).2 l a s') :
    Course answer (ask r next) s (⟨r, ((answer r).run s).1⟩ :: l) a s'

theorem exists_course (answer : (r : Request) → StateM σ r.Reply) (p : Program α) (s : σ) :
    ∃ l, p.Course answer s l ((p.interpret answer).run s).1 ((p.interpret answer).run s).2 := by
  induction p generalizing s with
  | done a => exact ⟨[], .done a s⟩
  | ask r next ih =>
    obtain ⟨l, h⟩ := ih ((answer r).run s).1 ((answer r).run s).2
    exact ⟨_, .ask h⟩

theorem Course.of_bind {p : Program α} {f : α → Program β} {l : List Exchange} {b : β}
    (h : (p >>= f).Course answer s l b s') :
    ∃ l₁ a s₁ l₂, p.Course answer s l₁ a s₁ ∧ (f a).Course answer s₁ l₂ b s' ∧ l = l₁ ++ l₂ := by
  induction p generalizing s l with
  | done a => exact ⟨[], a, s, l, .done a s, h, rfl⟩
  | ask r next ih =>
    cases h with
    | ask h =>
      obtain ⟨l₁, a, s₁, l₂, hp, hf, rfl⟩ := ih _ h
      exact ⟨_, a, s₁, l₂, .ask hp, hf, rfl⟩

theorem Asks.course {p : Program α} (hp : p.Asks Request.AnyReply P) {l : List Exchange} {a : α}
    (h : p.Course answer s l a s') : ∀ e ∈ l, P e.request := by
  induction h with
  | done => exact fun e he ↦ by cases he
  | @ask r next s₀ _ _ _ _ ih =>
    have hrest := ih (hp.2 ((answer r).run s₀).1 trivial)
    exact List.forall_mem_cons.2 ⟨hp.1, hrest⟩

end Program

namespace Task

variable {l : List Exchange}

def Course (answer : (r : Request) → StateM σ r.Reply) (t : Task α) (s : σ) (l : List Exchange)
    (result : Except Error α) (s' : σ) : Prop :=
  Program.Course answer t.run s l result s'

theorem Course.of_pure {a : α} {result : Except Error α}
    (h : (pure a : Task α).Course answer s l result s') : l = [] ∧ result = .ok a := by
  cases h
  exact ⟨rfl, rfl⟩

theorem Course.of_ask {r : Request} {result : Except Error r.Reply}
    (h : (ask r).Course answer s l result s') :
    result = .ok ((answer r).run s).1 ∧ l = [⟨r, ((answer r).run s).1⟩] := by
  cases h with
  | ask h =>
    cases h
    exact ⟨rfl, rfl⟩

theorem Course.of_bind {x : Task α} {f : α → Task β} {result : Except Error β}
    (h : (x >>= f).Course answer s l result s') :
    (∃ e, result = .error e ∧ x.Course answer s l (.error e) s') ∨
      ∃ l₁ a s₁ l₂, x.Course answer s l₁ (.ok a) s₁ ∧ (f a).Course answer s₁ l₂ result s' ∧
        l = l₁ ++ l₂ := by
  obtain ⟨l₁, first, s₁, l₂, hx, hf, rfl⟩ := Program.Course.of_bind h
  cases first with
  | ok a => exact .inr ⟨l₁, a, s₁, l₂, hx, hf, rfl⟩
  | error e =>
    cases hf
    rw [List.append_nil]
    exact .inl ⟨e, rfl, hx⟩

theorem Course.of_bind_ok {x : Task α} {f : α → Task β} {b : β}
    (h : (x >>= f).Course answer s l (.ok b) s') :
    ∃ l₁ a s₁ l₂, x.Course answer s l₁ (.ok a) s₁ ∧ (f a).Course answer s₁ l₂ (.ok b) s' ∧
      l = l₁ ++ l₂ := by
  rcases h.of_bind with ⟨e, he, -⟩ | hok
  · cases he
  · exact hok

theorem Asks.course {t : Task α} (ht : t.Asks Request.AnyReply P) {result : Except Error α}
    (h : t.Course answer s l result s') : ∀ e ∈ l, P e.request := Program.Asks.course ht h

end Task

end TenantAccess
