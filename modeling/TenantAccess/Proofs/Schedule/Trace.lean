import Mathlib.Data.List.Basic

/-!
# Histories of interleaved steps

Several parties take steps in any order, and some of the steps are told of.  What holds at first and
is kept by every step holds after any of them.
-/

namespace TenantAccess

variable {σ α : Type}

/-- An `x` of the history is followed by nothing that ends it. -/
def Lasting (x : α) (ends : α → Prop) (l : List α) : Prop :=
  ∃ a b, l = a ++ x :: b ∧ ∀ y ∈ b, ¬ends y

namespace Lasting

variable {x y : α} {ends : α → Prop} {l a b : List α}

theorem not_nil : ¬Lasting x ends [] := by
  rintro ⟨a, b, heq, -⟩
  simp at heq

theorem snoc_iff : Lasting x ends (l ++ [y]) ↔ y = x ∨ ¬ends y ∧ Lasting x ends l := by
  constructor
  · rintro ⟨a, b, heq, hnot⟩
    rcases List.eq_nil_or_concat b with rfl | ⟨b, z, rfl⟩
    · left
      exact (List.append_inj_right' heq rfl |> List.cons.inj).1
    · right
      rw [List.concat_eq_append, ← List.cons_append, ← List.append_assoc] at heq
      obtain ⟨rfl, hy⟩ := List.append_inj' heq rfl
      rw [List.concat_eq_append] at hnot
      refine ⟨?_, a, b, rfl, fun z hz ↦ hnot z (List.mem_append_left _ hz)⟩
      rw [(List.cons.inj hy).1]
      exact hnot z (List.mem_append_right _ List.mem_cons_self)
  · rintro (rfl | ⟨hy, a, b, rfl, hnot⟩)
    · exact ⟨l, [], rfl, fun z hz ↦ absurd hz List.not_mem_nil⟩
    · refine ⟨a, b ++ [y], by simp, fun z hz ↦ ?_⟩
      rcases List.mem_append.1 hz with hz | hz
      · exact hnot z hz
      · rwa [List.mem_singleton.1 hz]

/-- What lasts for a time, or begins later, has an end or lasts. -/
theorem exists_end (h : ¬Lasting x ends (a ++ y :: b)) (hy : ¬ends y)
    (hbefore : Lasting x ends a ∨ x ∈ b) : ∃ z ∈ b, ends z := by
  by_contra hnone
  simp only [not_exists, not_and] at hnone
  rcases hbefore with ⟨a₁, a₂, rfl, ha₂⟩ | hmem
  · refine h ⟨a₁, a₂ ++ y :: b, by simp, fun z hz ↦ ?_⟩
    rcases List.mem_append.1 hz with hz | hz
    · exact ha₂ z hz
    · rcases List.mem_cons.1 hz with rfl | hz
      · exact hy
      · exact hnone z hz
  · obtain ⟨b₁, b₂, rfl⟩ := List.append_of_mem hmem
    exact h ⟨a ++ y :: b₁, b₂, by simp, fun z hz ↦ hnone z (by simp [hz])⟩

end Lasting

/-- Any steps one after the other, and all that is told of them. -/
inductive Trace (step : σ → List α → σ → Prop) : σ → List α → σ → Prop
  | nil (s : σ) : Trace step s [] s
  | cons {s s' s'' : σ} {news l : List α} (h : step s news s') (hrest : Trace step s' l s'') :
    Trace step s (news ++ l) s''

namespace Trace

variable {step : σ → List α → σ → Prop} {s s' s'' : σ} {l l' news a b : List α} {x : α}

theorem single (h : step s news s') : Trace step s news s' := by
  simpa using Trace.cons h (.nil s')

theorem trans (h : Trace step s l s') (h' : Trace step s' l' s'') :
    Trace step s (l ++ l') s'' := by
  induction h with
  | nil => exact h'
  | cons h _ ih =>
    rw [List.append_assoc]
    exact .cons h (ih h')

/-- What every step keeps holds to the end. -/
theorem invariant {I : List α → σ → Prop}
    (hstep : ∀ {l s news s'}, I l s → step s news s' → I (l ++ news) s')
    (htrace : Trace step s l' s') (h : I l s) : I (l ++ l') s' := by
  induction htrace generalizing l with
  | nil => rwa [List.append_nil]
  | cons hnext _ ih =>
    rw [← List.append_assoc]
    exact ih (hstep h hnext)

/-- Large steps that are runs of small ones make up such a run together. -/
theorem refine {τ : Type} {small : τ → List α → τ → Prop} {f : σ → τ} {I : List α → τ → Prop}
    (hrun : ∀ {l s news s'}, I l (f s) → step s news s' → Trace small (f s) news (f s'))
    (hsmall : ∀ {l t news t'}, I l t → small t news t' → I (l ++ news) t')
    (htrace : Trace step s l' s') (h : I l (f s)) : Trace small (f s) l' (f s') := by
  induction htrace generalizing l with
  | nil => exact .nil _
  | cons hstep _ ih =>
    have hfirst := hrun h hstep
    exact hfirst.trans (ih (hfirst.invariant hsmall h))

/-- What no step tells of but alone, a trace passes through. -/
theorem exists_step (halone : ∀ {s news s'}, step s news s' → x ∈ news → news = [x])
    (h : Trace step s (a ++ x :: b) s') :
    ∃ s₁ s₂, Trace step s a s₁ ∧ step s₁ [x] s₂ ∧ Trace step s₂ b s' := by
  generalize hl : a ++ x :: b = l at h
  induction h generalizing a with
  | nil => simp at hl
  | @cons s s₁ s'' news l hnext hrest ih =>
    rcases List.append_eq_append_iff.1 hl with ⟨c, rfl, hc⟩ | ⟨c, rfl, hc⟩
    · cases c with
      | nil =>
        obtain ⟨s₂, s₃, hfirst, hsecond⟩ := ih (a := []) hc
        exact ⟨s₂, s₃, by simpa using Trace.cons hnext hfirst, hsecond⟩
      | cons y c =>
        obtain ⟨rfl, rfl⟩ := List.cons.inj hc
        have heq := halone hnext (List.mem_append_right _ List.mem_cons_self)
        obtain ⟨rfl, rfl⟩ : a = [] ∧ c = [] := by simpa [List.append_eq_singleton_iff] using heq
        exact ⟨s, s₁, .nil s, hnext, hrest⟩
    · obtain ⟨s₂, s₃, hfirst, hsecond⟩ := ih hc.symm
      exact ⟨s₂, s₃, .cons hnext hfirst, hsecond⟩

end Trace

end TenantAccess
