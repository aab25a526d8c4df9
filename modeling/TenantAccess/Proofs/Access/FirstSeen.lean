import Mathlib.Data.List.Nodup

/-!
# Names in the order in which they are first seen

Erasing the duplicates of a list leaves each name where the list first shows it.
-/

namespace TenantAccess

/-- The names in `source`, each once, in the order in which `source` first shows them. -/
structure FirstSeen (source l : List String) : Prop where
  mem_iff : ∀ name, name ∈ l ↔ name ∈ source
  increasing : l.Pairwise fun a b ↦ source.idxOf a < source.idxOf b

theorem FirstSeen.nodup {source l : List String} (h : FirstSeen source l) : l.Nodup :=
  h.increasing.imp fun hlt heq ↦ by
    rw [heq] at hlt
    exact Nat.lt_irrefl _ hlt

section EraseDups

variable {a b : String} {l : List String}

theorem eraseDups_filter (p : String → Bool) (l : List String) :
    (l.filter p).eraseDups = l.eraseDups.filter p := by
  cases l with
  | nil => rfl
  | cons a rest =>
    have ih := eraseDups_filter p (rest.filter fun other ↦ !other == a)
    rw [List.eraseDups_cons, List.filter_cons, List.filter_cons]
    cases hp : p a with
    | true =>
      rw [if_pos rfl, if_pos rfl, List.eraseDups_cons, ← ih, List.filter_comm]
    | false =>
      -- none of those that `p` keeps is `a`
      have hkept : (rest.filter p).filter (fun other ↦ !other == a) = rest.filter p := by
        refine List.filter_eq_self.2 fun b hb ↦ ?_
        have hne : b ≠ a := fun heq ↦ by
          rw [heq, List.mem_filter, hp] at hb
          cases hb.2
        simp [hne]
      rw [if_neg (by decide), if_neg (by decide), ← ih, List.filter_comm, hkept]
termination_by l.length
decreasing_by exact Nat.lt_succ_of_le (List.length_filter_le ..)

theorem eraseDups_of_nodup (h : l.Nodup) : l.eraseDups = l := by
  induction l with
  | nil => rfl
  | cons a rest ih =>
    obtain ⟨hnotMem, hrest⟩ := List.nodup_cons.1 h
    have hkept : rest.filter (fun other ↦ !other == a) = rest := by
      refine List.filter_eq_self.2 fun b hb ↦ ?_
      have hne : b ≠ a := fun heq ↦ hnotMem (heq ▸ hb)
      simp [hne]
    rw [List.eraseDups_cons, hkept, ih hrest]

theorem idxOf_lt_of_filter {p : String → Bool} (hb : p b)
    (h : (l.filter p).idxOf a < (l.filter p).idxOf b) : l.idxOf a < l.idxOf b := by
  induction l with
  | nil => simp at h
  | cons c rest ih =>
    rw [List.filter_cons] at h
    by_cases hca : c = a
    · -- `a` comes first, and is not `b`
      have hcb : c ≠ b := by
        rintro rfl
        exact absurd h (hca ▸ Nat.lt_irrefl _)
      simp [hca, hca ▸ hcb]
    · by_cases hcb : c = b
      · rw [hcb, if_pos hb] at h
        simp at h
      · split at h
        · rw [List.idxOf_cons_ne _ hca, List.idxOf_cons_ne _ hcb] at h ⊢
          exact Nat.succ_lt_succ (ih (Nat.lt_of_succ_lt_succ h))
        · rw [List.idxOf_cons_ne _ hca, List.idxOf_cons_ne _ hcb]
          exact Nat.succ_lt_succ (ih h)

theorem firstSeen_eraseDups (l : List String) : FirstSeen l l.eraseDups := by
  refine ⟨fun _ ↦ List.mem_eraseDups, ?_⟩
  cases l with
  | nil => exact .nil
  | cons a rest =>
    have hrest := (firstSeen_eraseDups (rest.filter fun other ↦ !other == a)).increasing
    have hne {b : String} (hb : b ∈ (rest.filter fun other ↦ !other == a).eraseDups) : b ≠ a := by
      simpa using (List.mem_filter.1 (List.mem_eraseDups.1 hb)).2
    rw [List.eraseDups_cons, List.pairwise_cons]
    constructor
    · intro b hb
      rw [List.idxOf_cons_self, List.idxOf_cons_ne _ (hne hb).symm]
      exact Nat.succ_pos _
    · refine hrest.imp_of_mem fun hb hc hlt ↦ ?_
      rw [List.idxOf_cons_ne _ (hne hb).symm, List.idxOf_cons_ne _ (hne hc).symm]
      exact Nat.succ_lt_succ (idxOf_lt_of_filter (by simp [hne hc]) hlt)
termination_by l.length
decreasing_by exact Nat.lt_succ_of_le (List.length_filter_le ..)

/-- Behind a list without duplicates, those come that it does not have yet. -/
theorem eraseDups_append_of_nodup (h : l.Nodup) (names : List String) :
    (l ++ names).eraseDups = l ++ (names.filter (· ∉ l)).eraseDups := by
  have hfresh : names.removeAll l = names.filter (· ∉ l) := by
    simp [List.removeAll]
  rw [List.eraseDups_append, eraseDups_of_nodup h, hfresh]

theorem nodup_eraseDups (l : List String) : l.eraseDups.Nodup := (firstSeen_eraseDups l).nodup

theorem eraseDups_append_congr {l' r r' : List String} (hl : l.eraseDups = l'.eraseDups)
    (hr : r.eraseDups = r'.eraseDups) : (l ++ r).eraseDups = (l' ++ r').eraseDups := by
  have hmem (name : String) : name ∈ l ↔ name ∈ l' := by
    rw [← List.mem_eraseDups, hl, List.mem_eraseDups]
  have hfresh : (r.removeAll l).eraseDups = (r'.removeAll l').eraseDups := by
    unfold List.removeAll
    rw [eraseDups_filter, eraseDups_filter, hr]
    simp [hmem]
  rw [List.eraseDups_append, List.eraseDups_append, hl, hfresh]

theorem eraseDups_eraseDups (l : List String) : l.eraseDups.eraseDups = l.eraseDups :=
  eraseDups_of_nodup (nodup_eraseDups l)

end EraseDups

end TenantAccess
