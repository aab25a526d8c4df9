import TenantAccess.Proofs.Document.Conditions
import TenantAccess.Selection.Selector

/-!
# Who is elected, and who stands in the way

A config is blocked by the smallest of the other active configs, unless it is active itself under a
smaller name.  Setting the condition of readiness decides whether a config is active.
-/

namespace TenantAccess

open Std

theorem compare_eq_lt_iff {a b : String} : compare a b = .lt ↔ a < b :=
  compareOfLessAndEq_eq_lt

section Smallest

variable {α κ : Type} [Ord κ] {key : α → κ} {l : List α} {a b : α}

theorem smallestBy_eq_none_iff : smallestBy key l = none ↔ l = [] := by
  cases l with
  | nil => simp [smallestBy]
  | cons a rest =>
    rw [smallestBy]
    split
    · simp
    · split <;> simp

theorem mem_of_smallestBy (h : smallestBy key l = some a) : a ∈ l := by
  induction l generalizing a with
  | nil => simp [smallestBy] at h
  | cons b rest ih =>
    rw [smallestBy] at h
    split at h
    · cases h
      exact List.mem_cons_self
    · next c hc =>
      split at h
      · cases h
        exact List.mem_cons_of_mem _ (ih hc)
      · cases h
        exact List.mem_cons_self

theorem not_lt_smallestBy [TransOrd κ] (h : smallestBy key l = some a) (hb : b ∈ l) :
    compare (key b) (key a) ≠ .lt := by
  induction l generalizing a with
  | nil => simp at hb
  | cons c rest ih =>
    rw [smallestBy] at h
    split at h
    · next hnone =>
      cases h
      rw [smallestBy_eq_none_iff.1 hnone, List.mem_singleton] at hb
      simp [hb, compare_self]
    · next d hd =>
      rcases List.mem_cons.1 hb with rfl | hb
      · split at h
        · next hlt =>
          cases h
          rw [OrientedCmp.gt_of_lt hlt]
          decide
        · cases h
          simp [compare_self]
      · split at h
        · cases h
          exact ih hd hb
        · next hle =>
          cases h
          intro hlt
          -- `b` would come before the head, which does not come after `d`
          have hge : (compare (key d) (key c)).isGE := by
            revert hle
            cases compare (key d) (key c) <;> decide
          exact ih hd hb (TransCmp.lt_of_lt_of_isLE hlt (OrientedCmp.isLE_of_isGE hge))

end Smallest

namespace Config

variable {c o : Config} {configs : List Config} {name : String}

def rivals (c : Config) (configs : List Config) : List String :=
  (configs.filter fun o ↦ o.metadata.name ≠ c.metadata.name && o.isActive).map (·.metadata.name)

theorem mem_rivals_iff :
    name ∈ c.rivals configs ↔
      ∃ o ∈ configs, o.isActive ∧ o.metadata.name = name ∧ name ≠ c.metadata.name := by
  simp only [rivals, List.mem_map, List.mem_filter, Bool.and_eq_true, decide_eq_true_eq]
  constructor
  · rintro ⟨o, ⟨ho, hne, hactive⟩, rfl⟩
    exact ⟨o, ho, hactive, rfl, hne⟩
  · rintro ⟨o, ho, hactive, rfl, hne⟩
    exact ⟨o, ⟨ho, hne, hactive⟩, rfl⟩

theorem blocking?_eq (c : Config) (configs : List Config) :
    c.blocking? configs = (smallestBy id (c.rivals configs)).filter fun other ↦
      !(c.isActive && c.metadata.name < other) := rfl

theorem mem_rivals_of_blocking? (h : c.blocking? configs = some name) :
    name ∈ c.rivals configs := by
  rw [blocking?_eq] at h
  exact mem_of_smallestBy (Option.filter_eq_some_iff.1 h).1

theorem blocking?_eq_none_of_rivals (h : c.rivals configs = []) :
    c.blocking? configs = none := by
  rw [blocking?_eq, h]
  rfl

/-- An active rival blocks every config that is not active under a smaller name. -/
theorem exists_blocking? (ho : o ∈ configs) (hactive : o.isActive)
    (hne : o.metadata.name ≠ c.metadata.name)
    (hname : c.isActive → o.metadata.name < c.metadata.name) :
    ∃ name, c.blocking? configs = some name := by
  have hrival : o.metadata.name ∈ c.rivals configs :=
    mem_rivals_iff.2 ⟨o, ho, hactive, rfl, hne⟩
  cases hsmallest : smallestBy id (c.rivals configs) with
  | none =>
    rw [smallestBy_eq_none_iff.1 hsmallest] at hrival
    cases hrival
  | some other =>
    refine ⟨other, ?_⟩
    rw [blocking?_eq, hsmallest, Option.filter_eq_some_iff]
    refine ⟨rfl, ?_⟩
    cases hc : c.isActive with
    | false => rfl
    | true =>
      have hle : ¬o.metadata.name < other := fun hlt ↦
        not_lt_smallestBy hsmallest hrival (compare_eq_lt_iff.2 hlt)
      have hnot : ¬c.metadata.name < other := fun hlt ↦
        hle (String.lt_trans (hname hc) hlt)
      simp [hnot]

theorem lt_of_blocking? (h : c.blocking? configs = some name) (hc : c.isActive) :
    name < c.metadata.name := by
  have hne : name ≠ c.metadata.name := by
    obtain ⟨_, -, -, -, hne⟩ := mem_rivals_iff.1 (mem_rivals_of_blocking? h)
    exact hne
  rw [blocking?_eq] at h
  have hnot : ¬c.metadata.name < name := by
    simpa [hc] using (Option.filter_eq_some_iff.1 h).2
  exact Std.lt_of_le_of_ne (String.not_lt.1 hnot) hne

/-- The first of the active configs blocks all others. -/
theorem blocking?_of_least {l : Config} (hl : l ∈ configs) (hactive : l.isActive)
    (hleast : ∀ o ∈ configs, o.isActive → ¬o.metadata.name < l.metadata.name) (hc : c ∈ configs)
    (hne : c.metadata.name ≠ l.metadata.name) : c.blocking? configs = some l.metadata.name := by
  obtain ⟨name, hblocking⟩ := exists_blocking? hl hactive (Ne.symm hne) fun hcactive ↦
    Std.lt_of_le_of_ne (String.not_lt.1 (hleast c hc hcactive)) (Ne.symm hne)
  obtain ⟨o, ho, hoactive, rfl, -⟩ := mem_rivals_iff.1 (mem_rivals_of_blocking? hblocking)
  have hsmallest : ¬l.metadata.name < o.metadata.name := by
    rw [blocking?_eq] at hblocking
    have hrival : l.metadata.name ∈ c.rivals configs :=
      mem_rivals_iff.2 ⟨l, hl, hactive, rfl, Ne.symm hne⟩
    exact fun hlt ↦ not_lt_smallestBy (Option.filter_eq_some_iff.1 hblocking).1 hrival
      (compare_eq_lt_iff.2 hlt)
  rw [hblocking, Std.le_antisymm (String.not_lt.1 hsmallest) (String.not_lt.1 (hleast o ho hoactive))]

theorem blocking?_eq_none
    (h : ∀ o ∈ configs, o.isActive → c.isActive ∧ ¬o.metadata.name < c.metadata.name) :
    c.blocking? configs = none := by
  cases hblocking : c.blocking? configs with
  | none => rfl
  | some name =>
    obtain ⟨o, ho, hoactive, rfl, -⟩ := mem_rivals_iff.1 (mem_rivals_of_blocking? hblocking)
    obtain ⟨hactive, hnot⟩ := h o ho hoactive
    exact absurd (lt_of_blocking? hblocking hactive) hnot

theorem active?_eq_none_iff : active? configs = none ↔ ∀ c ∈ configs, c.isActive = false := by
  rw [active?, smallestBy_eq_none_iff, List.filter_eq_nil_iff]
  simp

/-- A config with a condition set is active if the condition says so. -/
theorem isActive_set (c : Config) {condition : Condition}
    (h : condition.type = readyCondition) :
    isActive { c with conditions := condition.set c.conditions } =
      decide (condition.status = .true) := by
  rw [isActive, ← h]
  exact Condition.isTrue_set condition c.conditions

theorem isActive_of_not_changes {condition : Condition}
    (hchanges : condition.changes c.conditions = false) (h : condition.type = readyCondition) :
    c.isActive = decide (condition.status = .true) := by
  rw [isActive, ← h]
  exact Condition.isTrue_of_not_changes hchanges

end Config

end TenantAccess
