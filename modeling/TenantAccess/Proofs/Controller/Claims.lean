import TenantAccess.Claims
import TenantAccess.Proofs.Store.Coherent

/-!
# What published claims record

Claims record exactly the tenants from which they were published.  A namespace that loses its last
tenant between two publications is released.
-/

namespace TenantAccess

open Std

deriving instance DecidableEq for Claims

namespace SortedMap

variable {α β : Type} [Ord α] [LawfulEqOrd α]

theorem mem_keys_iff {m : SortedMap α β} {k : α} : k ∈ m.keys ↔ ∃ v, m.get? k = some v := by
  simp only [keys, List.mem_map]
  constructor
  · rintro ⟨⟨k', v⟩, hmem, rfl⟩
    exact ⟨v, mem_entries_iff.1 hmem⟩
  · rintro ⟨v, h⟩
    exact ⟨(k, v), mem_entries_iff.2 h, rfl⟩

theorem contains_eq_true_iff {m : SortedMap α β} {k : α} : m.contains k ↔ k ∈ m.keys := by
  rw [mem_keys_iff, contains, Option.isSome_iff_exists]

theorem mem_keys_filter_iff {m : SortedMap α β} {p : α → β → Bool} {k : α} :
    k ∈ (m.filter p).keys ↔ ∃ v, m.get? k = some v ∧ p k v := by
  simp only [keys, filter, List.mem_map, List.mem_filter]
  constructor
  · rintro ⟨⟨k', v⟩, ⟨hmem, hp⟩, rfl⟩
    exact ⟨v, mem_entries_iff.1 hmem, hp⟩
  · rintro ⟨v, h, hp⟩
    exact ⟨(k, v), ⟨mem_entries_iff.2 h, hp⟩, rfl⟩

end SortedMap

theorem SortedSet.contains_add_iff {α : Type} [Ord α] [TransOrd α] [LawfulEqOrd α] [DecidableEq α]
    {s : SortedSet α} {a b : α} : (s.add a).contains b ↔ b = a ∨ s.contains b := by
  unfold add SortedMap.contains
  rw [SortedMap.get?_insert_eq]
  by_cases h : b = a <;> simp [h]

theorem SortedSet.mem_keys_ofList_iff {α : Type} [Ord α] [TransOrd α] [LawfulEqOrd α]
    [DecidableEq α] {l : List α} {a : α} : a ∈ (ofList l).keys ↔ a ∈ l := by
  have hfold (s : SortedSet α) : (l.foldl add s).contains a ↔ a ∈ l ∨ s.contains a := by
    induction l generalizing s with
    | nil => simp
    | cons b rest ih =>
      rw [List.foldl_cons, ih, contains_add_iff, List.mem_cons, or_left_comm, or_assoc]
  rw [← SortedMap.contains_eq_true_iff, ofList, hfold]
  simp [SortedMap.contains]

namespace Claims

variable {c previous : Claims} {l : List Tenant} {tenant ns : String}

/-- The claims `c` record that `tenant` claims `ns`. -/
def Records (c : Claims) (tenant ns : String) : Prop :=
  ((c.namespaces.get? ns).getD ∅).contains tenant

theorem mem_namespacesOf_iff : ns ∈ c.namespacesOf tenant ↔ c.Records tenant ns := by
  unfold namespacesOf Records
  rw [SortedMap.mem_keys_filter_iff]
  cases c.namespaces.get? ns with
  | none => simp [SortedMap.contains, EmptyCollection.emptyCollection]
  | some s => simp

theorem contains_claim_iff (m : SortedMap String (SortedSet String)) (t : Tenant) :
    (((claim m t).get? ns).getD ∅).contains tenant ↔
      (t.metadata.name = tenant ∧ t.inventoryNamespace = ns) ∨
        ((m.get? ns).getD ∅).contains tenant := by
  unfold claim
  rw [SortedMap.get?_insert_eq]
  by_cases hns : ns = t.inventoryNamespace
  · subst hns
    rw [if_pos rfl, Option.getD_some, SortedSet.contains_add_iff, eq_comm (a := tenant)]
    simp
  · simp [hns, Ne.symm hns]

theorem contains_foldl_claim_iff (m : SortedMap String (SortedSet String)) :
    (((l.foldl claim m).get? ns).getD ∅).contains tenant ↔
      (∃ t ∈ l, t.metadata.name = tenant ∧ t.inventoryNamespace = ns) ∨
        ((m.get? ns).getD ∅).contains tenant := by
  induction l generalizing m with
  | nil => simp
  | cons t rest ih =>
    rw [List.foldl_cons, ih, contains_claim_iff, or_left_comm, ← or_assoc]
    simp

theorem records_ofTenants_iff {version : Nat} :
    (ofTenants version l).Records tenant ns ↔
      ∃ t ∈ l, t.metadata.name = tenant ∧ t.inventoryNamespace = ns := by
  unfold Records ofTenants
  rw [contains_foldl_claim_iff]
  simp [SortedMap.contains, EmptyCollection.emptyCollection]

theorem contains_of_records (h : c.Records tenant ns) : c.contains ns := by
  unfold Records at h
  unfold contains SortedMap.contains
  cases hget : c.namespaces.get? ns with
  | none => simp [hget, SortedMap.contains, EmptyCollection.emptyCollection] at h
  | some s => rfl

theorem contains_ofTenants_iff {version : Nat} :
    (ofTenants version l).contains ns ↔ ∃ t ∈ l, t.inventoryNamespace = ns := by
  have hfold (m : SortedMap String (SortedSet String)) : (l.foldl claim m).contains ns ↔
      (∃ t ∈ l, t.inventoryNamespace = ns) ∨ m.contains ns := by
    induction l generalizing m with
    | nil => simp
    | cons t rest ih =>
      have hclaim : (claim m t).contains ns ↔ t.inventoryNamespace = ns ∨ m.contains ns := by
        unfold claim SortedMap.contains
        rw [SortedMap.get?_insert_eq]
        by_cases hns : ns = t.inventoryNamespace
        · simp [hns]
        · simp [hns, Ne.symm hns]
      rw [List.foldl_cons, ih, hclaim, or_left_comm, ← or_assoc]
      simp
  have hempty : (∅ : SortedMap String (SortedSet String)).contains ns = false := rfl
  have hpublish := hfold ∅
  rw [hempty, or_iff_left Bool.false_ne_true] at hpublish
  exact hpublish

theorem mem_releasedSince_iff :
    ns ∈ c.releasedSince previous ↔ previous.contains ns ∧ c.contains ns = false := by
  unfold releasedSince contains
  rw [List.mem_filter, SortedMap.contains_eq_true_iff]
  simp

end Claims

end TenantAccess
