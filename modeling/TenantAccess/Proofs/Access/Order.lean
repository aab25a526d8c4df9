import TenantAccess.Access.Subjects
import TenantAccess.Object.Resource
import TenantAccess.Proofs.Access.FirstSeen
import TenantAccess.Proofs.Access.Members

/-!
# Access from lists in another order

Access names no principal twice, and who is in it is a matter of what the tenants and inventories say.  So
if these are listed in another order, or with other metadata under the same keys, a binding has the same
subjects in another order.
-/

namespace TenantAccess

namespace AccessSet

variable {a b : AccessSet}

def Distinct (a : AccessSet) : Prop := a.users.Nodup ∧ a.groups.Nodup

theorem distinct_empty : empty.Distinct := ⟨.nil, .nil⟩

theorem distinct_new (users groups : List String) : (new users groups).Distinct :=
  ⟨nodup_eraseDups users, nodup_eraseDups groups⟩

theorem Distinct.subtract (h : a.Distinct) : (a.subtract b).Distinct :=
  ⟨h.1.filter _, h.2.filter _⟩

theorem Distinct.foldl_extendFrom {α : Type} {f : α → Principals} (h : a.Distinct) (l : List α) :
    (l.foldl (fun a x ↦ a.extendFrom (f x).users (f x).groups) a).Distinct := by
  induction l generalizing a with
  | nil => exact h
  | cons x rest ih => exact ih (distinct_new _ _)

theorem Distinct.perm_subjects (ha : a.Distinct) (hb : b.Distinct) (h : ∀ p, p ∈ a ↔ p ∈ b)
    (ns : Option String) : (a.subjects ns).Perm (b.subjects ns) := by
  have husers : a.users.Perm b.users :=
    (List.perm_ext_iff_of_nodup ha.1 hb.1).2 fun name ↦ h (.user name)
  have hgroups : a.groups.Perm b.groups :=
    (List.perm_ext_iff_of_nodup ha.2 hb.2).2 fun name ↦ h (.group name)
  exact (husers.filterMap _).append (hgroups.map _)

end AccessSet

theorem Tenant.distinct_access (t : Tenant) (inventories : List Inventory) (inputs : ReviewedAccess) :
    (t.access inventories inputs).Distinct :=
  (AccessSet.distinct_new _ _).subtract

theorem Inventory.distinct_access (i : Inventory) (tenants : List Tenant) :
    (i.access tenants).Distinct := by
  unfold access
  split
  · exact AccessSet.distinct_empty.foldl_extendFrom _
  · exact AccessSet.distinct_new _ _

/-! ## Lists with the same entries -/

/-- Each entry of one list has a match in the other. -/
structure Matched {α : Type} (R : α → α → Prop) (l l' : List α) : Prop where
  kept : ∀ a ∈ l, ∃ b ∈ l', R a b
  only : ∀ b ∈ l', ∃ a ∈ l, R a b

namespace Matched

variable {α : Type} {R : α → α → Prop} {l l' : List α}

theorem exists_iff (h : Matched R l l') {P P' : α → Prop} (hP : ∀ a b, R a b → (P a ↔ P' b)) :
    (∃ a ∈ l, P a) ↔ ∃ b ∈ l', P' b := by
  constructor
  · rintro ⟨a, ha, hPa⟩
    obtain ⟨b, hb, hab⟩ := h.kept a ha
    exact ⟨b, hb, (hP a b hab).1 hPa⟩
  · rintro ⟨b, hb, hPb⟩
    obtain ⟨a, ha, hab⟩ := h.only b hb
    exact ⟨a, ha, (hP a b hab).2 hPb⟩

end Matched

structure Tenant.Agrees (t t' : Tenant) : Prop where
  inventoryNamespace_eq : t.inventoryNamespace = t'.inventoryNamespace
  names_iff : ∀ p, t.developer.Names p ↔ t'.developer.Names p

structure Inventory.Agrees (i i' : Inventory) : Prop where
  ns?_eq : i.metadata.ns? = i'.metadata.ns?
  isUnset_eq : i.spec.authz.isUnset = i'.spec.authz.isUnset
  names_iff : ∀ p, i.spec.authz.Names p ↔ i'.spec.authz.Names p

structure ReviewedAccess.Agrees (r r' : ReviewedAccess) : Prop where
  serviceAdmin_iff : ∀ p, p ∈ r.serviceAdmin ↔ p ∈ r'.serviceAdmin
  developerReview_iff : ∀ p, p ∈ r.developerReview ↔ p ∈ r'.developerReview
  tenantList_iff : ∀ p, p ∈ r.tenantList ↔ p ∈ r'.tenantList

theorem ReviewedAccess.agrees_refl (r : ReviewedAccess) : r.Agrees r :=
  ⟨fun _ ↦ Iff.rfl, fun _ ↦ Iff.rfl, fun _ ↦ Iff.rfl⟩

section Agrees

variable {t t' : Tenant} {i i' : Inventory} {tenants tenants' : List Tenant}
  {inventories inventories' : List Inventory} {reviewed reviewed' : ReviewedAccess} {p : Principal}

theorem Tenant.mem_ownInventories {t : Tenant} {inventories : List Inventory} {i : Inventory} :
    i ∈ t.ownInventories inventories ↔
      i ∈ inventories ∧ i.metadata.ns? = some t.inventoryNamespace := by
  simp [ownInventories]

theorem Matched.ownInventories (h : Matched Inventory.Agrees inventories inventories')
    (ht : t.Agrees t') :
    Matched Inventory.Agrees (t.ownInventories inventories) (t'.ownInventories inventories') where
  kept i hi := by
    obtain ⟨hi, hns⟩ := Tenant.mem_ownInventories.1 hi
    obtain ⟨i', hi', hagrees⟩ := h.kept i hi
    refine ⟨i', Tenant.mem_ownInventories.2 ⟨hi', ?_⟩, hagrees⟩
    rw [← hagrees.ns?_eq, hns, ht.inventoryNamespace_eq]
  only i' hi' := by
    obtain ⟨hi', hns⟩ := Tenant.mem_ownInventories.1 hi'
    obtain ⟨i, hi, hagrees⟩ := h.only i' hi'
    refine ⟨i, Tenant.mem_ownInventories.2 ⟨hi, ?_⟩, hagrees⟩
    rw [hagrees.ns?_eq, hns, ht.inventoryNamespace_eq]

theorem Tenant.mem_access_of_agrees (ht : t.Agrees t')
    (h : Matched Inventory.Agrees inventories inventories') (hreviewed : reviewed.Agrees reviewed') :
    p ∈ t.access inventories reviewed ↔ p ∈ t'.access inventories' reviewed' := by
  have hown := h.ownInventories ht
  have hdeclared : (∃ i ∈ t.ownInventories inventories,
        i.spec.authz.isUnset = false ∧ i.spec.authz.Names p) ↔
      ∃ i ∈ t'.ownInventories inventories', i.spec.authz.isUnset = false ∧ i.spec.authz.Names p :=
    hown.exists_iff fun i i' hi ↦ by rw [hi.isUnset_eq, hi.names_iff]
  have hunset : (∃ i ∈ t.ownInventories inventories, i.spec.authz.isUnset) ↔
      ∃ i ∈ t'.ownInventories inventories', i.spec.authz.isUnset :=
    hown.exists_iff fun i i' hi ↦ by rw [hi.isUnset_eq]
  rw [mem_access, mem_access, mem_developerAccess, mem_developerAccess, hdeclared, hunset,
    ht.names_iff, hreviewed.serviceAdmin_iff, hreviewed.developerReview_iff,
    hreviewed.tenantList_iff]

theorem Inventory.mem_access_of_agrees (hi : i.Agrees i')
    (h : Matched Tenant.Agrees tenants tenants') : p ∈ i.access tenants ↔ p ∈ i'.access tenants' := by
  have hdeveloper : (∃ t ∈ tenants,
        t.inventoryNamespace = i.metadata.ns?.getD "" ∧ t.developer.Names p) ↔
      ∃ t ∈ tenants', t.inventoryNamespace = i'.metadata.ns?.getD "" ∧ t.developer.Names p :=
    h.exists_iff fun t t' ht ↦ by rw [ht.inventoryNamespace_eq, ht.names_iff, hi.ns?_eq]
  rw [mem_access, mem_access, hi.isUnset_eq, hi.names_iff, hdeveloper]

end Agrees

/-! ## Objects under the same keys -/

/-- The object `b` is `a` with other metadata under the same key. -/
def Refiled {α : Type} [Resource α] (a b : α) : Prop :=
  ∃ m : ObjectMeta, m.key = (Resource.metadata a).key ∧ b = Resource.withMeta a m

/-- Both lists hold the same objects, in any order and with any metadata under the same keys. -/
structure Refiles {α : Type} [Resource α] (l l' : List α) : Prop where
  kept : ∀ a ∈ l, ∃ b ∈ l', Refiled a b
  only : ∀ b ∈ l', ∃ a ∈ l, Refiled a b

namespace Refiles

variable {α : Type} [Resource α] {l l' : List α}

theorem matched (h : Refiles l l') {R : α → α → Prop} (hR : ∀ a b, Refiled a b → R a b) :
    Matched R l l' where
  kept a ha := by
    obtain ⟨b, hb, hab⟩ := h.kept a ha
    exact ⟨b, hb, hR a b hab⟩
  only b hb := by
    obtain ⟨a, ha, hab⟩ := h.only b hb
    exact ⟨a, ha, hR a b hab⟩

theorem exists_iff (h : Refiles l l') {P P' : α → Prop} (hP : ∀ a b, Refiled a b → (P a ↔ P' b)) :
    (∃ a ∈ l, P a) ↔ ∃ b ∈ l', P' b :=
  (h.matched fun _ _ ↦ id).exists_iff hP

theorem filter (h : Refiles l l') {p : α → Bool} (hp : ∀ a b, Refiled a b → p a = p b) :
    Refiles (l.filter p) (l'.filter p) where
  kept a ha := by
    obtain ⟨ha, hpa⟩ := List.mem_filter.1 ha
    obtain ⟨b, hb, hab⟩ := h.kept a ha
    exact ⟨b, List.mem_filter.2 ⟨hb, hp a b hab ▸ hpa⟩, hab⟩
  only b hb := by
    obtain ⟨hb, hpb⟩ := List.mem_filter.1 hb
    obtain ⟨a, ha, hab⟩ := h.only b hb
    exact ⟨a, List.mem_filter.2 ⟨ha, (hp a b hab).trans hpb⟩, hab⟩

theorem eq_nil_iff (h : Refiles l l') : l = [] ↔ l' = [] := by
  simp only [List.eq_nil_iff_forall_not_mem]
  constructor
  · intro hnone b hb
    obtain ⟨a, ha, -⟩ := h.only b hb
    exact hnone a ha
  · intro hnone a ha
    obtain ⟨b, hb, -⟩ := h.kept a ha
    exact hnone b hb

end Refiles

section Refiled

variable {t t' : Tenant} {i i' : Inventory} {tenants tenants' : List Tenant}
  {inventories inventories' : List Inventory} {p : Principal}

theorem Refiled.tenant_eq (h : Refiled t t') : t'.inventoryNamespace = t.inventoryNamespace ∧
    t'.developer = t.developer ∧ t'.metadata.name = t.metadata.name := by
  obtain ⟨m, hkey, rfl⟩ := h
  exact ⟨rfl, rfl, congrArg ObjectKey.name hkey⟩

theorem Refiled.inventory_eq (h : Refiled i i') :
    i'.spec = i.spec ∧ i'.metadata.ns? = i.metadata.ns? ∧ i'.metadata.name = i.metadata.name := by
  obtain ⟨m, hkey, rfl⟩ := h
  exact ⟨rfl, congrArg ObjectKey.ns? hkey, congrArg ObjectKey.name hkey⟩

theorem Refiled.tenant_agrees (h : Refiled t t') : t.Agrees t' := by
  obtain ⟨hns, hdeveloper, -⟩ := h.tenant_eq
  exact ⟨hns.symm, fun p ↦ by rw [hdeveloper]⟩

theorem Refiled.inventory_agrees (h : Refiled i i') : i.Agrees i' := by
  obtain ⟨hspec, hns, -⟩ := h.inventory_eq
  exact ⟨hns.symm, by rw [hspec], fun p ↦ by rw [hspec]⟩

theorem Tenant.mem_access_of_refiles (h : Refiles inventories inventories') (ht : Refiled t t')
    (inputs : ReviewedAccess) :
    p ∈ t.access inventories inputs ↔ p ∈ t'.access inventories' inputs :=
  mem_access_of_agrees ht.tenant_agrees (h.matched fun _ _ ↦ Refiled.inventory_agrees)
    inputs.agrees_refl

theorem Inventory.mem_access_of_refiles (h : Refiles tenants tenants') (hi : Refiled i i') :
    p ∈ i.access tenants ↔ p ∈ i'.access tenants' :=
  mem_access_of_agrees hi.inventory_agrees (h.matched fun _ _ ↦ Refiled.tenant_agrees)

end Refiled

end TenantAccess
