import TenantAccess.Access.Derivation

/-!
# Members of access sets

Whether a principal is in an access set does not depend on order or repetition.  Each operation on
access sets, and each derivation of access, says who is in its result.
-/

namespace TenantAccess

inductive Principal where
  | user (name : String)
  | group (name : String)
deriving DecidableEq

def Principal.Among (p : Principal) (users groups : List String) : Prop :=
  match p with
  | user name => name ∈ users
  | group name => name ∈ groups

instance (p : Principal) (users groups : List String) : Decidable (p.Among users groups) :=
  match p with
  | .user name => inferInstanceAs (Decidable (name ∈ users))
  | .group name => inferInstanceAs (Decidable (name ∈ groups))

def Principals.Names (d : Principals) (p : Principal) : Prop := p.Among d.users d.groups

namespace AccessSet

variable {a b : AccessSet} {p : Principal}

instance : Membership Principal AccessSet := ⟨fun a p ↦ p.Among a.users a.groups⟩

instance : HasSubset AccessSet := ⟨fun a b ↦ ∀ p, p ∈ a → p ∈ b⟩

instance (p : Principal) (a : AccessSet) : Decidable (p ∈ a) :=
  inferInstanceAs (Decidable (p.Among a.users a.groups))

theorem mem_def : p ∈ a ↔ p.Among a.users a.groups := Iff.rfl

@[simp] theorem not_mem_empty : p ∉ AccessSet.empty := by
  cases p <;> exact List.not_mem_nil

theorem not_mem_of_isEmpty (h : a.isEmpty) : p ∉ a := by
  obtain ⟨husers, hgroups⟩ := Bool.and_eq_true_iff.1 h
  intro hp
  cases p with
  | user name =>
    have hname : name ∈ a.users := hp
    rw [List.isEmpty_iff.1 husers] at hname
    cases hname
  | group name =>
    have hname : name ∈ a.groups := hp
    rw [List.isEmpty_iff.1 hgroups] at hname
    cases hname

@[simp] theorem mem_extendFrom {users groups : List String} :
    p ∈ a.extendFrom users groups ↔ p ∈ a ∨ p.Among users groups := by
  cases p <;> simp [mem_def, Principal.Among, extendFrom, new]

@[simp] theorem mem_union : p ∈ a.union b ↔ p ∈ a ∨ p ∈ b := mem_extendFrom

@[simp] theorem mem_subtract : p ∈ a.subtract b ↔ p ∈ a ∧ p ∉ b := by
  cases p <;> simp [mem_def, Principal.Among, subtract]

@[simp] theorem mem_intersect : p ∈ a.intersect b ↔ p ∈ a ∧ p ∈ b := by
  cases p <;> simp [mem_def, Principal.Among, intersect]

@[simp] theorem mem_ofPrincipals {d : Principals} : p ∈ ofPrincipals d ↔ d.Names p := by
  cases p <;> simp [mem_def, Principal.Among, ofPrincipals, new, Principals.Names]

theorem mem_foldl_extendFrom {α : Type} {f : α → Principals} {l : List α} :
    p ∈ l.foldl (fun a x ↦ a.extendFrom (f x).users (f x).groups) a ↔
      p ∈ a ∨ ∃ x ∈ l, (f x).Names p := by
  induction l generalizing a with
  | nil => simp
  | cons x rest ih =>
    rw [List.foldl_cons, ih, mem_extendFrom, or_assoc]
    simp [Principals.Names]

end AccessSet

section Derivation

variable {p : Principal}

/-- A developer of a tenant is one by review, by a declaration of one of its inventories, or by
default where one of them declares nothing. -/
theorem Tenant.mem_developerAccess {t : Tenant} {inventories : List Inventory}
    {review : AccessSet} :
    p ∈ t.developerAccess inventories review ↔ p ∈ review ∨
      (∃ i ∈ t.ownInventories inventories, i.spec.authz.isUnset = false ∧ i.spec.authz.Names p) ∨
      (∃ i ∈ t.ownInventories inventories, i.spec.authz.isUnset) ∧ t.developer.Names p := by
  have hdeclared : p ∈ ((t.ownInventories inventories).filter (!·.spec.authz.isUnset)).foldl
      (fun a i ↦ a.extendFrom i.spec.authz.users i.spec.authz.groups) review ↔ p ∈ review ∨
      ∃ i ∈ t.ownInventories inventories, i.spec.authz.isUnset = false ∧
        i.spec.authz.Names p := by
    rw [AccessSet.mem_foldl_extendFrom (f := fun i : Inventory ↦ i.spec.authz)]
    simp [and_assoc]
  unfold developerAccess
  cases hany : (t.ownInventories inventories).any (·.spec.authz.isUnset) with
  | true =>
    have hunset : ∃ i ∈ t.ownInventories inventories, i.spec.authz.isUnset :=
      List.any_eq_true.1 hany
    rw [if_pos hany, AccessSet.mem_extendFrom, hdeclared, or_assoc]
    exact or_congr_right (or_congr_right ⟨fun h ↦ ⟨hunset, h⟩, fun h ↦ h.2⟩)
  | false =>
    have hunset : ¬∃ i ∈ t.ownInventories inventories, i.spec.authz.isUnset := by
      intro h
      rw [List.any_eq_true.2 h] at hany
      cases hany
    rw [if_neg (by simp [hany]), hdeclared]
    refine or_congr_right ⟨.inl, fun h ↦ h.resolve_right ?_⟩
    exact fun h ↦ hunset h.1

theorem Tenant.mem_access {t : Tenant} {inventories : List Inventory} {inputs : ReviewedAccess} :
    p ∈ t.access inventories inputs ↔ (p ∈ inputs.serviceAdmin ∨
      p ∈ t.developerAccess inventories inputs.developerReview) ∧ p ∉ inputs.tenantList := by
  rw [access, AccessSet.mem_subtract, AccessSet.mem_union]

/-- Access to an inventory is declared, or inherited from a tenant that claims its namespace. -/
theorem Inventory.mem_access {i : Inventory} {tenants : List Tenant} :
    p ∈ i.access tenants ↔
      if i.spec.authz.isUnset then
        ∃ t ∈ tenants, t.inventoryNamespace = i.metadata.ns?.getD "" ∧ t.developer.Names p
      else i.spec.authz.Names p := by
  unfold access
  split
  · rw [AccessSet.mem_foldl_extendFrom (f := Tenant.developer)]
    simp [and_assoc]
  · exact AccessSet.mem_ofPrincipals

end Derivation

end TenantAccess
