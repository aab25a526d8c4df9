import TenantAccess.Proofs.Rbac.Ensure

/-!
# Derived objects and their owners

Roles and bindings are derived from inventories and tenants.  Each has one owner, the stored object
from whose name its own is built.  Writing tenants, inventories and derived objects keeps it so, and
so does a deletion, which takes along what loses its owner.
-/

namespace TenantAccess

open Store

/-- A type is that of all objects of its kind. -/
class Resource.Native (α : Type) [Resource α] : Prop where
  exists_object (a : α) :
    ∃ o : (Resource.kind α).Object, Resource.encode a = Resource.encode o
  exists_native (o : (Resource.kind α).Object) : ∃ a : α, Resource.encode o = Resource.encode a

instance : Resource.Native Tenant := ⟨fun t ↦ ⟨t, rfl⟩, fun t ↦ ⟨t, rfl⟩⟩

instance : Resource.Native Inventory := ⟨fun i ↦ ⟨i, rfl⟩, fun i ↦ ⟨i, rfl⟩⟩

instance (s : Scope) : Resource.Native (Role s) :=
  match s with
  | .namespaced => ⟨fun r ↦ ⟨r, rfl⟩, fun r ↦ ⟨r, rfl⟩⟩
  | .cluster => ⟨fun r ↦ ⟨r, rfl⟩, fun r ↦ ⟨r, rfl⟩⟩

instance (s : Scope) : Resource.Native (Binding s) :=
  match s with
  | .namespaced => ⟨fun b ↦ ⟨b, rfl⟩, fun b ↦ ⟨b, rfl⟩⟩
  | .cluster => ⟨fun b ↦ ⟨b, rfl⟩, fun b ↦ ⟨b, rfl⟩⟩

instance : (k : Kind) → Resource.Native k.Object
  | .tenant => inferInstanceAs (Resource.Native Tenant)
  | .inventory => inferInstanceAs (Resource.Native Inventory)
  | .config => ⟨fun c ↦ ⟨c, rfl⟩, fun c ↦ ⟨c, rfl⟩⟩
  | .role => inferInstanceAs (Resource.Native (Role .namespaced))
  | .roleBinding => inferInstanceAs (Resource.Native (Binding .namespaced))
  | .clusterRole => inferInstanceAs (Resource.Native (Role .cluster))
  | .clusterRoleBinding => inferInstanceAs (Resource.Native (Binding .cluster))
  | .resourceQuota => ⟨fun q ↦ ⟨q, rfl⟩, fun q ↦ ⟨q, rfl⟩⟩

/-- The kind from which the objects of a kind are derived, and how their names are built. -/
def Kind.origin : Kind → Option (Kind × (String → String))
  | role => some (inventory, inventoryRoleName)
  | roleBinding => some (inventory, fun name ↦ bindingName (inventoryRoleName name))
  | clusterRole => some (tenant, tenantRoleName)
  | clusterRoleBinding => some (tenant, fun name ↦ bindingName (tenantRoleName name))
  | _ => none

theorem inventoryRoleName_injective {a b : String}
    (h : inventoryRoleName a = inventoryRoleName b) : a = b := by
  simpa [inventoryRoleName, String.toList_inj] using congrArg String.toList h

theorem tenantRoleName_injective {a b : String} (h : tenantRoleName a = tenantRoleName b) :
    a = b := by
  simpa [tenantRoleName, String.toList_inj] using congrArg String.toList h

theorem bindingName_injective {a b : String} (h : bindingName a = bindingName b) : a = b := by
  simpa [bindingName, String.toList_inj] using congrArg String.toList h

theorem inventoryRoleName_ne_empty (name : String) : inventoryRoleName name ≠ "" := fun h ↦ by
  simpa [inventoryRoleName] using congrArg String.toList h

theorem tenantRoleName_ne_empty (name : String) : tenantRoleName name ≠ "" := fun h ↦ by
  simpa [tenantRoleName] using congrArg String.toList h

theorem bindingName_ne_empty (role : String) : bindingName role ≠ "" := fun h ↦ by
  simpa [bindingName] using congrArg String.toList h

theorem Kind.origin_injective {kind ownerKind : Kind} {name : String → String}
    (h : kind.origin = some (ownerKind, name)) {a b : String} (heq : name a = name b) : a = b := by
  cases kind <;> cases h
  · exact inventoryRoleName_injective heq
  · exact inventoryRoleName_injective (bindingName_injective heq)
  · exact tenantRoleName_injective heq
  · exact tenantRoleName_injective (bindingName_injective heq)

/-- The one owner that `m` refers to is stored as `owner` with metadata `c`. -/
def Store.OwnerIs (s : Store) (m : ObjectMeta) (owner : ObjectRef) (c : ObjectMeta) : Prop :=
  s.HasMeta owner c ∧ ∃ r, m.ownerReferences = [r] ∧ r.uid = c.uid

/-- Every document is one of its kind, and every derived object belongs to its origin. -/
structure Derivation (s : Store) : Prop where
  coherent : s.Coherent
  named : s.Named
  native : ∀ ref object, s.objects.get? ref = some object →
    ∃ o : ref.kind.Object, object = Resource.encode o
  owned : ∀ ref m ownerKind name, s.HasMeta ref m → ref.kind.origin = some (ownerKind, name) →
    ∃ key c, s.OwnerIs m ⟨ownerKind, key⟩ c ∧ ref.key = ⟨key.ns?, name key.name⟩

namespace Derivation

variable {s after : Store}

section Writes

variable {β : Type} [Resource β] [Resource.Lawful β] [Resource.Native β] {b : β}

omit [Resource.Lawful β] in
theorem encodes (h : Derivation s) : s.Encodes β := by
  intro key object hget
  obtain ⟨o, rfl⟩ := h.native _ _ hget
  exact Resource.Native.exists_native o

/-- An accepted write keeps the rule if it keeps identities, and derived objects with their
origins. -/
theorem recorded (h : Derivation s) (type : EventType) (issued : Nat)
    (hcoherent : (s.recorded type b issued).Coherent) (hnamed : (s.recorded type b issued).Named)
    (huid : ∀ m, s.HasMeta (Resource.ref b) m → m.uid = (Resource.metadata b).uid)
    (hkind : ∀ ownerKind name, (Resource.kind β).origin = some (ownerKind, name) →
      ∃ key c, s.OwnerIs (Resource.metadata b) ⟨ownerKind, key⟩ c ∧
        Resource.key b = ⟨key.ns?, name key.name⟩) :
    Derivation (s.recorded type b issued) := by
  -- an owner stays, perhaps with new metadata but with its identity
  have howner {owner : ObjectRef} {c m : ObjectMeta} (hc : s.OwnerIs m owner c) :
      ∃ c', (s.recorded type b issued).OwnerIs m owner c' := by
    obtain ⟨hc, r, hr, hruid⟩ := hc
    by_cases href : owner = Resource.ref b
    · refine ⟨Resource.metadata b, hasMeta_recorded_iff.2 (.inl ⟨href, rfl⟩), r, hr, ?_⟩
      rw [hruid]
      exact huid c (href ▸ hc)
    · exact ⟨c, hasMeta_recorded_iff.2 (.inr ⟨href, hc⟩), r, hr, hruid⟩
  refine ⟨hcoherent, hnamed, fun ref object hget ↦ ?_, fun ref m ownerKind name hm horigin ↦ ?_⟩
  · rw [get?_recorded] at hget
    split at hget
    · next href =>
      cases hget
      subst href
      exact Resource.Native.exists_object b
    · exact h.native ref object hget
  · rcases hasMeta_recorded_iff.1 hm with ⟨rfl, rfl⟩ | ⟨-, hm⟩
    · obtain ⟨key, c, hc, hkey⟩ := hkind ownerKind name horigin
      obtain ⟨c', hc'⟩ := howner hc
      exact ⟨key, c', hc', hkey⟩
    · obtain ⟨key, c, hc, hkey⟩ := h.owned ref m ownerKind name hm horigin
      obtain ⟨c', hc'⟩ := howner hc
      exact ⟨key, c', hc', hkey⟩

theorem create (h : Derivation s) {env : Ambient} (henv : ∀ n, env.uid n ≠ "")
    (hscope : scopeDefect (Resource.kind β) (Resource.metadata b) = none)
    (hnone : s.objects.get? (Resource.ref b) = none) (horigin : (Resource.kind β).origin = none) :
    Derivation (s.recorded .added (asNew env s b) (s.issuedWith (Resource.metadata b))) := by
  refine h.recorded _ _ (h.coherent.create hscope _) (named_create h.named henv b _) ?_ ?_
  · rintro m ⟨object, hget, -⟩
    rw [ref_asNew, hnone] at hget
    cases hget
  · intro ownerKind name hsome
    rw [horigin] at hsome
    cases hsome

theorem update (h : Derivation s) {c : ObjectMeta} (hc : s.HasMeta (Resource.ref b) c)
    (hscope : scopeDefect (Resource.kind β) (Resource.metadata b) = none)
    (horigin : (Resource.kind β).origin = none) :
    Derivation (s.recorded .modified (asUpdate s c b) s.issued) := by
  refine h.recorded _ _ (h.coherent.update hscope _) (named_update h.named hc _) ?_ ?_
  · intro m hm
    rw [ref_asUpdate] at hm
    rw [metadata_asUpdate, hm.unique hc]
    rfl
  · intro ownerKind name hsome
    rw [horigin] at hsome
    cases hsome

end Writes

/-- A deletion takes along every derived object whose owner goes. -/
theorem sweep (h : Derivation s) {work : List ObjectRef} (hswept : Swept s work after) :
    Derivation after := by
  refine ⟨hswept.coherent h.coherent, hswept.named h.named,
    fun ref object hget ↦ h.native ref object (hswept.kept ref object hget),
    fun ref m ownerKind name hm horigin ↦ ?_⟩
  obtain ⟨key, c, ⟨hc, r, hr, hruid⟩, hkey⟩ :=
    h.owned ref m ownerKind name (hswept.hasMeta hm) horigin
  refine ⟨key, c, ⟨?_, r, hr, hruid⟩, hkey⟩
  obtain ⟨object, hget, hmeta⟩ := id hc
  rcases hswept.get?_eq ⟨ownerKind, key⟩ with heq | hnone
  · exact ⟨object, heq.trans hget, hmeta⟩
  · -- the derived object would have gone with its owner
    have hnot := hswept.closed _ c hc hnone ref m hm
    have howned : m.isOwnedBy c.uid = true := by
      have hne : c.uid ≠ "" := h.named _ _ hc
      simp [ObjectMeta.isOwnedBy, hne, hr, hruid]
    rw [howned] at hnot
    cases hnot

end Derivation

theorem derivation_empty : Derivation .empty where
  coherent := coherent_empty
  named ref m h := by
    obtain ⟨_, hget, -⟩ := h
    cases hget
  native ref object h := by cases h
  owned ref m ownerKind name h := by
    obtain ⟨_, hget, -⟩ := h
    cases hget

end TenantAccess
