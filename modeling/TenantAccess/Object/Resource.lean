import TenantAccess.Object.Config
import TenantAccess.Object.Quota
import TenantAccess.Object.Role

/-!
# Typed objects

`Resource` is what the store boundary needs to know of a type of objects: its kind, its metadata
and its document form.
-/

namespace TenantAccess

class Resource (α : Type) where
  kind : Kind
  metadata : α → ObjectMeta
  withMeta : α → ObjectMeta → α
  decode {δ : Type} : Dialect δ → Timestamp → δ → Option α
  encode : α → Json

namespace Resource

variable {α : Type} [Resource α]

def key (a : α) : ObjectKey := (metadata a).key

def ref (a : α) : ObjectRef := ⟨kind α, key a⟩

def name (a : α) : String := (metadata a).name

def ns? (a : α) : Option String := (metadata a).ns?

end Resource

instance : Resource Tenant where
  kind := .tenant
  metadata := Tenant.metadata
  withMeta t m := { t with metadata := m }
  decode d _ := Tenant.decode d
  encode := Tenant.encode

instance : Resource Inventory where
  kind := .inventory
  metadata := Inventory.metadata
  withMeta i m := { i with metadata := m }
  decode := Inventory.decode
  encode := Inventory.encode

instance : Resource Config where
  kind := .config
  metadata := Config.metadata
  withMeta c m := { c with metadata := m }
  decode := Config.decode
  encode := Config.encode

instance (s : Scope) : Resource (Role s) where
  kind := s.roleKind
  metadata := Role.metadata
  withMeta r m := { r with metadata := m }
  decode d _ := Role.decode d
  encode := Role.encode

instance (s : Scope) : Resource (Binding s) where
  kind := s.bindingKind
  metadata := Binding.metadata
  withMeta b m := { b with metadata := m }
  decode d _ := Binding.decode d
  encode := Binding.encode

instance : Resource ResourceQuota where
  kind := .resourceQuota
  metadata := ResourceQuota.metadata
  withMeta q m := { q with metadata := m }
  decode d _ := ResourceQuota.decode d
  encode := ResourceQuota.encode

/-- The type of the objects of a kind. -/
def Kind.Object : Kind → Type
  | tenant => Tenant
  | inventory => Inventory
  | config => Config
  | role => Role .namespaced
  | roleBinding => Binding .namespaced
  | clusterRole => Role .cluster
  | clusterRoleBinding => Binding .cluster
  | resourceQuota => ResourceQuota

instance : (k : Kind) → Resource k.Object
  | .tenant => inferInstanceAs (Resource Tenant)
  | .inventory => inferInstanceAs (Resource Inventory)
  | .config => inferInstanceAs (Resource Config)
  | .role => inferInstanceAs (Resource (Role .namespaced))
  | .roleBinding => inferInstanceAs (Resource (Binding .namespaced))
  | .clusterRole => inferInstanceAs (Resource (Role .cluster))
  | .clusterRoleBinding => inferInstanceAs (Resource (Binding .cluster))
  | .resourceQuota => inferInstanceAs (Resource ResourceQuota)

/-- The objects of a kind are of that kind. -/
@[simp] theorem Kind.kind_object (k : Kind) : Resource.kind k.Object = k := by
  cases k <;> rfl

/-- The reference that names `owner` as the controller of an object. -/
def OwnerReference.controllerOf [Resource α] (owner : α) : OwnerReference where
  apiVersion := (Resource.kind α).apiVersion
  kind := (Resource.kind α).name
  name := Resource.name owner
  uid := (Resource.metadata owner).uid
  controller := some true
  blockOwnerDeletion := some true

end TenantAccess
