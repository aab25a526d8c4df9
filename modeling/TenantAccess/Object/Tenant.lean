import TenantAccess.Object.Meta

/-!
# Tenants

A tenant claims one namespace for its inventories and names the developers who may use them.
-/

namespace TenantAccess

/-- Declared users and groups.  A list that is absent differs from an empty one. -/
structure Principals where
  users? : Option (List String) := none
  groups? : Option (List String) := none
deriving DecidableEq, Inhabited

namespace Principals

def of (users groups : List String) : Principals := ⟨some users, some groups⟩

/-- Neither users nor groups are declared. -/
def isUnset (p : Principals) : Bool := p.users?.isNone && p.groups?.isNone

def users (p : Principals) : List String := p.users?.getD []

def groups (p : Principals) : List String := p.groups?.getD []

def decode (d : Dialect δ) (j : δ) : Option Principals := do
  let fields ← d.record ["users", "groups"] j
  some {
    users? := ← d.optional fields "users" (d.list d.text)
    groups? := ← d.optional fields "groups" (d.list d.text) }

def encode (p : Principals) : Json :=
  .obj (Json.optionalMember "users" Json.texts p.users? ++
    Json.optionalMember "groups" Json.texts p.groups?)

end Principals

structure Tenant where
  metadata : ObjectMeta
  inventoryNamespace : String
  /-- Access to the inventories that declare none. -/
  developer : Principals := {}
deriving DecidableEq

namespace Tenant

def new (name inventoryNamespace : String) : Tenant := ⟨.cluster name, inventoryNamespace, {}⟩

def decodeAuthz (d : Dialect δ) (j : δ) : Option Principals := do
  let fields ← d.record ["developer"] j
  Dialect.defaulted fields "developer" {} (Principals.decode d)

def decodeSpec (d : Dialect δ) (j : δ) : Option (String × Principals) := do
  let fields ← d.record ["inventoryNamespace", "authz"] j
  some (← Dialect.required fields "inventoryNamespace" d.text,
    ← Dialect.defaulted fields "authz" {} (decodeAuthz d))

def decode (d : Dialect δ) (j : δ) : Option Tenant := do
  let fields ← d.record ["metadata", "spec"] j
  let metadata ← Dialect.required fields "metadata" (ObjectMeta.decode d)
  let (inventoryNamespace, developer) ← Dialect.required fields "spec" (decodeSpec d)
  some { metadata, inventoryNamespace, developer }

def encode (t : Tenant) : Json :=
  .obj [("metadata", t.metadata.encode),
    ("spec", .obj [("inventoryNamespace", .str t.inventoryNamespace),
      ("authz", .obj [("developer", t.developer.encode)])])]

end Tenant

end TenantAccess
