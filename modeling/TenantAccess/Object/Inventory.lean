import TenantAccess.Object.Condition
import TenantAccess.Object.Tenant

/-!
# Inventories

A registered database provider account within a namespace.
-/

namespace TenantAccess

structure InventorySpec where
  /-- Name of the provider. -/
  providerRef : Option String := none
  credentialsRef : Option String := none
  /-- Explicit access; where it is unset the developers of the claiming tenants count. -/
  authz : Principals := {}
  disableProvisions : Option Bool := none
  connectionNamespaces : Option (List String) := none
deriving DecidableEq, Inhabited

namespace InventorySpec

def decodeProvider (d : Dialect δ) (j : δ) : Option String := do
  Dialect.required (← d.record ["name"] j) "name" d.text

def decode (d : Dialect δ) (j : δ) : Option InventorySpec := do
  let fields ← d.record ["providerRef", "credentialsRef", "authz", "disableProvisions",
    "connectionNamespaces"] j
  some {
    providerRef := ← d.optional fields "providerRef" (decodeProvider d)
    credentialsRef := ← d.optional fields "credentialsRef" d.text
    authz := ← Dialect.defaulted fields "authz" {} (Principals.decode d)
    disableProvisions := ← d.optional fields "disableProvisions" d.flag
    connectionNamespaces := ← d.optional fields "connectionNamespaces" (d.list d.text) }

def encode (s : InventorySpec) : Json :=
  .obj (Json.optionalMember "providerRef" (fun n ↦ .obj [("name", .str n)]) s.providerRef ++
    Json.optionalMember "credentialsRef" .str s.credentialsRef ++
    [("authz", s.authz.encode)] ++
    Json.optionalMember "disableProvisions" .bool s.disableProvisions ++
    Json.optionalMember "connectionNamespaces" Json.texts s.connectionNamespaces)

end InventorySpec

namespace Condition

/-- The conditions of an object's status. -/
def decodeStatus (d : Dialect δ) (now : Timestamp) (j : δ) : Option (List Condition) := do
  Dialect.defaulted (← d.record ["conditions"] j) "conditions" [] (d.list (Condition.decode d now))

def encodeStatus (conditions : List Condition) : Json :=
  .obj (Json.listMember "conditions" Condition.encode conditions)

end Condition

structure Inventory where
  metadata : ObjectMeta
  spec : InventorySpec := {}
  conditions : List Condition := []
deriving DecidableEq

namespace Inventory

def new (ns name : String) : Inventory := { metadata := .namespaced ns name }

def decode (d : Dialect δ) (now : Timestamp) (j : δ) : Option Inventory := do
  let fields ← d.record ["metadata", "spec", "status"] j
  some {
    metadata := ← Dialect.required fields "metadata" (ObjectMeta.decode d)
    spec := ← Dialect.defaulted fields "spec" {} (InventorySpec.decode d)
    conditions := ← Dialect.defaulted fields "status" [] (Condition.decodeStatus d now) }

def encode (i : Inventory) : Json :=
  .obj [("metadata", i.metadata.encode), ("spec", i.spec.encode),
    ("status", Condition.encodeStatus i.conditions)]

end Inventory

end TenantAccess
