import TenantAccess.Program
import TenantAccess.Yaml.Typed

/-!
# Manifests

A manifest lists objects to start from, and who may do what as far as reviews ask.
-/

namespace TenantAccess

structure Manifest where
  tenants : List Tenant := []
  inventories : List Inventory := []
  configs : List Config := []
  accessReviews : List Grant := []

namespace Manifest

def decode (d : Dialect δ) (now : Timestamp) (j : δ) : Option Manifest := do
  let fields ← d.record ["tenants", "inventories", "configs", "accessReviews"] j
  some {
    tenants := ← Dialect.defaulted fields "tenants" [] (d.list (Tenant.decode d))
    inventories := ← Dialect.defaulted fields "inventories" [] (d.list (Inventory.decode d now))
    configs := ← Dialect.defaulted fields "configs" [] (d.list (Config.decode d now))
    accessReviews := ← Dialect.defaulted fields "accessReviews" [] (d.list (Grant.decode d)) }

/-- The manifest in a YAML text, which lists nothing if there is no document in it. -/
def parse (now : Timestamp) (text : String) : Option Manifest := do
  match ← Yaml.document? .v11 text with
  | none => some {}
  | some node => decode Yaml.dialect now (.ofDocument node)

def grants (m : Manifest) : GrantTable := { grants := m.accessReviews }

def size (m : Manifest) : Nat := m.tenants.length + m.inventories.length + m.configs.length

def claimedNamespaces (m : Manifest) : List String :=
  (SortedSet.ofList (m.tenants.map (·.inventoryNamespace))).keys

def tenantsIn (m : Manifest) (ns : String) : List Tenant :=
  m.tenants.filter (·.inventoryNamespace = ns)

def inventoriesIn (m : Manifest) (ns : String) : List Inventory :=
  m.inventories.filter (·.metadata.ns? = some ns)

def unclaimedInventories (m : Manifest) : List Inventory :=
  m.inventories.filter fun i ↦
    match i.metadata.ns? with
    | none => true
    | some ns => !m.claimedNamespaces.contains ns

/-- An object that could not be created, with the reason. -/
structure Unseeded where
  what : String
  key : ObjectKey
  cause : Error

def seedOne [Resource α] (now : Timestamp) (what : String) (a : α) :
    ExceptT Unseeded Program Unit :=
  ExceptT.adapt (fun cause ↦ ⟨what, Resource.key a, cause⟩) do
    let _ ← Task.create now a

/-- Create every object: tenants, then inventories, then configs. -/
def seed (now : Timestamp) (m : Manifest) : ExceptT Unseeded Program Unit := do
  m.tenants.forM (seedOne now "tenant")
  m.inventories.forM (seedOne now "inventory")
  m.configs.forM (seedOne now "config")

end Manifest

end TenantAccess
