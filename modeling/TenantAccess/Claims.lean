import TenantAccess.Object.Tenant

/-!
# Claimed namespaces

A numbered view of which tenants claim which namespaces.  Each new view replaces the one before.
-/

namespace TenantAccess

structure Claims where
  version : Nat := 0
  /-- The tenants that claim a namespace; no namespace has none. -/
  namespaces : SortedMap String (SortedSet String) := ∅
deriving Inhabited

namespace Claims

def claim (m : SortedMap String (SortedSet String)) (t : Tenant) :
    SortedMap String (SortedSet String) :=
  m.insert t.inventoryNamespace
    (((m.get? t.inventoryNamespace).getD ∅).add t.metadata.name)

def ofTenants (version : Nat) (tenants : List Tenant) : Claims :=
  ⟨version, tenants.foldl claim ∅⟩

def publish (c : Claims) (tenants : List Tenant) : Claims := ofTenants (c.version + 1) tenants

def contains (c : Claims) (ns : String) : Bool := c.namespaces.contains ns

def tenantsIn (c : Claims) (ns : String) : List String :=
  ((c.namespaces.get? ns).getD ∅).keys

def namespacesOf (c : Claims) (tenant : String) : List String :=
  (c.namespaces.filter fun _ tenants ↦ tenants.contains tenant).keys

/-- Namespaces claimed in `previous` and no longer claimed in `c`. -/
def releasedSince (c previous : Claims) : List String :=
  previous.namespaces.keys.filter (!c.contains ·)

/-- The view as a document, with the namespaces of the tenants named. -/
def encodeMembers (tenants : List String) (c : Claims) : List (String × Json) :=
  let row (name : String) (l : List String) := Json.arr [.str name, Json.texts l]
  [("version", Json.nat c.version), ("len", Json.nat c.namespaces.size),
    ("empty", .bool c.namespaces.isEmpty),
    ("namespaces", .arr (c.namespaces.keys.map fun ns ↦ row ns (c.tenantsIn ns))),
    ("of", .arr (tenants.map fun t ↦ row t (c.namespacesOf t)))]

end Claims

end TenantAccess
