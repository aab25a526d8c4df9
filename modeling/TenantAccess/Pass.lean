import TenantAccess.Rbac.Desired
import TenantAccess.Rbac.Ensure

/-!
# The authorization pass over a namespace

A pass publishes who claims which namespace, derives the roles and bindings of every tenant and
inventory of one namespace and brings the stored ones in line.  In a namespace that nobody claims
only those inventories count that still have a derived binding, so that inherited access ends.
-/

namespace TenantAccess

structure PassSummary where
  namespaceName : String := ""
  snapshotVersion : Nat := 0
  tenants : Nat := 0
  inventories : Nat := 0
  created : Nat := 0
  updated : Nat := 0
  unchanged : Nat := 0
  rejected : Nat := 0
  notOwned : Nat := 0
  /-- Namespaces that lost their last tenant since the claims published before. -/
  released : List String := []
deriving DecidableEq, Inhabited

namespace PassSummary

def record (s : PassSummary) : EnsureOutcome → PassSummary
  | .created => { s with created := s.created + 1 }
  | .updated => { s with updated := s.updated + 1 }
  | .unchanged => { s with unchanged := s.unchanged + 1 }
  | .rejected _ => { s with rejected := s.rejected + 1 }
  | .notOwned => { s with notOwned := s.notOwned + 1 }

def writes (s : PassSummary) : Nat := s.created + s.updated

def isTenantNamespace (s : PassSummary) : Bool := 0 < s.tenants

def addReleased (l : List String) (ns : String) : List String :=
  if ns ∈ l then l else l ++ [ns]

/-- Both passes together, under the name of the first. -/
def merge (a b : PassSummary) : PassSummary where
  namespaceName := a.namespaceName
  snapshotVersion := max a.snapshotVersion b.snapshotVersion
  tenants := a.tenants + b.tenants
  inventories := a.inventories + b.inventories
  created := a.created + b.created
  updated := a.updated + b.updated
  unchanged := a.unchanged + b.unchanged
  rejected := a.rejected + b.rejected
  notOwned := a.notOwned + b.notOwned
  released := b.released.foldl addReleased a.released

def decode (d : Dialect δ) (j : δ) : Option PassSummary := do
  let fields ← d.record ["namespace", "snapshot_version", "tenants", "inventories", "created",
    "updated", "unchanged", "rejected", "not_owned", "released_namespaces"] j
  some {
    namespaceName := ← Dialect.required fields "namespace" d.text
    snapshotVersion := ← Dialect.required fields "snapshot_version" d.count
    tenants := ← Dialect.required fields "tenants" d.count
    inventories := ← Dialect.required fields "inventories" d.count
    created := ← Dialect.required fields "created" d.count
    updated := ← Dialect.required fields "updated" d.count
    unchanged := ← Dialect.required fields "unchanged" d.count
    rejected := ← Dialect.required fields "rejected" d.count
    notOwned := ← Dialect.required fields "not_owned" d.count
    released := ← Dialect.defaulted fields "released_namespaces" [] (d.list d.text) }

def encodeFields (s : PassSummary) : List (String × Json) :=
  [("namespace", .str s.namespaceName), ("snapshot_version", Json.nat s.snapshotVersion),
    ("tenants", Json.nat s.tenants), ("inventories", Json.nat s.inventories),
    ("created", Json.nat s.created), ("updated", Json.nat s.updated),
    ("unchanged", Json.nat s.unchanged), ("rejected", Json.nat s.rejected),
    ("not_owned", Json.nat s.notOwned)] ++
    Json.listMember "released_namespaces" .str s.released

def encode (s : PassSummary) : Json := .obj s.encodeFields

end PassSummary

namespace Pass

/-- The answer to a review; a failed one counts as empty. -/
def reviewOrEmpty (action : ReviewAction) : Task AccessSet := do
  match ← Task.ask (.review action) with
  | .ok access => return access
  | .error _ => return .empty

/-- Who may create both inventories and secrets in `ns`. -/
def serviceAdmin (ns : String) : Task AccessSet := do
  let inventories ← reviewOrEmpty (.createInventories ns)
  if inventories.isEmpty then return inventories
  return inventories.intersect (← reviewOrEmpty (.createSecrets ns))

/-- Everything that reviews say about `ns`. -/
def reviewed (ns : String) : Task ReviewedAccess := do
  let serviceAdmin ← serviceAdmin ns
  let developerReview ← reviewOrEmpty (.listInventories ns)
  let tenantList ← reviewOrEmpty .listTenants
  return { serviceAdmin, developerReview, tenantList }

def refresh (now : Timestamp) : Task (Claims × List Tenant) := do
  let tenants ← Task.list (α := Tenant) now .all
  return (← Task.ask (.publish tenants), tenants)

/-- The inventories among `l` whose derived binding is stored. -/
def bound (now : Timestamp) : List Inventory → Task (List Inventory)
  | [] => return []
  | i :: rest => do
    let key := ObjectKey.namespaced i.ns (bindingName (inventoryRoleName i.metadata.name))
    let binding ← Task.find? (α := Binding .namespaced) now key
    let others ← bound now rest
    return if binding.isSome then i :: others else others

/-- Role and binding of each tenant. -/
def ensureTenants (now : Timestamp) (inventories : List Inventory) (inputs : ReviewedAccess) :
    List Tenant → PassSummary → Task PassSummary
  | [], summary => return summary
  | t :: rest, summary => do
    let role ← ensure now t.viewerRole t
    let binding ← ensure now (t.viewerBinding (t.access inventories inputs)) t
    ensureTenants now inventories inputs rest ((summary.record role).record binding)

/-- Role and binding of each inventory. -/
def ensureInventories (now : Timestamp) (tenants : List Tenant) :
    List Inventory → PassSummary → Task PassSummary
  | [], summary => return summary
  | i :: rest, summary => do
    let role ← ensure now i.viewerRole i
    let binding ← ensure now (i.viewerBinding (i.access tenants)) i
    ensureInventories now tenants rest ((summary.record role).record binding)

def run (now : Timestamp) (ns : String) : Task PassSummary := do
  let previous ← Task.ask .claims
  let (claims, allTenants) ← refresh now
  let summary : PassSummary := {
    namespaceName := ns
    snapshotVersion := claims.version
    released := claims.releasedSince previous }
  let tenants := allTenants.filter (·.inventoryNamespace = ns)
  let listed ← Task.list (α := Inventory) now (.inNamespace ns)
  let inventories ← if tenants.isEmpty then bound now listed else pure listed
  let summary := { summary with tenants := tenants.length, inventories := inventories.length }
  let summary ←
    if tenants.isEmpty then pure summary
    else ensureTenants now inventories (← reviewed ns) tenants summary
  ensureInventories now tenants inventories summary

end Pass

end TenantAccess
