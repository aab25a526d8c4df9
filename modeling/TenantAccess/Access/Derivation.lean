import TenantAccess.Access.AccessSet
import TenantAccess.Object.Inventory

/-!
# Who may view what

Access to an inventory is what it declares, or else what the tenants that claim its namespace
grant their developers.  Access to a tenant is that of its service admins and developers, less
those who may list all tenants anyway.
-/

namespace TenantAccess

structure ReviewedAccess where
  /-- Who may create both inventories and secrets in the namespace. -/
  serviceAdmin : AccessSet := {}
  /-- Who may list inventories in the namespace. -/
  developerReview : AccessSet := {}
  /-- Who may list all tenants. -/
  tenantList : AccessSet := {}

def ReviewedAccess.encode (r : ReviewedAccess) : Json :=
  .obj [("service_admin", r.serviceAdmin.encode), ("developer_review", r.developerReview.encode),
    ("tenant_list", r.tenantList.encode)]

/-- Principals that may view `inventory`.  Any declaration, even an empty one, replaces what the
tenants grant. -/
def Inventory.access (inventory : Inventory) (tenants : List Tenant) : AccessSet :=
  if inventory.spec.authz.isUnset then
    let ns := inventory.metadata.ns?.getD ""
    (tenants.filter (·.inventoryNamespace = ns)).foldl
      (fun a t ↦ a.extendFrom t.developer.users t.developer.groups) .empty
  else .ofPrincipals inventory.spec.authz

namespace Tenant

def ownInventories (tenant : Tenant) (inventories : List Inventory) : List Inventory :=
  inventories.filter (·.metadata.ns? = some tenant.inventoryNamespace)

/-- Reviewed developers, then those whom an inventory of the tenant declares, then the tenant's own
if one of its inventories declares none. -/
def developerAccess (tenant : Tenant) (inventories : List Inventory) (review : AccessSet) :
    AccessSet :=
  let own := tenant.ownInventories inventories
  let declared := (own.filter (!·.spec.authz.isUnset)).foldl
    (fun a i ↦ a.extendFrom i.spec.authz.users i.spec.authz.groups) review
  if own.any (·.spec.authz.isUnset) then
    declared.extendFrom tenant.developer.users tenant.developer.groups
  else declared

def access (tenant : Tenant) (inventories : List Inventory) (reviewed : ReviewedAccess) :
    AccessSet :=
  (reviewed.serviceAdmin.union
    (tenant.developerAccess inventories reviewed.developerReview)).subtract reviewed.tenantList

end Tenant

end TenantAccess
