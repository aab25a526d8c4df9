import TenantAccess.Access.Subjects
import TenantAccess.Object.Inventory

/-!
# Derived roles and bindings

Each inventory and each tenant has a role that allows viewing it alone, and a binding that grants
the role to those who have access.
-/

namespace TenantAccess

def inventoryRoleName (inventory : String) : String := "dbaas-" ++ inventory ++ "-inventory-viewer"

def tenantRoleName (tenant : String) : String := "dbaas-" ++ tenant ++ "-tenant-viewer"

def bindingName (role : String) : String := role ++ "s"

/-- Reading one object of a resource, and its status. -/
def viewerRule (resource name : String) : PolicyRule where
  apiGroups := [databaseGroup]
  resources := [resource, resource ++ "/status"]
  resourceNames := [name]
  verbs := ["get"]

namespace Inventory

def ns (i : Inventory) : String := i.metadata.ns?.getD ""

def viewerRole (i : Inventory) : Role .namespaced where
  metadata := .namespaced i.ns (inventoryRoleName i.metadata.name)
  rules := [viewerRule "dbaasinventories" i.metadata.name]

def viewerBinding (i : Inventory) (access : AccessSet) : Binding .namespaced where
  metadata := .namespaced i.ns (bindingName (inventoryRoleName i.metadata.name))
  roleRef := Scope.namespaced.roleRef (inventoryRoleName i.metadata.name)
  subjects := access.subjects (some i.ns)

end Inventory

namespace Tenant

def viewerRole (t : Tenant) : Role .cluster where
  metadata := .cluster (tenantRoleName t.metadata.name)
  rules := [viewerRule "dbaastenants" t.metadata.name]

def viewerBinding (t : Tenant) (access : AccessSet) : Binding .cluster where
  metadata := .cluster (bindingName (tenantRoleName t.metadata.name))
  roleRef := Scope.cluster.roleRef (tenantRoleName t.metadata.name)
  subjects := access.subjects none

end Tenant

end TenantAccess
