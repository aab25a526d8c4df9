import TenantAccess.Rbac.Ensure

/-!
# The quota of the active config

The active config owns a quota that allows one config in its namespace.
-/

namespace TenantAccess

def quotaName (config : String) : String := "dbaas-" ++ config

/-- The counted resource and its limit. -/
def configLimit : SortedMap String String :=
  SortedMap.ofList [("count/dbaasconfigs.dbaas.redhat.com", "1")]

namespace Config

def ns (c : Config) : String := c.metadata.ns?.getD ""

def desiredQuota (c : Config) : ResourceQuota where
  metadata := { ObjectMeta.namespaced c.ns (quotaName c.metadata.name) with
    ownerReferences := [OwnerReference.controllerOf c] }
  hard := configLimit

/-- Create the quota, or correct its limits if it belongs to the config. -/
def ensureQuota (now : Timestamp) (c : Config) : Task EnsureOutcome := do
  match ← Task.find? (α := ResourceQuota) now c.desiredQuota.metadata.key with
  | none =>
    let _ ← Task.create now c.desiredQuota
    return .created
  | some observed =>
    if observed.hard = c.desiredQuota.hard then return .unchanged
    if !observed.metadata.isOwnedBy c.metadata.uid then return .notOwned
    let _ ← Task.update now { observed with hard := c.desiredQuota.hard }
    return .updated

/-- Delete a quota that is left from a time when the config was active. -/
def releaseQuota (now : Timestamp) (c : Config) : Task Unit := do
  let key : ObjectKey := ⟨c.metadata.ns?, quotaName c.metadata.name⟩
  match ← Task.find? (α := ResourceQuota) now key with
  | none => return
  | some quota =>
    if quota.metadata.isOwnedBy c.metadata.uid then
      tryCatch (Task.delete .resourceQuota key) fun e ↦
        if e.isNotFound then return else throw e

end Config

end TenantAccess
