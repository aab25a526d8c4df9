import TenantAccess.Selection.Activity
import TenantAccess.Selection.Quota

/-!
# One active config per namespace

Reconciling a config makes it active unless another one is; of two that are active the one with the
smaller name stays.  Reconciling a config that is gone elects the first of those that remain.
-/

namespace TenantAccess

inductive ConfigDecision where
  | active (name : String)
  /-- Another config is active. -/
  | denied (name other : String)
  /-- The config is gone; `reelected` took its place. -/
  | deleted (reelected : Option String)
deriving DecidableEq

namespace ConfigDecision

def label : ConfigDecision → String
  | active _ => "active"
  | denied .. => "denied"
  | deleted _ => "deleted"

def decode (d : Dialect Json) (j : Json) : Option ConfigDecision := do
  let (tag, content) ← j.tagged? "decision"
  if tag = "active" then
    some (active (← Dialect.required (← d.record ["name"] content) "name" d.text))
  else if tag = "denied" then
    let fields ← d.record ["name", "active"] content
    some (denied (← Dialect.required fields "name" d.text)
      (← Dialect.required fields "active" d.text))
  else if tag = "deleted" && content.fills 1 then
    some (deleted (← d.optional (← d.record ["reelected"] content) "reelected" d.text))
  else none

def encode (c : ConfigDecision) : Json :=
  .obj (("decision", .str c.label) ::
    match c with
    | active name => [("name", .str name)]
    | denied name other => [("name", .str name), ("active", .str other)]
    | deleted reelected => [("reelected", Json.nullable .str reelected)])

end ConfigDecision

namespace Config

/-- The smallest name of another active config, unless `c` is active under a smaller name. -/
def blocking? (c : Config) (configs : List Config) : Option String :=
  let others := configs.filter fun o ↦ o.metadata.name ≠ c.metadata.name && o.isActive
  (smallestBy id (others.map (·.metadata.name))).filter fun other ↦
    !(c.isActive && c.metadata.name < other)

def readyNow (now : Timestamp) : Condition where
  type := readyCondition
  status := .true
  reason := "Ready"
  message := "DBaaS config is ready for provisioning"
  lastTransitionTime := now

def notReadyNow (now : Timestamp) (active : String) : Condition where
  type := readyCondition
  status := .false
  reason := "ConfigNotReady"
  message := "Another active DBaaSConfig exists in this namespace - " ++ active
  lastTransitionTime := now

/-- Set a condition, writing the config only if that changes it. -/
def writeStatus (now : Timestamp) (c : Config) (condition : Condition) : Task Config :=
  if condition.changes c.conditions then
    Task.update now { c with conditions := condition.set c.conditions }
  else return c

/-- Activate or deny `c` among the configs of its namespace. -/
def transition (now : Timestamp) (c : Config) (configs : List Config) : Task ConfigDecision := do
  match c.blocking? configs with
  | some active =>
    let written ← c.writeStatus now (notReadyNow now active)
    written.releaseQuota now
    return .denied c.metadata.name active
  | none =>
    let written ← c.writeStatus now (readyNow now)
    let _ ← written.ensureQuota now
    return .active c.metadata.name

def listIn (now : Timestamp) (ns : String) : Task (List Config) :=
  Task.list now (ListParams.inNamespace ns)

/-- Elect the first config of the namespace if none is active. -/
def reelect (now : Timestamp) (ns : String) : Task ConfigDecision := do
  let configs ← listIn now ns
  match active? configs, smallestBy (·.metadata.name) configs with
  | none, some candidate =>
    match ← candidate.transition now configs with
    | .active name => return .deleted (some name)
    | _ => return .deleted none
  | _, _ => return .deleted none

def reconcile (now : Timestamp) (key : ObjectKey) : Task ConfigDecision := do
  match key.ns? with
  | none => throw (.internalError ("config key " ++ key.text ++ " has no namespace"))
  | some ns =>
    match ← Task.find? (α := Config) now key with
    | some config => config.transition now (← listIn now ns)
    | none => reelect now ns

end Config

end TenantAccess
