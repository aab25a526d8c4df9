import TenantAccess.Selection.Selector

/-!
# Admission of configs, and the default config
-/

namespace TenantAccess.Config

/-- Why `candidate` may not be created beside the configs in `existing`, if so. -/
def refusal? (candidate : Config) (existing : List Config) : Option Error :=
  let others := existing.filter fun c ↦
    c.metadata.ns? = some candidate.ns && c.metadata.name ≠ candidate.metadata.name
  let denied (message : String) :=
    (Error.admissionDenied message).withContext "field" (.str "metadata.namespace")
  match active? others with
  | some active =>
    denied ("the namespace " ++ candidate.ns ++ " is already managed by config " ++
      active.metadata.name ++ ", it cannot be managed by another config")
  | none =>
    if others.isEmpty then none
    else denied ("the namespace " ++ candidate.ns ++ " is already managed by another config")

/-- The config that a namespace without configs is given. -/
def default (ns : String) : Config where
  metadata := .namespaced ns "cluster"
  spec := { disableProvisions := some false, connectionNamespaces := some ["*"] }

/-- Create the default config if the namespace has no config; somebody else may do so first. -/
def ensureDefault (now : Timestamp) (ns : String) : Task (Option Config) := do
  if !(← listIn now ns).isEmpty then return none
  tryCatch (some <$> Task.create now (default ns)) fun e ↦
    if e.code = .objectAlreadyExists then return none else throw e

end TenantAccess.Config
