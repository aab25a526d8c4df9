import TenantAccess.Object.Inventory

/-!
# Configs

The provisioning policy of a namespace.  Any number may be stored; at most one is active.
-/

namespace TenantAccess

structure ConfigSpec where
  disableProvisions : Option Bool := none
  connectionNamespaces : Option (List String) := none
  disableInUi : Option Bool := none
deriving DecidableEq, Inhabited

namespace ConfigSpec

def decode (d : Dialect δ) (j : δ) : Option ConfigSpec := do
  let fields ← d.record ["disableProvisions", "connectionNamespaces", "disableInUi"] j
  some {
    disableProvisions := ← d.optional fields "disableProvisions" d.flag
    connectionNamespaces := ← d.optional fields "connectionNamespaces" (d.list d.text)
    disableInUi := ← d.optional fields "disableInUi" d.flag }

def encode (s : ConfigSpec) : Json :=
  .obj (Json.optionalMember "disableProvisions" .bool s.disableProvisions ++
    Json.optionalMember "connectionNamespaces" Json.texts s.connectionNamespaces ++
    Json.optionalMember "disableInUi" .bool s.disableInUi)

end ConfigSpec

structure Config where
  metadata : ObjectMeta
  spec : ConfigSpec := {}
  conditions : List Condition := []
deriving DecidableEq

namespace Config

def new (ns name : String) : Config := { metadata := .namespaced ns name }

def decode (d : Dialect δ) (now : Timestamp) (j : δ) : Option Config := do
  let fields ← d.record ["metadata", "spec", "status"] j
  some {
    metadata := ← Dialect.required fields "metadata" (ObjectMeta.decode d)
    spec := ← Dialect.defaulted fields "spec" {} (ConfigSpec.decode d)
    conditions := ← Dialect.defaulted fields "status" [] (Condition.decodeStatus d now) }

def encode (c : Config) : Json :=
  .obj [("metadata", c.metadata.encode), ("spec", c.spec.encode),
    ("status", Condition.encodeStatus c.conditions)]

end Config

end TenantAccess
