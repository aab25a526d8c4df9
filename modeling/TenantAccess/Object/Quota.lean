import TenantAccess.Object.Meta

/-!
# Resource quotas
-/

namespace TenantAccess

structure ResourceQuota where
  metadata : ObjectMeta
  hard : SortedMap String String := ∅
deriving DecidableEq

namespace ResourceQuota

def decodeSpec (d : Dialect δ) (j : δ) : Option (SortedMap String String) := do
  Dialect.defaulted (← d.record ["hard"] j) "hard" ∅ (d.dictionary d.text)

def decode (d : Dialect δ) (j : δ) : Option ResourceQuota := do
  let fields ← d.record ["metadata", "spec"] j
  some {
    metadata := ← Dialect.required fields "metadata" (ObjectMeta.decode d)
    hard := ← Dialect.defaulted fields "spec" ∅ (decodeSpec d) }

def encode (q : ResourceQuota) : Json :=
  .obj [("metadata", q.metadata.encode), ("spec", .obj [("hard", Json.dictionary .str q.hard)])]

end ResourceQuota

end TenantAccess
