import TenantAccess.Object.Role

/-!
# The safety gate

A derived role may only allow reading single objects; one with any of the verbs below is refused.
-/

namespace TenantAccess

/-- Verbs that a derived role may not carry; `*` implies all of them. -/
def gatedVerbs : List String := ["create", "patch", "update", "delete", "list", "*"]

/-- The gated verbs that occur in `rules`, in the order of `gatedVerbs`. -/
def forbiddenVerbs (rules : List PolicyRule) : List String :=
  gatedVerbs.filter fun v ↦ rules.any fun r ↦ r.verbs.contains v

end TenantAccess
