import TenantAccess.Object.Meta

/-!
# Roles and bindings

A role lists what may be done, a binding grants a role to subjects.  Both exist within a namespace
and for the whole cluster; the two scopes differ in kind only.
-/

namespace TenantAccess

structure PolicyRule where
  apiGroups : List String := []
  resources : List String := []
  resourceNames : List String := []
  verbs : List String
deriving DecidableEq

namespace PolicyRule

def decode (d : Dialect δ) (j : δ) : Option PolicyRule := do
  let fields ← d.record ["apiGroups", "resources", "resourceNames", "verbs"] j
  some {
    apiGroups := ← Dialect.defaulted fields "apiGroups" [] (d.list d.text)
    resources := ← Dialect.defaulted fields "resources" [] (d.list d.text)
    resourceNames := ← Dialect.defaulted fields "resourceNames" [] (d.list d.text)
    verbs := ← Dialect.required fields "verbs" (d.list d.text) }

def encode (r : PolicyRule) : Json :=
  .obj (Json.listMember "apiGroups" .str r.apiGroups ++
    Json.listMember "resources" .str r.resources ++
    Json.listMember "resourceNames" .str r.resourceNames ++
    [("verbs", Json.texts r.verbs)])

end PolicyRule

/-- The role that a binding grants. -/
structure RoleRef where
  apiGroup : String
  kind : String
  name : String
deriving DecidableEq

namespace RoleRef

def decode (d : Dialect δ) (j : δ) : Option RoleRef := do
  let fields ← d.record ["apiGroup", "kind", "name"] j
  some {
    apiGroup := ← Dialect.required fields "apiGroup" d.text
    kind := ← Dialect.required fields "kind" d.text
    name := ← Dialect.required fields "name" d.text }

def encode (r : RoleRef) : Json :=
  .obj [("apiGroup", .str r.apiGroup), ("kind", .str r.kind), ("name", .str r.name)]

end RoleRef

inductive SubjectKind where
  | user | group | serviceAccount
deriving DecidableEq

namespace SubjectKind

def name : SubjectKind → String
  | user => "User"
  | group => "Group"
  | serviceAccount => "ServiceAccount"

def ofName? (s : String) : Option SubjectKind :=
  [user, group, serviceAccount].find? fun k ↦ k.name = s

def decode (d : Dialect δ) (j : δ) : Option SubjectKind := (d.caseName j).bind ofName?

end SubjectKind

structure Subject where
  kind : SubjectKind
  name : String
  ns? : Option String := none
  apiGroup : Option String := none
deriving DecidableEq

namespace Subject

def text (s : Subject) : String := s.kind.name ++ ":" ++ s.name

def decode (d : Dialect δ) (j : δ) : Option Subject := do
  let fields ← d.record ["kind", "name", "namespace", "apiGroup"] j
  some {
    kind := ← Dialect.required fields "kind" (SubjectKind.decode d)
    name := ← Dialect.required fields "name" d.text
    ns? := ← d.optional fields "namespace" d.text
    apiGroup := ← d.optional fields "apiGroup" d.text }

def encode (s : Subject) : Json :=
  .obj ([("kind", .str s.kind.name), ("name", .str s.name)] ++
    Json.optionalMember "namespace" .str s.ns? ++
    Json.optionalMember "apiGroup" .str s.apiGroup)

end Subject

inductive Scope where
  | namespaced | cluster
deriving DecidableEq

namespace Scope

def roleKind : Scope → Kind
  | namespaced => .role
  | cluster => .clusterRole

def bindingKind : Scope → Kind
  | namespaced => .roleBinding
  | cluster => .clusterRoleBinding

def roleRef (s : Scope) (name : String) : RoleRef := ⟨rbacGroup, s.roleKind.name, name⟩

end Scope

structure Role (scope : Scope) where
  metadata : ObjectMeta
  rules : List PolicyRule := []
deriving DecidableEq

namespace Role

variable {s : Scope}

def decode (d : Dialect δ) (j : δ) : Option (Role s) := do
  let fields ← d.record ["metadata", "rules"] j
  some {
    metadata := ← Dialect.required fields "metadata" (ObjectMeta.decode d)
    rules := ← Dialect.defaulted fields "rules" [] (d.list (PolicyRule.decode d)) }

def encode (r : Role s) : Json :=
  .obj [("metadata", r.metadata.encode), ("rules", .arr (r.rules.map PolicyRule.encode))]

end Role

structure Binding (scope : Scope) where
  metadata : ObjectMeta
  roleRef : RoleRef
  subjects : List Subject := []
deriving DecidableEq

namespace Binding

variable {s : Scope}

def decode (d : Dialect δ) (j : δ) : Option (Binding s) := do
  let fields ← d.record ["metadata", "roleRef", "subjects"] j
  some {
    metadata := ← Dialect.required fields "metadata" (ObjectMeta.decode d)
    roleRef := ← Dialect.required fields "roleRef" (RoleRef.decode d)
    subjects := ← Dialect.defaulted fields "subjects" [] (d.list (Subject.decode d)) }

def encode (b : Binding s) : Json :=
  .obj ([("metadata", b.metadata.encode), ("roleRef", b.roleRef.encode)] ++
    Json.listMember "subjects" Subject.encode b.subjects)

end Binding

end TenantAccess
