import TenantAccess.Access.Derivation
import TenantAccess.Error

/-!
# Access reviews

A review asks who may perform an action.  The questions about a namespace are asked in a fixed
order, and a review that fails counts as an empty answer.  Such an answer admits nobody, but where it
would have been subtracted it leaves out nobody either.
-/

namespace TenantAccess

/-- An action in a namespace, or in the whole cluster. -/
structure ReviewAction where
  verb : String
  resource : String
  group : String := ""
  version : String := ""
  ns? : Option String := none
deriving DecidableEq

namespace ReviewAction

def createInventories (ns : String) : ReviewAction where
  verb := "create"
  resource := "dbaasinventories"
  group := databaseGroup
  version := "v1alpha1"
  ns? := some ns

def createSecrets (ns : String) : ReviewAction where
  verb := "create"
  resource := "secrets"
  version := "v1"
  ns? := some ns

def listInventories (ns : String) : ReviewAction where
  verb := "list"
  resource := "dbaasinventories"
  group := databaseGroup
  version := "v1alpha1"
  ns? := some ns

def listTenants : ReviewAction where
  verb := "list"
  resource := "dbaastenants"
  group := databaseGroup
  version := "v1alpha1"

def text (a : ReviewAction) : String :=
  match a.ns? with
  | some ns => a.verb ++ " " ++ a.resource ++ " in " ++ ns
  | none => a.verb ++ " " ++ a.resource ++ " cluster-wide"

def decode (d : Dialect δ) (j : δ) : Option ReviewAction := do
  let fields ← d.record ["verb", "resource", "group", "version", "namespace"] j
  some {
    verb := ← Dialect.required fields "verb" d.text
    resource := ← Dialect.required fields "resource" d.text
    group := ← Dialect.defaulted fields "group" "" d.text
    version := ← Dialect.defaulted fields "version" "" d.text
    ns? := ← d.optional fields "namespace" d.text }

def encode (a : ReviewAction) : Json :=
  .obj ([("verb", .str a.verb), ("resource", .str a.resource), ("group", .str a.group),
      ("version", .str a.version)] ++
    Json.optionalMember "namespace" .str a.ns?)

end ReviewAction

abbrev Reviewer := ReviewAction → Except Error AccessSet

/-! ## Answers from a table -/

/-- Principals that may perform an action, in every namespace unless one is named. -/
structure Grant where
  verb : String
  resource : String
  ns? : Option String := none
  users : List String := []
  groups : List String := []
deriving DecidableEq

namespace Grant

def appliesTo (g : Grant) (a : ReviewAction) : Bool :=
  g.verb = a.verb && g.resource = a.resource &&
    match g.ns? with
    | none => true
    | some ns => a.ns? = some ns

def decode (d : Dialect δ) (j : δ) : Option Grant := do
  let fields ← d.record ["verb", "resource", "namespace", "users", "groups"] j
  some {
    verb := ← Dialect.required fields "verb" d.text
    resource := ← Dialect.required fields "resource" d.text
    ns? := ← d.optional fields "namespace" d.text
    users := ← Dialect.defaulted fields "users" [] (d.list d.text)
    groups := ← Dialect.defaulted fields "groups" [] (d.list d.text) }

def encode (g : Grant) : Json :=
  .obj ([("verb", .str g.verb), ("resource", .str g.resource)] ++
    Json.optionalMember "namespace" .str g.ns? ++
    [("users", Json.texts g.users), ("groups", Json.texts g.groups)])

end Grant

/-- Grants, and the resources whose reviews fail. -/
structure GrantTable where
  grants : List Grant := []
  failing : List String := []

namespace GrantTable

def review (t : GrantTable) : Reviewer := fun a ↦
  if a.resource ∈ t.failing then .error (.accessReview ("review of " ++ a.text ++ " failed"))
  else
    .ok ((t.grants.filter (·.appliesTo a)).foldl (fun s g ↦ s.extendFrom g.users g.groups) .empty)

end GrantTable

end TenantAccess
