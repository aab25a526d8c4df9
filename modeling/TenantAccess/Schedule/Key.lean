import TenantAccess.Claims
import TenantAccess.Store.Basic

/-!
# What to reconcile

A `ReconcileKey` names one unit of work; `Event.keys` says which units a change of the store calls
for.
-/

namespace TenantAccess

open Std

inductive ReconcileKey where
  /-- Every tenant and inventory of a namespace. -/
  | authz (ns : String)
  /-- One config. -/
  | config (ns name : String)
deriving DecidableEq, Inhabited

namespace ReconcileKey

def ns : ReconcileKey → String
  | authz ns => ns
  | config ns _ => ns

def name : ReconcileKey → String
  | authz _ => ""
  | config _ name => name

def label : ReconcileKey → String
  | authz _ => "authz"
  | config .. => "config"

def rank : ReconcileKey → Nat
  | authz _ => 0
  | config .. => 1

def text : ReconcileKey → String
  | authz ns => ns ++ "/authz-" ++ ns
  | config ns name => ns ++ "/" ++ name

instance : Ord ReconcileKey :=
  ⟨compareLex (compareOn rank) (compareLex (compareOn ns) (compareOn name))⟩

theorem compare_eq (a b : ReconcileKey) :
    compare a b =
      (compare a.rank b.rank).then ((compare a.ns b.ns).then (compare a.name b.name)) := rfl

instance : TransOrd ReconcileKey := inferInstanceAs (TransCmp (compareLex _ _))

instance : LawfulEqOrd ReconcileKey where
  compare_self {a} := by rw [compare_eq, compare_self, compare_self, compare_self]; rfl
  eq_of_compare {a b} h := by
    rw [compare_eq, Ordering.then_eq_eq, Ordering.then_eq_eq] at h
    obtain ⟨hrank, hns, hname⟩ := h
    replace hrank := LawfulEqOrd.eq_of_compare hrank
    replace hns := LawfulEqOrd.eq_of_compare hns
    replace hname := LawfulEqOrd.eq_of_compare hname
    cases a <;> cases b <;> simp_all [rank, ns, name]

def decode (d : Dialect Json) (j : Json) : Option ReconcileKey := do
  let (tag, content) ← j.tagged? "type"
  if tag = "authz" then
    some (authz (← Dialect.required (← d.record ["namespace"] content) "namespace" d.text))
  else if tag = "config" then
    let fields ← d.record ["namespace", "name"] content
    some (config (← Dialect.required fields "namespace" d.text)
      (← Dialect.required fields "name" d.text))
  else none

def encode : ReconcileKey → Json
  | authz ns => .obj [("type", .str "authz"), ("namespace", .str ns)]
  | config ns name => .obj [("type", .str "config"), ("namespace", .str ns), ("name", .str name)]

end ReconcileKey

namespace Event

/-- The namespace that a tenant document claims, unless it is empty. -/
def claimedNamespace (object : Json) : Option String :=
  match (object.get? "spec").bind (Json.get? "inventoryNamespace") with
  | some (.str ns) => if ns = "" then none else some ns
  | _ => none

/-- The work that an event calls for.  A change of a tenant also concerns the namespaces that it
claimed when the claims were last published. -/
def keys (e : Event) (claims : Claims) : List ReconcileKey :=
  let ns := e.metadata.ns?.toList
  match e.kind with
  | .tenant =>
    let current := claimedNamespace e.object
    current.toList.map .authz ++
      ((claims.namespacesOf e.metadata.name).filter fun p ↦ current ≠ some p).map .authz
  | .inventory => (ns.filter claims.contains).map .authz
  | .role | .roleBinding => ns.map .authz
  | .config => ns.map (.config · e.metadata.name)
  | .resourceQuota =>
    ns.flatMap fun ns ↦
      (e.metadata.ownerReferences.filter (·.kind = Kind.config.name)).map (.config ns ·.name)
  | .clusterRole | .clusterRoleBinding => []

end Event

end TenantAccess
