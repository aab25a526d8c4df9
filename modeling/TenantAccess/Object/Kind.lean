/-!
# Kinds of objects
-/

namespace TenantAccess

/-- API group of tenants, inventories and configs. -/
def databaseGroup : String := "dbaas.redhat.com"

def databaseApiVersion : String := "dbaas.redhat.com/v1alpha1"

/-- API group of roles and bindings. -/
def rbacGroup : String := "rbac.authorization.k8s.io"

def rbacApiVersion : String := "rbac.authorization.k8s.io/v1"

def coreApiVersion : String := "v1"

inductive Kind where
  | tenant | inventory | config | role | roleBinding | clusterRole | clusterRoleBinding
  | resourceQuota
deriving DecidableEq, Repr, Inhabited

namespace Kind

/-- Every kind, in the order in which kinds are listed. -/
def all : List Kind :=
  [tenant, inventory, config, role, roleBinding, clusterRole, clusterRoleBinding, resourceQuota]

def name : Kind → String
  | tenant => "DBaaSTenant"
  | inventory => "DBaaSInventory"
  | config => "DBaaSConfig"
  | role => "Role"
  | roleBinding => "RoleBinding"
  | clusterRole => "ClusterRole"
  | clusterRoleBinding => "ClusterRoleBinding"
  | resourceQuota => "ResourceQuota"

def ofName? (s : String) : Option Kind := all.find? fun k ↦ k.name = s

@[simp] theorem ofName?_name (k : Kind) : ofName? k.name = some k := by
  cases k <;> decide

def apiVersion : Kind → String
  | tenant | inventory | config => databaseApiVersion
  | role | roleBinding | clusterRole | clusterRoleBinding => rbacApiVersion
  | resourceQuota => coreApiVersion

/-- Tenants and the cluster-wide roles and bindings have no namespace. -/
def isNamespaced : Kind → Bool
  | tenant | clusterRole | clusterRoleBinding => false
  | _ => true

def index : Kind → Nat
  | tenant => 0
  | inventory => 1
  | config => 2
  | role => 3
  | roleBinding => 4
  | clusterRole => 5
  | clusterRoleBinding => 6
  | resourceQuota => 7

theorem index_injective {a b : Kind} (h : a.index = b.index) : a = b := by
  cases a <;> cases b <;> simp_all [index]

instance : Ord Kind := ⟨fun a b ↦ compare a.index b.index⟩

open Std

instance : TransOrd Kind := inferInstanceAs (TransCmp (compareOn index))

instance : LawfulEqOrd Kind where
  compare_self {a} := compare_self (a := a.index)
  eq_of_compare {a b} h :=
    index_injective (LawfulEqOrd.eq_of_compare (a := a.index) (b := b.index) h)

end Kind

end TenantAccess
