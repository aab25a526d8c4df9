import TenantAccess.Object.Tenant

/-!
# Sets of principals

Users and groups in the order in which they were first seen.  Two sets are equal (`==`) when they
hold the same principals, whatever their order.
-/

namespace TenantAccess

structure AccessSet where
  users : List String := []
  groups : List String := []
deriving DecidableEq, Inhabited

namespace AccessSet

def empty : AccessSet := {}

/-- The principals in `users` and `groups`, each once. -/
def new (users groups : List String) : AccessSet := ⟨users.eraseDups, groups.eraseDups⟩

def isEmpty (a : AccessSet) : Bool := a.users.isEmpty && a.groups.isEmpty

/-- Add the principals of two lists behind those already there. -/
def extendFrom (a : AccessSet) (users groups : List String) : AccessSet :=
  new (a.users ++ users) (a.groups ++ groups)

def extend (a b : AccessSet) : AccessSet := a.extendFrom b.users b.groups

def union (a b : AccessSet) : AccessSet := a.extend b

/-- The principals of `a` that are not in `b`, in the order of `a`. -/
def subtract (a b : AccessSet) : AccessSet :=
  ⟨a.users.filter (!b.users.contains ·), a.groups.filter (!b.groups.contains ·)⟩

/-- The principals of `a` that are in `b`, in the order of `a`. -/
def intersect (a b : AccessSet) : AccessSet :=
  ⟨a.users.filter (b.users.contains ·), a.groups.filter (b.groups.contains ·)⟩

/-- Lists of one length with the same members. -/
def sameMembers (a b : List String) : Bool :=
  a.length == b.length && a.all (b.contains ·) && b.all (a.contains ·)

instance : BEq AccessSet :=
  ⟨fun a b ↦ sameMembers a.users b.users && sameMembers a.groups b.groups⟩

def ofPrincipals (p : Principals) : AccessSet := new p.users p.groups

/-- Reads a set as it was written; duplicates stay. -/
def decode (d : Dialect δ) (j : δ) : Option AccessSet := do
  let fields ← d.record ["users", "groups"] j
  some {
    users := ← Dialect.required fields "users" (d.list d.text)
    groups := ← Dialect.required fields "groups" (d.list d.text) }

def encode (a : AccessSet) : Json :=
  .obj [("users", Json.texts a.users), ("groups", Json.texts a.groups)]

end AccessSet

end TenantAccess
