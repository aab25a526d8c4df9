import TenantAccess.Program
import TenantAccess.Rbac.Gate

/-!
# Bringing stored roles and bindings in line

`ensure` creates an object that is missing and corrects one that has drifted, if it belongs to the
given owner.  A role that fails the safety gate is refused before anything is read.
-/

namespace TenantAccess

/-- A kind of objects that can be compared with what is desired. -/
class Derived (α : Type) extends Resource α where
  /-- Rules that the safety gate looks at; bindings have none. -/
  gatedRules : α → Option (List PolicyRule)
  differs : (desired observed : α) → Bool
  /-- `observed` with the content of `desired`. -/
  apply : (desired observed : α) → α

instance (s : Scope) : Derived (Role s) where
  gatedRules r := some r.rules
  differs desired observed := desired.rules ≠ observed.rules
  apply desired observed := { observed with rules := desired.rules }

instance (s : Scope) : Derived (Binding s) where
  gatedRules _ := none
  differs desired observed :=
    desired.roleRef ≠ observed.roleRef || desired.subjects ≠ observed.subjects
  apply desired observed :=
    { observed with roleRef := desired.roleRef, subjects := desired.subjects }

inductive EnsureOutcome where
  | created
  | updated
  | unchanged
  /-- Refused by the safety gate. -/
  | rejected (verbs : List String)
  /-- It has other content and belongs to somebody else. -/
  | notOwned
deriving DecidableEq

namespace EnsureOutcome

def existed : EnsureOutcome → Bool
  | updated | unchanged | notOwned => true
  | created | rejected _ => false

def isWrite : EnsureOutcome → Bool
  | created | updated => true
  | _ => false

def name : EnsureOutcome → String
  | created => "created"
  | updated => "updated"
  | unchanged => "unchanged"
  | rejected _ => "rejected"
  | notOwned => "not_owned"

def decode (d : Dialect Json) (j : Json) : Option EnsureOutcome := do
  let (tag, content) ← j.tagged? "outcome"
  if tag = "rejected" then
    some (rejected (← Dialect.required (← d.record ["verbs"] content) "verbs" (d.list d.text)))
  else
    let _ ← Json.record? [] content
    [created, updated, unchanged, notOwned].find? fun o ↦ o.name = tag

def encode (o : EnsureOutcome) : Json :=
  .obj (("outcome", .str o.name) ::
    match o with
    | rejected verbs => [("verbs", Json.texts verbs)]
    | _ => [])

end EnsureOutcome

section

variable {α ω : Type} [Derived α] [Resource ω]

/-- The verbs for which the safety gate refuses `desired`. -/
def gate (desired : α) : List String :=
  ((Derived.gatedRules desired).map forbiddenVerbs).getD []

/-- `desired` with `owner` as its only owner. -/
def ownedBy (owner : ω) (desired : α) : α :=
  Resource.withMeta desired
    { Resource.metadata desired with ownerReferences := [OwnerReference.controllerOf owner] }

/-- Make the stored object match `desired` on behalf of `owner`. -/
def ensure (now : Timestamp) (desired : α) (owner : ω) : Task EnsureOutcome := do
  if gate desired ≠ [] then return .rejected (gate desired)
  match ← Task.find? (α := α) now (Resource.key desired) with
  | none =>
    let _ ← Task.create now (ownedBy owner desired)
    return .created
  | some observed =>
    if !Derived.differs desired observed then return .unchanged
    if !(Resource.metadata observed).isOwnedBy (Resource.metadata owner).uid then return .notOwned
    let _ ← Task.update now (Derived.apply desired observed)
    return .updated

end

end TenantAccess
