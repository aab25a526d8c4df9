import TenantAccess.Access.AccessSet
import TenantAccess.Object.Role

/-!
# Subjects of a binding

Users come first, then groups, each in the order of the set.  The identity of a service account,
`system:serviceaccount:NAMESPACE:NAME`, becomes a subject in its own namespace; a malformed one
gets no subject.
-/

namespace TenantAccess

def serviceAccountStart : List Char := "system:serviceaccount:".toList

/-- What follows the start of a service account identity; `none` for any other user. -/
def afterServiceAccountStart (user : String) : Option (List Char) :=
  if serviceAccountStart.isPrefixOf user.toList then
    some (user.toList.drop serviceAccountStart.length)
  else none

/-- Namespace and name, split at the only colon, neither of them empty. -/
def splitServiceAccount (cs : List Char) : Option (String × String) :=
  let ns := cs.takeWhile (· ≠ ':')
  match cs.dropWhile (· ≠ ':') with
  | ':' :: name =>
    if ns.isEmpty || name.isEmpty || name.contains ':' then none
    else some (String.ofList ns, String.ofList name)
  | _ => none

namespace Subject

def serviceAccount (ns name : String) : Subject :=
  { kind := .serviceAccount, name, ns? := some ns }

def principal (kind : SubjectKind) (name : String) (ns : Option String) : Subject :=
  { kind, name, ns? := ns, apiGroup := some rbacGroup }

def ofUser? (ns : Option String) (user : String) : Option Subject :=
  match afterServiceAccountStart user with
  | none => some (principal .user user ns)
  | some cs => (splitServiceAccount cs).map fun (accountNs, name) ↦ serviceAccount accountNs name

end Subject

/-- The subjects of a binding in the namespace `ns`, or of one for the whole cluster. -/
def AccessSet.subjects (a : AccessSet) (ns : Option String) : List Subject :=
  a.users.filterMap (Subject.ofUser? ns) ++ a.groups.map fun g ↦ Subject.principal .group g ns

end TenantAccess
