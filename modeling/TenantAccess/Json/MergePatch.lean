import TenantAccess.Json.Basic

/-!
# Merge patches

A patch that is an object changes the members it names: `null` removes one, an object patches one,
anything else replaces it.  A patch that is not an object is the new document.
-/

namespace TenantAccess.Json

/-- The members that a patch is applied to: those of an object, none of anything else. -/
def members : Json → List (String × Json)
  | obj fields => fields
  | _ => []

def removeMember (key : String) (fields : List (String × Json)) : List (String × Json) :=
  fields.filter fun e ↦ e.1 ≠ key

mutual

def mergePatch (target : Json) : Json → Json
  | obj changes => obj (patchMembers target.members changes)
  | patch => patch

def patchMembers (fields : List (String × Json)) : List (String × Json) → List (String × Json)
  | [] => fields
  | (key, null) :: rest => patchMembers (removeMember key fields) rest
  | (key, change) :: rest =>
    patchMembers (setMember key (mergePatch ((member? key fields).getD null) change) fields) rest

end

end TenantAccess.Json
