import TenantAccess.Dialect
import TenantAccess.Json.Basic

/-!
# JSON documents and typed values

In the strict dialect every scalar stands for itself only.
-/

namespace TenantAccess.Json

def strictText : Json → Option String
  | str s => some s
  | _ => none

def strictFlag : Json → Option Bool
  | bool b => some b
  | _ => none

/-- A count below `2 ^ 64`. -/
def strictCount : Json → Option Nat
  | int n => if 0 ≤ n ∧ n < UInt64.size then some n.toNat else none
  | _ => none

/-- The members of a record whose members are `names`: an object, or the leading members in
order. -/
def record? (names : List String) : Json → Option (List (String × Json))
  | obj fields => some fields
  | arr elems => if elems.length ≤ names.length then some (names.zip elems) else none
  | _ => none

/-- Whether a record that is written as a list has at least `n` members. -/
def fills (n : Nat) : Json → Bool
  | arr elems => n ≤ elems.length
  | _ => true

/-- The name of a case without content: a text, or an object with that one member, which is null. -/
def caseName? : Json → Option String
  | str s => some s
  | obj [(s, null)] => some s
  | _ => none

def elements? : Json → Option (List Json)
  | arr elems => some elems
  | _ => none

def members? : Json → Option (List (String × Json))
  | obj fields => some fields
  | _ => none

/-- Every scalar stands for itself only. -/
def strict : Dialect Json where
  isNull j := some j.isNull
  text := strictText
  flag := strictFlag
  count := strictCount
  elements := elements?
  members := members?
  record := record?
  fills := fills
  caseName := caseName?

/-- The tag of a tagged record and its other members. -/
def tagged? (tag : String) : Json → Option (String × Json)
  | obj fields => (member? tag fields).bind fun
    | str s => some (s, obj fields)
    | _ => none
  | arr (str s :: rest) => some (s, arr rest)
  | _ => none

/-! ## Writing -/

def texts (l : List String) : Json := arr (l.map str)

/-- A member that is written when there is a value. -/
def optionalMember (key : String) (encode : α → Json) : Option α → List (String × Json)
  | none => []
  | some a => [(key, encode a)]

/-- A member that is written unless the list is empty. -/
def listMember (key : String) (encode : α → Json) : List α → List (String × Json)
  | [] => []
  | l => [(key, arr (l.map encode))]

def nullable (encode : α → Json) : Option α → Json
  | none => null
  | some a => encode a

def dictionary (encode : α → Json) (m : SortedMap String α) : Json :=
  obj (m.entries.map fun e ↦ (e.1, encode e.2))

def nat (n : Nat) : Json := int n

end TenantAccess.Json
