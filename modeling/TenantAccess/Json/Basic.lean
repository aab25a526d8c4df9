import TenantAccess.Binary64.Shortest

/-!
# JSON documents

A document keeps the members of an object in the order in which they were written.  Whole numbers
and fractions are told apart, since a reader may accept one and refuse the other.
-/

namespace TenantAccess

inductive Json where
  | null
  | bool (b : Bool)
  | int (n : Int)
  /-- A number that is written with a fraction or an exponent, or is too large for a whole one. -/
  | real (x : Binary64)
  | str (s : String)
  | arr (elems : List Json)
  | obj (fields : List (String × Json))
deriving Inhabited

namespace Json

def member? (key : String) : List (String × Json) → Option Json
  | [] => none
  | (k, v) :: rest => if k = key then some v else member? key rest

/-- Replace the member `key`, or add it at the end. -/
def setMember (key : String) (v : Json) : List (String × Json) → List (String × Json)
  | [] => [(key, v)]
  | (k, w) :: rest => if k = key then (key, v) :: rest else (k, w) :: setMember key v rest

def get? (key : String) : Json → Option Json
  | obj fields => member? key fields
  | _ => none

def isNull : Json → Bool
  | null => true
  | _ => false

@[simp] theorem member?_setMember (key k : String) (v : Json) (l : List (String × Json)) :
    member? k (setMember key v l) = if k = key then some v else member? k l := by
  induction l with
  | nil =>
    by_cases h : k = key
    · simp [setMember, member?, h]
    · simp [setMember, member?, h, Ne.symm h]
  | cons e rest ih =>
    obtain ⟨k', w⟩ := e
    by_cases hk : k' = key
    · subst hk
      by_cases h : k = k'
      · simp [setMember, member?, h]
      · simp [setMember, member?, h, Ne.symm h]
    · by_cases h : k' = k
      · subst h
        simp [setMember, member?, hk]
      · simp [setMember, member?, hk, h, ih]

/-- Apply `f` to every text that stands under a key for which `p` holds. -/
def mapText (p : String → Bool) (f : String → String) : Json → Json
  | arr elems => arr (mapElems elems)
  | obj fields => obj (mapFields fields)
  | j => j
where
  mapElems : List Json → List Json
    | [] => []
    | j :: rest => mapText p f j :: mapElems rest
  mapFields : List (String × Json) → List (String × Json)
    | [] => []
    | (k, str s) :: rest => (k, if p k then str (f s) else str s) :: mapFields rest
    | (k, j) :: rest => (k, mapText p f j) :: mapFields rest

end Json

end TenantAccess
