import TenantAccess.SortedMap

/-!
# Typed reading of documents

A `Dialect` says how the documents of a type spell texts, truth values, counts, records and cases.
The readers of typed values take it as an argument, so one reader serves every type of document.
-/

namespace TenantAccess

structure Dialect (δ : Type) where
  /-- Whether a document stands for no value; `none` if it claims to and does not. -/
  isNull : δ → Option Bool
  text : δ → Option String
  flag : δ → Option Bool
  count : δ → Option Nat
  elements : δ → Option (List δ)
  /-- The members of a dictionary, where the last one of each key counts. -/
  members : δ → Option (List (String × δ))
  /-- The members of a record whose members are named. -/
  record : List String → δ → Option (List (String × δ))
  /-- Whether a record that is written as a list has at least so many members. -/
  fills : Nat → δ → Bool
  /-- The name of a case without content. -/
  caseName : δ → Option String

namespace Dialect

/-- A member that must be there. -/
def required (fields : List (String × δ)) (key : String) (decode : δ → Option α) : Option α :=
  (fields.lookup key).bind decode

/-- A member that may be missing. -/
def defaulted (fields : List (String × δ)) (key : String) (default : α) (decode : δ → Option α) :
    Option α :=
  match fields.lookup key with
  | none => some default
  | some j => decode j

/-- A member that may be missing or null. -/
def optional (d : Dialect δ) (fields : List (String × δ)) (key : String) (decode : δ → Option α) :
    Option (Option α) :=
  match fields.lookup key with
  | none => some none
  | some j => do if ← d.isNull j then some none else (decode j).map some

def list (d : Dialect δ) (decode : δ → Option α) (j : δ) : Option (List α) := do
  (← d.elements j).mapM decode

def dictionary (d : Dialect δ) (decode : δ → Option α) (j : δ) : Option (SortedMap String α) := do
  let members ← (← d.members j).mapM fun (key, v) ↦ return (key, ← decode v)
  return .ofList members

end Dialect

end TenantAccess
