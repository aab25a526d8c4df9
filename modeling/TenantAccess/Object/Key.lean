import TenantAccess.Json.Decode
import TenantAccess.Object.Kind

/-!
# Names of objects

An `ObjectKey` names an object among those of its kind, an `ObjectRef` among all objects.  Keys
without a namespace come first; then namespaces and names count in this order.
-/

namespace TenantAccess

open Std

structure ObjectKey where
  ns? : Option String
  name : String
deriving DecidableEq, Inhabited

namespace ObjectKey

def namespaced (ns name : String) : ObjectKey := ⟨some ns, name⟩

def cluster (name : String) : ObjectKey := ⟨none, name⟩

/-- `namespace/name`, or the name alone. -/
def text (k : ObjectKey) : String :=
  match k.ns? with
  | some ns => ns ++ "/" ++ k.name
  | none => k.name

instance : Ord ObjectKey :=
  ⟨compareLex (compareOn ns?) (compareOn name)⟩

instance : TransOrd ObjectKey := inferInstanceAs (TransCmp (compareLex _ _))

theorem compare_eq (a b : ObjectKey) :
    compare a b = (compare a.ns? b.ns?).then (compare a.name b.name) := rfl

instance : LawfulEqOrd ObjectKey where
  compare_self {a} := by rw [compare_eq, compare_self, compare_self]; rfl
  eq_of_compare {a b} h := by
    rw [compare_eq, Ordering.then_eq_eq] at h
    obtain ⟨_, _⟩ := a
    obtain ⟨_, _⟩ := b
    cases LawfulEqOrd.eq_of_compare h.1
    cases LawfulEqOrd.eq_of_compare h.2
    rfl

def decode (d : Dialect δ) (j : δ) : Option ObjectKey := do
  let fields ← d.record ["namespace", "name"] j
  some ⟨← d.optional fields "namespace" d.text, ← Dialect.required fields "name" d.text⟩

def encode (k : ObjectKey) : Json :=
  .obj [("namespace", Json.nullable .str k.ns?), ("name", .str k.name)]

end ObjectKey

structure ObjectRef where
  kind : Kind
  key : ObjectKey
deriving DecidableEq, Inhabited

namespace ObjectRef

instance : Ord ObjectRef :=
  ⟨compareLex (compareOn kind) (compareOn key)⟩

instance : TransOrd ObjectRef := inferInstanceAs (TransCmp (compareLex _ _))

theorem compare_eq (a b : ObjectRef) :
    compare a b = (compare a.kind b.kind).then (compare a.key b.key) := rfl

instance : LawfulEqOrd ObjectRef where
  compare_self {a} := by rw [compare_eq, compare_self, compare_self]; rfl
  eq_of_compare {a b} h := by
    rw [compare_eq, Ordering.then_eq_eq] at h
    obtain ⟨_, _⟩ := a
    obtain ⟨_, _⟩ := b
    cases LawfulEqOrd.eq_of_compare h.1
    cases LawfulEqOrd.eq_of_compare h.2
    rfl

/-- The kind and the key, in words. -/
def text (r : ObjectRef) : String := r.kind.name ++ " " ++ r.key.text

end ObjectRef

end TenantAccess
