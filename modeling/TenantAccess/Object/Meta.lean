import TenantAccess.Object.Key
import TenantAccess.Time.Timestamp

/-!
# Metadata

Identity, version, labels and owners: what every object carries whatever its kind.
-/

namespace TenantAccess

def Timestamp.decode (d : Dialect δ) (j : δ) : Option Timestamp :=
  (d.text j).bind Timestamp.ofString?

def Timestamp.encode (t : Timestamp) : Json := .str t.text

/-- A declared owner: an object goes when one of its owners goes. -/
structure OwnerReference where
  apiVersion : String
  kind : String
  name : String
  uid : String
  controller : Option Bool
  blockOwnerDeletion : Option Bool
deriving DecidableEq

namespace OwnerReference

def decode (d : Dialect δ) (j : δ) : Option OwnerReference := do
  let fields ← d.record ["apiVersion", "kind", "name", "uid", "controller", "blockOwnerDeletion"] j
  some {
    apiVersion := ← Dialect.required fields "apiVersion" d.text
    kind := ← Dialect.required fields "kind" d.text
    name := ← Dialect.required fields "name" d.text
    uid := ← Dialect.required fields "uid" d.text
    controller := ← d.optional fields "controller" d.flag
    blockOwnerDeletion := ← d.optional fields "blockOwnerDeletion" d.flag }

def encode (r : OwnerReference) : Json :=
  .obj ([("apiVersion", .str r.apiVersion), ("kind", .str r.kind), ("name", .str r.name),
      ("uid", .str r.uid)] ++
    Json.optionalMember "controller" .bool r.controller ++
    Json.optionalMember "blockOwnerDeletion" .bool r.blockOwnerDeletion)

end OwnerReference

structure ObjectMeta where
  name : String
  ns? : Option String := none
  uid : String := ""
  resourceVersion : Option String := none
  labels : SortedMap String String := ∅
  ownerReferences : List OwnerReference := []
  creationTimestamp : Option Timestamp := none
deriving DecidableEq

namespace ObjectMeta

def cluster (name : String) : ObjectMeta := { name }

def namespaced (ns name : String) : ObjectMeta := { name, ns? := some ns }

def key (m : ObjectMeta) : ObjectKey := ⟨m.ns?, m.name⟩

/-- Whether an owner reference carries `uid`; nobody is owned by the empty uid. -/
def isOwnedBy (m : ObjectMeta) (uid : String) : Bool :=
  uid ≠ "" && m.ownerReferences.any fun r ↦ r.uid = uid

def decode (d : Dialect δ) (j : δ) : Option ObjectMeta := do
  let fields ← d.record ["name", "namespace", "uid", "resourceVersion", "labels",
    "ownerReferences", "creationTimestamp"] j
  some {
    name := ← Dialect.required fields "name" d.text
    ns? := ← d.optional fields "namespace" d.text
    uid := ← Dialect.defaulted fields "uid" "" d.text
    resourceVersion := ← d.optional fields "resourceVersion" d.text
    labels := ← Dialect.defaulted fields "labels" ∅ (d.dictionary d.text)
    ownerReferences :=
      ← Dialect.defaulted fields "ownerReferences" [] (d.list (OwnerReference.decode d))
    creationTimestamp := ← d.optional fields "creationTimestamp" (Timestamp.decode d) }

def encode (m : ObjectMeta) : Json :=
  .obj ([("name", .str m.name)] ++
    Json.optionalMember "namespace" .str m.ns? ++
    (if m.uid = "" then [] else [("uid", .str m.uid)]) ++
    Json.optionalMember "resourceVersion" .str m.resourceVersion ++
    (if m.labels.isEmpty then [] else [("labels", Json.dictionary .str m.labels)]) ++
    Json.listMember "ownerReferences" OwnerReference.encode m.ownerReferences ++
    Json.optionalMember "creationTimestamp" Timestamp.encode m.creationTimestamp)

end ObjectMeta

end TenantAccess
