import TenantAccess.Proofs.Rbac.Ownership
import TenantAccess.Selection.Selector

/-!
# Objects with other stamps

A store stamps what it files with an identity, a version and the time.  With other identities, versions
and times in their place an object says the same about everything else, and has the same owners.
-/

namespace TenantAccess

open Json

/-- Other identities, versions and times.  What is told apart stays so. -/
structure Restamping where
  uid : String → String
  version : String → String
  time : Timestamp → Timestamp
  uid_injective : ∀ u v, uid u = uid v → u = v
  version_injective : ∀ u v, version u = version v → u = v
  uid_empty : uid "" = ""
  version_empty : version "" = ""

namespace Restamping

variable (ρ : Restamping) {m : ObjectMeta}

theorem uid_inj {u v : String} : ρ.uid u = ρ.uid v ↔ u = v :=
  ⟨ρ.uid_injective u v, congrArg ρ.uid⟩

theorem version_inj {u v : String} : ρ.version u = ρ.version v ↔ u = v :=
  ⟨ρ.version_injective u v, congrArg ρ.version⟩

theorem uid_eq_empty_iff {u : String} : ρ.uid u = "" ↔ u = "" := by
  rw [← ρ.uid_inj (u := u), ρ.uid_empty]

def owner (r : OwnerReference) : OwnerReference := { r with uid := ρ.uid r.uid }

def metadata (m : ObjectMeta) : ObjectMeta :=
  { m with
    uid := ρ.uid m.uid
    resourceVersion := m.resourceVersion.map ρ.version
    ownerReferences := m.ownerReferences.map ρ.owner
    creationTimestamp := m.creationTimestamp.map ρ.time }

@[simp] theorem name_metadata : (ρ.metadata m).name = m.name := rfl

@[simp] theorem ns?_metadata : (ρ.metadata m).ns? = m.ns? := rfl

@[simp] theorem uid_metadata : (ρ.metadata m).uid = ρ.uid m.uid := rfl

@[simp] theorem key_metadata : (ρ.metadata m).key = m.key := rfl

@[simp] theorem isOwnedBy_metadata (m : ObjectMeta) (uid : String) :
    (ρ.metadata m).isOwnedBy (ρ.uid uid) = m.isOwnedBy uid := by
  simp only [ObjectMeta.isOwnedBy, metadata, List.any_map, ne_eq, ρ.uid_eq_empty_iff]
  congr 2
  funext r
  exact decide_eq_decide.2 ρ.uid_inj

@[simp] theorem accepts_metadata (p : ListParams) (m : ObjectMeta) :
    p.accepts (ρ.metadata m) = p.accepts m := rfl

theorem getD_version_metadata (m : ObjectMeta) :
    (ρ.metadata m).resourceVersion.getD "" = ρ.version (m.resourceVersion.getD "") := by
  change (m.resourceVersion.map ρ.version).getD "" = _
  cases m.resourceVersion with
  | none => exact ρ.version_empty.symm
  | some v => rfl

theorem scopeDefect_metadata (kind : Kind) (m : ObjectMeta) :
    Store.scopeDefect kind (ρ.metadata m) = Store.scopeDefect kind m := rfl

/-! ## Conditions -/

def condition (c : Condition) : Condition :=
  { c with lastTransitionTime := ρ.time c.lastTransitionTime }

theorem find?_map_condition (type : String) (l : List Condition) :
    Condition.find? type (l.map ρ.condition) = (Condition.find? type l).map ρ.condition := by
  rw [Condition.find?, List.find?_map]
  rfl

theorem isTrue_map_condition (type : String) (l : List Condition) :
    Condition.isTrue type (l.map ρ.condition) = Condition.isTrue type l := by
  rw [Condition.isTrue, Condition.isTrue, find?_map_condition]
  cases Condition.find? type l <;> rfl

theorem changes_map_condition (c : Condition) (l : List Condition) :
    (ρ.condition c).changes (l.map ρ.condition) = c.changes l := by
  have hfind : Condition.find? (ρ.condition c).type (l.map ρ.condition) =
      (Condition.find? c.type l).map ρ.condition := find?_map_condition ..
  unfold Condition.changes
  rw [hfind]
  cases Condition.find? c.type l <;> rfl

theorem refresh_condition (c new : Condition) :
    (ρ.condition c).refresh (ρ.condition new) = ρ.condition (c.refresh new) := by
  simp only [Condition.refresh, condition]
  rw [apply_ite ρ.time]
  rfl

theorem set_map_condition (new : Condition) (l : List Condition) :
    (ρ.condition new).set (l.map ρ.condition) = (new.set l).map ρ.condition := by
  induction l with
  | nil => rfl
  | cons c rest ih =>
    simp only [List.map_cons, Condition.set]
    change (if c.type = new.type then _ else _) = _
    split
    · rw [List.map_cons, ρ.refresh_condition]
    · rw [List.map_cons, ih]

end Restamping

namespace ObjectMeta

def Blank (m : ObjectMeta) : Prop :=
  m.uid = "" ∧ m.resourceVersion = none ∧ m.creationTimestamp = none

theorem Blank.restamp_owned (ρ : Restamping) {m : ObjectMeta} (h : m.Blank) (r : OwnerReference) :
    ρ.metadata { m with ownerReferences := [r] } = { m with ownerReferences := [ρ.owner r] } := by
  obtain ⟨huid, hversion, htime⟩ := h
  simp [Restamping.metadata, huid, hversion, htime, ρ.uid_empty]

theorem Blank.restamp_eq (ρ : Restamping) {m : ObjectMeta} (h : m.Blank)
    (howners : m.ownerReferences = []) : ρ.metadata m = m := by
  obtain ⟨huid, hversion, htime⟩ := h
  cases m
  simp_all [Restamping.metadata, ρ.uid_empty]

end ObjectMeta

/-! ## Objects -/

/-- A type whose objects take other stamps. -/
class Resource.Stamped (α : Type) [Resource α] : Type extends Resource.Lawful α where
  restamp : Restamping → α → α
  metadata_restamp (ρ : Restamping) (a : α) :
    Resource.metadata (restamp ρ a) = ρ.metadata (Resource.metadata a)
  restamp_withMeta (ρ : Restamping) (a : α) (m : ObjectMeta) :
    restamp ρ (Resource.withMeta a m) = Resource.withMeta (restamp ρ a) (ρ.metadata m)
  withMeta_restamp (ρ ρ' : Restamping) (htime : ρ'.time = ρ.time) (a : α) (m : ObjectMeta) :
    Resource.withMeta (restamp ρ' a) m = Resource.withMeta (restamp ρ a) m

open Resource.Stamped (restamp)

instance : Resource.Stamped Tenant where
  restamp ρ t := { t with metadata := ρ.metadata t.metadata }
  metadata_restamp _ _ := rfl
  restamp_withMeta _ _ _ := rfl
  withMeta_restamp _ _ _ _ _ := rfl

instance : Resource.Stamped Inventory where
  restamp ρ i := { i with metadata := ρ.metadata i.metadata }
  metadata_restamp _ _ := rfl
  restamp_withMeta _ _ _ := rfl
  withMeta_restamp _ _ _ _ _ := rfl

instance : Resource.Stamped Config where
  restamp ρ c := { c with
    metadata := ρ.metadata c.metadata
    conditions := c.conditions.map ρ.condition }
  metadata_restamp _ _ := rfl
  restamp_withMeta _ _ _ := rfl
  withMeta_restamp ρ ρ' htime c m := by
    have hcondition : ρ'.condition = ρ.condition := by
      funext c
      rw [Restamping.condition, Restamping.condition, htime]
    simp only [Resource.withMeta, hcondition]

instance (s : Scope) : Resource.Stamped (Role s) where
  restamp ρ r := { r with metadata := ρ.metadata r.metadata }
  metadata_restamp _ _ := rfl
  restamp_withMeta _ _ _ := rfl
  withMeta_restamp _ _ _ _ _ := rfl

instance (s : Scope) : Resource.Stamped (Binding s) where
  restamp ρ b := { b with metadata := ρ.metadata b.metadata }
  metadata_restamp _ _ := rfl
  restamp_withMeta _ _ _ := rfl
  withMeta_restamp _ _ _ _ _ := rfl

instance : Resource.Stamped ResourceQuota where
  restamp ρ q := { q with metadata := ρ.metadata q.metadata }
  metadata_restamp _ _ := rfl
  restamp_withMeta _ _ _ := rfl
  withMeta_restamp _ _ _ _ _ := rfl

instance : (k : Kind) → Resource.Stamped k.Object
  | .tenant => (inferInstance : Resource.Stamped Tenant)
  | .inventory => (inferInstance : Resource.Stamped Inventory)
  | .config => (inferInstance : Resource.Stamped Config)
  | .role => (inferInstance : Resource.Stamped (Role .namespaced))
  | .roleBinding => (inferInstance : Resource.Stamped (Binding .namespaced))
  | .clusterRole => (inferInstance : Resource.Stamped (Role .cluster))
  | .clusterRoleBinding => (inferInstance : Resource.Stamped (Binding .cluster))
  | .resourceQuota => (inferInstance : Resource.Stamped ResourceQuota)

/-- A type that is that of all objects of its kind, which take the same stamps. -/
class Resource.Stamped.Native (α : Type) [Resource α] [Resource.Stamped α] : Prop
    extends Resource.Native α where
  exists_restamp (a : α) : ∃ o : (Resource.kind α).Object, Resource.encode o = Resource.encode a ∧
    ∀ ρ : Restamping, Resource.encode (restamp ρ o) = Resource.encode (restamp ρ a)

instance : Resource.Stamped.Native Tenant := ⟨fun t ↦ ⟨t, rfl, fun _ ↦ rfl⟩⟩

instance : Resource.Stamped.Native Inventory := ⟨fun i ↦ ⟨i, rfl, fun _ ↦ rfl⟩⟩

instance : Resource.Stamped.Native Config where
  exists_object c := ⟨c, rfl⟩
  exists_native c := ⟨c, rfl⟩
  exists_restamp c := ⟨c, rfl, fun _ ↦ rfl⟩

instance (s : Scope) : Resource.Stamped.Native (Role s) :=
  match s with
  | .namespaced => ⟨fun r ↦ ⟨r, rfl, fun _ ↦ rfl⟩⟩
  | .cluster => ⟨fun r ↦ ⟨r, rfl, fun _ ↦ rfl⟩⟩

instance (s : Scope) : Resource.Stamped.Native (Binding s) :=
  match s with
  | .namespaced => ⟨fun b ↦ ⟨b, rfl, fun _ ↦ rfl⟩⟩
  | .cluster => ⟨fun b ↦ ⟨b, rfl, fun _ ↦ rfl⟩⟩

instance : Resource.Stamped.Native ResourceQuota where
  exists_object q := ⟨q, rfl⟩
  exists_native q := ⟨q, rfl⟩
  exists_restamp q := ⟨q, rfl, fun _ ↦ rfl⟩

instance : (k : Kind) → Resource.Stamped.Native k.Object
  | .tenant => inferInstanceAs (Resource.Stamped.Native Tenant)
  | .inventory => inferInstanceAs (Resource.Stamped.Native Inventory)
  | .config => inferInstanceAs (Resource.Stamped.Native Config)
  | .role => inferInstanceAs (Resource.Stamped.Native (Role .namespaced))
  | .roleBinding => inferInstanceAs (Resource.Stamped.Native (Binding .namespaced))
  | .clusterRole => inferInstanceAs (Resource.Stamped.Native (Role .cluster))
  | .clusterRoleBinding => inferInstanceAs (Resource.Stamped.Native (Binding .cluster))
  | .resourceQuota => inferInstanceAs (Resource.Stamped.Native ResourceQuota)

theorem OwnerReference.controllerOf_restamp (ρ : Restamping) {ω : Type} [Resource ω]
    [Resource.Stamped ω] (owner : ω) :
    OwnerReference.controllerOf (restamp ρ owner) = ρ.owner (OwnerReference.controllerOf owner) := by
  simp only [OwnerReference.controllerOf, Restamping.owner, Resource.name,
    Resource.Stamped.metadata_restamp]
  rfl

namespace Restamping

/-- What a document says with other stamps, if it can be read as an object of the kind. -/
def document (ρ : Restamping) (kind : Kind) (object : Json) : Json :=
  match (Resource.decode strict default object : Option kind.Object) with
  | some o => Resource.encode (restamp ρ o)
  | none => object

theorem document_object (ρ : Restamping) {kind : Kind} (o : kind.Object) :
    ρ.document kind (Resource.encode o) = Resource.encode (restamp ρ o) := by
  rw [document, Resource.decode_encode]

@[simp] theorem document_encode {α : Type} [Resource α] [Resource.Stamped α]
    [Resource.Stamped.Native α] (ρ : Restamping) (a : α) :
    ρ.document (Resource.kind α) (Resource.encode a) = Resource.encode (restamp ρ a) := by
  obtain ⟨o, ho, hrestamp⟩ := Resource.Stamped.Native.exists_restamp a
  rw [← ho, document_object, hrestamp]

end Restamping

end TenantAccess
