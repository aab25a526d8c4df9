import TenantAccess.Proofs.Document.RoundTrip
import TenantAccess.Store.Basic

/-!
# Metadata within documents

The store reads and replaces the metadata of a document and leaves the rest alone.  A typed reader
sees the same metadata as the store, and in a document that an object was written to, the store
replaces the metadata of that object.
-/

namespace TenantAccess

open Json

/-- What ties the document form of a type to its metadata. -/
class Resource.Lawful (α : Type) [Resource α] : Prop where
  decode_encode (now : Timestamp) (a : α) :
    Resource.decode strict now (Resource.encode a) = some a
  metadata_withMeta (a : α) (m : ObjectMeta) :
    Resource.metadata (Resource.withMeta a m) = m
  /-- The metadata is the first member that is written, and nothing else depends on it. -/
  exists_encode_eq (a : α) : ∃ rest,
    Resource.encode a = .obj (("metadata", (Resource.metadata a).encode) :: rest) ∧
    ∀ m, Resource.encode (Resource.withMeta a m) = .obj (("metadata", m.encode) :: rest)
  withMeta_metadata (a : α) : Resource.withMeta a (Resource.metadata a) = a
  required_metadata {now : Timestamp} {fields : List (String × Json)} {a : α} :
    Resource.decode strict now (.obj fields) = some a →
      Dialect.required fields "metadata" (ObjectMeta.decode strict) = some (Resource.metadata a)

theorem required_setMember (m : ObjectMeta) (fields : List (String × Json)) :
    Dialect.required (setMember "metadata" m.encode fields) "metadata"
      (ObjectMeta.decode strict) = some m :=
  required_eq ObjectMeta.inverts (by simp)

instance : Resource.Lawful Tenant where
  decode_encode _ := Tenant.inverts.decode_encode
  metadata_withMeta _ _ := rfl
  exists_encode_eq _ := ⟨_, rfl, fun _ ↦ rfl⟩
  withMeta_metadata _ := rfl
  required_metadata h := by
    simp only [Resource.decode, Tenant.decode, strict_record_obj, bind_some_eq,
      Option.bind_eq_bind, Option.bind_eq_some_iff] at h
    obtain ⟨m, hm, s, -, h⟩ := h
    cases h
    exact hm

instance : Resource.Lawful Inventory where
  decode_encode now := (Inventory.inverts now).decode_encode
  metadata_withMeta _ _ := rfl
  exists_encode_eq _ := ⟨_, rfl, fun _ ↦ rfl⟩
  withMeta_metadata _ := rfl
  required_metadata h := by
    simp only [Resource.decode, Inventory.decode, strict_record_obj, bind_some_eq,
      Option.bind_eq_bind, Option.bind_eq_some_iff] at h
    obtain ⟨m, hm, s, -, c, -, h⟩ := h
    cases h
    exact hm

instance : Resource.Lawful Config where
  decode_encode now := (Config.inverts now).decode_encode
  metadata_withMeta _ _ := rfl
  exists_encode_eq _ := ⟨_, rfl, fun _ ↦ rfl⟩
  withMeta_metadata _ := rfl
  required_metadata h := by
    simp only [Resource.decode, Config.decode, strict_record_obj, bind_some_eq,
      Option.bind_eq_bind, Option.bind_eq_some_iff] at h
    obtain ⟨m, hm, s, -, c, -, h⟩ := h
    cases h
    exact hm

instance (s : Scope) : Resource.Lawful (Role s) where
  decode_encode _ := Role.inverts.decode_encode
  metadata_withMeta _ _ := rfl
  exists_encode_eq _ := ⟨_, rfl, fun _ ↦ rfl⟩
  withMeta_metadata _ := rfl
  required_metadata h := by
    simp only [Resource.decode, Role.decode, strict_record_obj, bind_some_eq,
      Option.bind_eq_bind, Option.bind_eq_some_iff] at h
    obtain ⟨m, hm, r, -, h⟩ := h
    cases h
    exact hm

instance (s : Scope) : Resource.Lawful (Binding s) where
  decode_encode _ := Binding.inverts.decode_encode
  metadata_withMeta _ _ := rfl
  exists_encode_eq _ := ⟨_, rfl, fun _ ↦ rfl⟩
  withMeta_metadata _ := rfl
  required_metadata h := by
    simp only [Resource.decode, Binding.decode, strict_record_obj, bind_some_eq,
      Option.bind_eq_bind, Option.bind_eq_some_iff] at h
    obtain ⟨m, hm, r, -, l, -, h⟩ := h
    cases h
    exact hm

instance : Resource.Lawful ResourceQuota where
  decode_encode _ := ResourceQuota.inverts.decode_encode
  metadata_withMeta _ _ := rfl
  exists_encode_eq _ := ⟨_, rfl, fun _ ↦ rfl⟩
  withMeta_metadata _ := rfl
  required_metadata h := by
    simp only [Resource.decode, ResourceQuota.decode, strict_record_obj, bind_some_eq,
      Option.bind_eq_bind, Option.bind_eq_some_iff] at h
    obtain ⟨m, hm, r, -, h⟩ := h
    cases h
    exact hm

instance : (k : Kind) → Resource.Lawful k.Object
  | .tenant => inferInstanceAs (Resource.Lawful Tenant)
  | .inventory => inferInstanceAs (Resource.Lawful Inventory)
  | .config => inferInstanceAs (Resource.Lawful Config)
  | .role => inferInstanceAs (Resource.Lawful (Role .namespaced))
  | .roleBinding => inferInstanceAs (Resource.Lawful (Binding .namespaced))
  | .clusterRole => inferInstanceAs (Resource.Lawful (Role .cluster))
  | .clusterRoleBinding => inferInstanceAs (Resource.Lawful (Binding .cluster))
  | .resourceQuota => inferInstanceAs (Resource.Lawful ResourceQuota)

namespace Resource

variable {α : Type} [Resource α] [Lawful α] {now : Timestamp}

@[simp] theorem decode_encode (a : α) : decode strict now (encode a) = some a :=
  Lawful.decode_encode now a

@[simp] theorem metadata_withMeta (a : α) (m : ObjectMeta) : metadata (withMeta a m) = m :=
  Lawful.metadata_withMeta a m

@[simp] theorem withMeta_metadata (a : α) : withMeta a (metadata a) = a :=
  Lawful.withMeta_metadata a

theorem encode_injective {a b : α} (h : encode a = encode b) : a = b := by
  simpa using congrArg (decode (α := α) strict default) h

end Resource

namespace Store

variable {kind : Kind} {object : Json} {m : ObjectMeta}

theorem exists_fields_of_metaOf (h : metaOf kind object = .ok m) :
    ∃ fields, object = .obj fields ∧
      Dialect.required fields "metadata" (ObjectMeta.decode strict) = some m := by
  cases object with
  | obj fields =>
    refine ⟨fields, rfl, ?_⟩
    simp only [metaOf, Json.get?, member?_eq_lookup] at h
    split at h
    · cases h
    · next hj =>
      split at h
      · next hm =>
        cases h
        simp [Dialect.required, hj, hm]
      · cases h
  | _ => simp [metaOf, Json.get?] at h

theorem metaOf_obj {fields : List (String × Json)}
    (h : Dialect.required fields "metadata" (ObjectMeta.decode strict) = some m) :
    metaOf kind (.obj fields) = .ok m := by
  obtain ⟨j, hj, hm⟩ := Option.bind_eq_some_iff.1 h
  simp [metaOf, Json.get?, member?_eq_lookup, hj, hm]

/-- Replaced metadata is what the store reads next. -/
theorem metaOf_withMeta {m₀ : ObjectMeta} (h : metaOf kind object = .ok m₀) (m : ObjectMeta) :
    metaOf kind (withMeta object m) = .ok m := by
  obtain ⟨fields, rfl, -⟩ := exists_fields_of_metaOf h
  exact metaOf_obj (required_setMember m fields)

theorem refiled_eq_ok {m₀ : ObjectMeta} (h : metaOf kind object = .ok m₀) (m : ObjectMeta) :
    refiled kind object m = .ok (withMeta object m) := by
  obtain ⟨fields, rfl, -⟩ := exists_fields_of_metaOf h
  rfl

variable {α : Type} [Resource α] [Resource.Lawful α] {now : Timestamp} {a : α}

@[simp] theorem metaOf_encode (kind : Kind) (a : α) :
    metaOf kind (Resource.encode a) = .ok (Resource.metadata a) := by
  obtain ⟨rest, h, -⟩ := Resource.Lawful.exists_encode_eq a
  rw [h]
  exact metaOf_obj (required_eq ObjectMeta.inverts (by simp))

@[simp] theorem withMeta_encode (a : α) (m : ObjectMeta) :
    withMeta (Resource.encode a) m = Resource.encode (Resource.withMeta a m) := by
  obtain ⟨rest, h, hm⟩ := Resource.Lawful.exists_encode_eq a
  simp [h, hm, withMeta, setMember]

theorem metadata_eq_of_decode (h : Resource.decode strict now object = some a)
    (hm : metaOf kind object = .ok m) : Resource.metadata a = m := by
  obtain ⟨fields, rfl, hfields⟩ := exists_fields_of_metaOf hm
  exact Option.some.inj ((Resource.Lawful.required_metadata h).symm.trans hfields)

end Store

end TenantAccess
