import TenantAccess.Object.Resource
import TenantAccess.Proofs.Document.Member
import TenantAccess.Proofs.Document.Time

/-!
# Written objects read back

The strict reader of every type of objects undoes its writer.
-/

namespace TenantAccess

open Json

theorem bind_some_eq {α β : Type} (a : α) (f : α → Option β) : (some a >>= f) = f a := rfl

theorem Timestamp.inverts : Inverts (Timestamp.decode strict) Timestamp.encode :=
  ⟨fun t ↦ by simp [Timestamp.decode, Timestamp.encode], fun _ ↦ rfl⟩

theorem OwnerReference.inverts : Inverts (OwnerReference.decode strict) OwnerReference.encode := by
  refine ⟨fun r ↦ ?_, fun _ ↦ rfl⟩
  rw [encode, decode, strict_record_obj, bind_some_eq,
    required_eq .text (a := r.apiVersion) (by simp), bind_some_eq,
    required_eq .text (a := r.kind) (by simp [List.lookup_cons]), bind_some_eq,
    required_eq .text (a := r.name) (by simp [List.lookup_cons]), bind_some_eq,
    required_eq .text (a := r.uid) (by simp [List.lookup_cons]), bind_some_eq,
    optional_eq .flag (o := r.controller) (by simp [List.lookup_append, List.lookup_cons]),
    bind_some_eq,
    optional_eq .flag (o := r.blockOwnerDeletion)
      (by simp [List.lookup_append, List.lookup_cons]), bind_some_eq]

namespace ObjectMeta

theorem lookup_uid (m : ObjectMeta) (key : String) :
    (if m.uid = "" then [] else [("uid", Json.str m.uid)]).lookup key =
      if key = "uid" ∧ m.uid ≠ "" then some (.str m.uid) else none := by
  split
  · next h => simp [h]
  · next h => simp [lookup_single, h]

theorem lookup_labels (m : ObjectMeta) (key : String) :
    (if m.labels.isEmpty then [] else [("labels", Json.dictionary .str m.labels)]).lookup key =
      if key = "labels" ∧ m.labels.isEmpty = false then some (Json.dictionary .str m.labels)
      else none := by
  split
  · next h => simp [h]
  · next h => simp [lookup_single, h]

theorem inverts : Inverts (ObjectMeta.decode strict) ObjectMeta.encode := by
  refine ⟨fun m ↦ ?_, fun _ ↦ rfl⟩
  obtain ⟨fields, hfields⟩ : ∃ fields, fields = [("name", Json.str m.name)] ++
    optionalMember "namespace" .str m.ns? ++
    (if m.uid = "" then [] else [("uid", Json.str m.uid)]) ++
    optionalMember "resourceVersion" .str m.resourceVersion ++
    (if m.labels.isEmpty then [] else [("labels", Json.dictionary .str m.labels)]) ++
    listMember "ownerReferences" OwnerReference.encode m.ownerReferences ++
    optionalMember "creationTimestamp" Timestamp.encode m.creationTimestamp := ⟨_, rfl⟩
  have hname : fields.lookup "name" = some (.str m.name) := by
    simp [hfields]
  have hns : fields.lookup "namespace" = m.ns?.map .str := by
    simp [hfields, List.lookup_append, List.lookup_cons, lookup_uid, lookup_labels]
  have huid : Dialect.defaulted fields "uid" "" strict.text = some m.uid := by
    by_cases h : m.uid = ""
    · simp [Dialect.defaulted, hfields, List.lookup_append, List.lookup_cons, lookup_labels, h]
    · refine defaulted_eq .text "" ?_
      simp [hfields, List.lookup_append, List.lookup_cons, h]
  have hversion : fields.lookup "resourceVersion" = m.resourceVersion.map .str := by
    simp [hfields, List.lookup_append, List.lookup_cons, lookup_uid, lookup_labels]
  have hlabels : Dialect.defaulted fields "labels" ∅ (strict.dictionary strict.text) =
      some m.labels := by
    by_cases h : m.labels.isEmpty
    · rw [SortedMap.eq_empty_of_isEmpty h]
      simp [Dialect.defaulted, hfields, List.lookup_append, List.lookup_cons, lookup_uid, h]
    · refine defaulted_eq (.dictionary .text) ∅ ?_
      simp [hfields, List.lookup_append, List.lookup_cons, lookup_uid, h]
  have howners : fields.lookup "ownerReferences" =
      (listMember "ownerReferences" OwnerReference.encode m.ownerReferences).lookup
        "ownerReferences" := by
    simp [hfields, List.lookup_append, List.lookup_cons, lookup_uid, lookup_labels]
  have htime : fields.lookup "creationTimestamp" =
      m.creationTimestamp.map Timestamp.encode := by
    simp [hfields, List.lookup_append, List.lookup_cons, lookup_uid, lookup_labels]
  rw [encode, ← hfields, decode, strict_record_obj, bind_some_eq,
    required_eq .text hname, bind_some_eq, optional_eq .text hns, bind_some_eq, huid, bind_some_eq,
    optional_eq .text hversion, bind_some_eq, hlabels, bind_some_eq,
    defaulted_list_eq OwnerReference.inverts howners, bind_some_eq,
    optional_eq Timestamp.inverts htime, bind_some_eq]

end ObjectMeta

theorem ConditionStatus.inverts :
    Inverts (ConditionStatus.decode strict) fun c ↦ .str c.name :=
  ⟨fun c ↦ by cases c <;> decide, fun _ ↦ rfl⟩

namespace Condition

theorem inverts (now : Timestamp) : Inverts (decode strict now) encode := by
  refine ⟨fun c ↦ ?_, fun _ ↦ rfl⟩
  rw [encode, decode, strict_record_obj, bind_some_eq,
    required_eq .text (a := c.type) (by simp), bind_some_eq,
    required_eq ConditionStatus.inverts (a := c.status) (by simp [List.lookup_cons]),
    bind_some_eq,
    required_eq .text (a := c.reason) (by simp [List.lookup_cons]), bind_some_eq,
    defaulted_eq .text (a := c.message) "" (by simp [List.lookup_cons]), bind_some_eq,
    defaulted_eq Timestamp.inverts (a := c.lastTransitionTime) now (by simp [List.lookup_cons]),
    bind_some_eq]

theorem status_inverts (now : Timestamp) : Inverts (decodeStatus strict now) encodeStatus := by
  refine ⟨fun l ↦ ?_, fun _ ↦ rfl⟩
  rw [encodeStatus, decodeStatus, strict_record_obj, bind_some_eq,
    defaulted_list_eq (inverts now) (l := l) rfl]

end Condition

namespace Principals

theorem inverts : Inverts (decode strict) encode := by
  refine ⟨fun p ↦ ?_, fun _ ↦ rfl⟩
  rw [encode, decode, strict_record_obj, bind_some_eq,
    optional_eq .texts (o := p.users?) (by simp [List.lookup_append]), bind_some_eq,
    optional_eq .texts (o := p.groups?) (by simp [List.lookup_append]), bind_some_eq]

end Principals

namespace Tenant

theorem authz_inverts :
    Inverts (decodeAuthz strict) fun p ↦ .obj [("developer", p.encode)] := by
  refine ⟨fun p ↦ ?_, fun _ ↦ rfl⟩
  rw [decodeAuthz, strict_record_obj, bind_some_eq,
    defaulted_eq Principals.inverts (a := p) {} (by simp)]

theorem spec_inverts : Inverts (decodeSpec strict) fun s ↦ .obj [("inventoryNamespace", .str s.1),
    ("authz", .obj [("developer", s.2.encode)])] := by
  refine ⟨fun s ↦ ?_, fun _ ↦ rfl⟩
  rw [decodeSpec, strict_record_obj, bind_some_eq,
    required_eq .text (a := s.1) (by simp), bind_some_eq,
    defaulted_eq authz_inverts (a := s.2) {} (by simp [List.lookup_cons]), bind_some_eq]

theorem inverts : Inverts (decode strict) encode := by
  refine ⟨fun t ↦ ?_, fun _ ↦ rfl⟩
  rw [encode, decode, strict_record_obj, bind_some_eq,
    required_eq ObjectMeta.inverts (a := t.metadata) (by simp), bind_some_eq,
    required_eq spec_inverts (a := (t.inventoryNamespace, t.developer))
      (by simp [List.lookup_cons]), bind_some_eq]

end Tenant

namespace InventorySpec

theorem provider_inverts :
    Inverts (decodeProvider strict) fun n ↦ .obj [("name", .str n)] := by
  refine ⟨fun n ↦ ?_, fun _ ↦ rfl⟩
  rw [decodeProvider, strict_record_obj, bind_some_eq, required_eq .text (a := n) (by simp)]

theorem inverts : Inverts (decode strict) encode := by
  refine ⟨fun s ↦ ?_, fun _ ↦ rfl⟩
  rw [encode, decode, strict_record_obj, bind_some_eq,
    optional_eq provider_inverts (o := s.providerRef)
      (by simp [List.lookup_append, List.lookup_cons]), bind_some_eq,
    optional_eq .text (o := s.credentialsRef)
      (by simp [List.lookup_append, List.lookup_cons]), bind_some_eq,
    defaulted_eq Principals.inverts (a := s.authz) {}
      (by simp [List.lookup_append]), bind_some_eq,
    optional_eq .flag (o := s.disableProvisions)
      (by simp [List.lookup_append, List.lookup_cons]), bind_some_eq,
    optional_eq .texts (o := s.connectionNamespaces)
      (by simp [List.lookup_append, List.lookup_cons]), bind_some_eq]

end InventorySpec

theorem Inventory.inverts (now : Timestamp) : Inverts (decode strict now) encode := by
  refine ⟨fun i ↦ ?_, fun _ ↦ rfl⟩
  rw [encode, decode, strict_record_obj, bind_some_eq,
    required_eq ObjectMeta.inverts (a := i.metadata) (by simp), bind_some_eq,
    defaulted_eq InventorySpec.inverts (a := i.spec) {} (by simp [List.lookup_cons]),
    bind_some_eq,
    defaulted_eq (Condition.status_inverts now) (a := i.conditions) []
      (by simp [List.lookup_cons]), bind_some_eq]

theorem ConfigSpec.inverts : Inverts (decode strict) encode := by
  refine ⟨fun s ↦ ?_, fun _ ↦ rfl⟩
  rw [encode, decode, strict_record_obj, bind_some_eq,
    optional_eq .flag (o := s.disableProvisions) (by simp [List.lookup_append]), bind_some_eq,
    optional_eq .texts (o := s.connectionNamespaces) (by simp [List.lookup_append]),
    bind_some_eq,
    optional_eq .flag (o := s.disableInUi) (by simp [List.lookup_append]), bind_some_eq]

theorem Config.inverts (now : Timestamp) : Inverts (decode strict now) encode := by
  refine ⟨fun c ↦ ?_, fun _ ↦ rfl⟩
  rw [encode, decode, strict_record_obj, bind_some_eq,
    required_eq ObjectMeta.inverts (a := c.metadata) (by simp), bind_some_eq,
    defaulted_eq ConfigSpec.inverts (a := c.spec) {} (by simp [List.lookup_cons]), bind_some_eq,
    defaulted_eq (Condition.status_inverts now) (a := c.conditions) []
      (by simp [List.lookup_cons]), bind_some_eq]

theorem PolicyRule.inverts : Inverts (decode strict) encode := by
  refine ⟨fun r ↦ ?_, fun _ ↦ rfl⟩
  rw [encode, decode, strict_record_obj, bind_some_eq,
    defaulted_list_eq .text (l := r.apiGroups)
      (by simp [List.lookup_append, List.lookup_cons]), bind_some_eq,
    defaulted_list_eq .text (l := r.resources)
      (by simp [List.lookup_append, List.lookup_cons]), bind_some_eq,
    defaulted_list_eq .text (l := r.resourceNames)
      (by simp [List.lookup_append, List.lookup_cons]), bind_some_eq,
    required_eq .texts (a := r.verbs) (by simp [List.lookup_append]),
    bind_some_eq]

theorem RoleRef.inverts : Inverts (decode strict) encode := by
  refine ⟨fun r ↦ ?_, fun _ ↦ rfl⟩
  rw [encode, decode, strict_record_obj, bind_some_eq,
    required_eq .text (a := r.apiGroup) (by simp), bind_some_eq,
    required_eq .text (a := r.kind) (by simp [List.lookup_cons]), bind_some_eq,
    required_eq .text (a := r.name) (by simp [List.lookup_cons]), bind_some_eq]

theorem SubjectKind.inverts : Inverts (SubjectKind.decode strict) fun k ↦ .str k.name :=
  ⟨fun k ↦ by cases k <;> decide, fun _ ↦ rfl⟩

theorem Subject.inverts : Inverts (decode strict) encode := by
  refine ⟨fun s ↦ ?_, fun _ ↦ rfl⟩
  rw [encode, decode, strict_record_obj, bind_some_eq,
    required_eq SubjectKind.inverts (a := s.kind) (by simp), bind_some_eq,
    required_eq .text (a := s.name) (by simp [List.lookup_cons]), bind_some_eq,
    optional_eq .text (o := s.ns?) (by simp [List.lookup_append, List.lookup_cons]),
    bind_some_eq,
    optional_eq .text (o := s.apiGroup) (by simp [List.lookup_append, List.lookup_cons]),
    bind_some_eq]

theorem Role.inverts {s : Scope} : Inverts (decode (s := s) strict) encode := by
  refine ⟨fun r ↦ ?_, fun _ ↦ rfl⟩
  rw [encode, decode, strict_record_obj, bind_some_eq,
    required_eq ObjectMeta.inverts (a := r.metadata) (by simp), bind_some_eq,
    defaulted_eq PolicyRule.inverts.list (a := r.rules) [] (by simp [List.lookup_cons]),
    bind_some_eq]

theorem Binding.inverts {s : Scope} : Inverts (decode (s := s) strict) encode := by
  refine ⟨fun b ↦ ?_, fun _ ↦ rfl⟩
  rw [encode, decode, strict_record_obj, bind_some_eq,
    required_eq ObjectMeta.inverts (a := b.metadata) (by simp), bind_some_eq,
    required_eq RoleRef.inverts (a := b.roleRef) (by simp [List.lookup_cons]), bind_some_eq,
    defaulted_list_eq Subject.inverts (l := b.subjects)
      (by simp [List.lookup_cons]), bind_some_eq]

namespace ResourceQuota

theorem spec_inverts :
    Inverts (decodeSpec strict) fun m ↦ .obj [("hard", Json.dictionary .str m)] := by
  refine ⟨fun m ↦ ?_, fun _ ↦ rfl⟩
  rw [decodeSpec, strict_record_obj, bind_some_eq,
    defaulted_eq (.dictionary .text) (a := m) ∅ (by simp)]

theorem inverts : Inverts (decode strict) encode := by
  refine ⟨fun q ↦ ?_, fun _ ↦ rfl⟩
  rw [encode, decode, strict_record_obj, bind_some_eq,
    required_eq ObjectMeta.inverts (a := q.metadata) (by simp), bind_some_eq,
    defaulted_eq spec_inverts (a := q.hard) ∅ (by simp [List.lookup_cons]), bind_some_eq]

end ResourceQuota

end TenantAccess
