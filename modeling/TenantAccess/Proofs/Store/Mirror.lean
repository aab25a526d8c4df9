import TenantAccess.Proofs.Document.Restamped
import TenantAccess.Proofs.Store.Growth
import TenantAccess.Schedule.Key

/-!
# Two stores that differ in stamps

One store mirrors another if it holds the same documents with other stamps.  Each call, made with the
restamped document, is answered alike by both, and one mirrors the other again.
-/

namespace TenantAccess

open Store Json

open Resource.Stamped (restamp)

/-- Two surroundings, and what is stamped there for what is stamped here.  What is stamped anew is
counted from some place on, and so are the events that are still to be handled. -/
structure Mirror extends Restamping where
  here : Surroundings
  there : Surroundings
  issuedFrom : Nat
  versionFrom : Nat
  logFrom : Nat
  now_there : there.ambient.now = time here.ambient.now
  uid_there : ∀ n, issuedFrom ≤ n → there.ambient.uid n = uid (here.ambient.uid n)
  version_later : ∀ n, versionFrom < n → version (toString n) = toString n
  reviewer_there : there.reviewer = here.reviewer

namespace Restamping

variable (ρ : Restamping) (objects : SortedMap ObjectRef Json)

/-- The documents of a store with other stamps. -/
def file : SortedMap ObjectRef Json :=
  ⟨objects.entries.map fun e ↦ (e.1, ρ.document e.1.kind e.2), by
    simpa [List.pairwise_map] using objects.sorted⟩

@[simp] theorem get?_file (ref : ObjectRef) :
    (ρ.file objects).get? ref = (objects.get? ref).map (ρ.document ref.kind) := by
  obtain ⟨entries, sorted⟩ := objects
  simp only [file, SortedMap.get?]
  clear sorted
  induction entries with
  | nil => rfl
  | cons e rest ih =>
    simp only [List.map_cons, SortedMap.lookup, ih]
    split
    · next heq =>
      rw [Std.LawfulEqOrd.eq_of_compare heq]
      rfl
    · rfl

theorem file_insert (ref : ObjectRef) (object : Json) :
    ρ.file (objects.insert ref object) =
      (ρ.file objects).insert ref (ρ.document ref.kind object) := by
  apply SortedMap.ext_get?
  intro ref'
  rw [get?_file, SortedMap.get?_insert_eq, SortedMap.get?_insert_eq, get?_file]
  split
  · next heq =>
    rw [heq]
    rfl
  · rfl

theorem file_erase (ref : ObjectRef) :
    ρ.file (objects.erase ref) = (ρ.file objects).erase ref := by
  apply SortedMap.ext_get?
  intro ref'
  rw [get?_file, SortedMap.get?_erase_eq, SortedMap.get?_erase_eq, get?_file]
  split <;> rfl

end Restamping

/-! ## Events -/

namespace Event

variable (ρ : Restamping)

theorem keys_restamp (type : EventType) {kind : Kind} (o : kind.Object) (claims : Claims) :
    keys ⟨type, kind, ρ.metadata (Resource.metadata o), Resource.encode (restamp ρ o)⟩ claims =
      keys ⟨type, kind, Resource.metadata o, Resource.encode o⟩ claims := by
  cases kind with
  | resourceQuota =>
    simp only [keys, Restamping.metadata, List.filter_map, List.map_map]
    rfl
  | _ => rfl

end Event

/-! ## Logs -/

/-- Two logs that call for the same work from some place on. -/
structure Mirror.Logs (μ : Mirror) (log log' : Array Event) : Prop where
  size : log'.size = log.size
  logFrom : μ.logFrom ≤ log.size
  keys : ∀ claims : Claims, (log'.toList.drop μ.logFrom).map (·.keys claims) =
    (log.toList.drop μ.logFrom).map (·.keys claims)

namespace Mirror.Logs

variable {μ : Mirror} {log log' : Array Event}

theorem push (h : μ.Logs log log') {e e' : Event}
    (hkeys : ∀ claims, e'.keys claims = e.keys claims) : μ.Logs (log.push e) (log'.push e') where
  size := by rw [Array.size_push, Array.size_push, h.size]
  logFrom := by
    rw [Array.size_push]
    exact Nat.le_succ_of_le h.logFrom
  keys claims := by
    have hfrom : μ.logFrom ≤ log.toList.length := h.logFrom
    have hfrom' : μ.logFrom ≤ log'.toList.length :=
      Nat.le_trans h.logFrom (Nat.le_of_eq h.size.symm)
    rw [Array.toList_push, Array.toList_push, List.drop_append_of_le_length hfrom,
      List.drop_append_of_le_length hfrom', List.map_append, List.map_append, h.keys claims,
      List.map_singleton, List.map_singleton, hkeys claims]

theorem flatMap_extract (h : μ.Logs log log') {start : Nat} (hstart : μ.logFrom ≤ start)
    (claims : Claims) : (log'.extract start log.size).toList.flatMap (·.keys claims) =
      (log.extract start log.size).toList.flatMap (·.keys claims) := by
  have hextract (log : Array Event) :
      (log.extract start log.size).toList.flatMap (·.keys claims) =
        (((log.toList.drop μ.logFrom).map (·.keys claims)).drop (start - μ.logFrom)).flatten := by
    rw [← List.map_drop, ← List.flatMap_def, List.drop_drop, Nat.add_sub_cancel' hstart,
      Array.toList_extract, List.extract_eq_take_drop, List.take_of_length_le (by simp)]
  rw [← h.size, hextract log', h.size, hextract log, h.keys claims]

end Mirror.Logs

namespace Store

def Native (s : Store) : Prop :=
  ∀ ref object, s.objects.get? ref = some object →
    ∃ o : ref.kind.Object, object = Resource.encode o

/-- The store `s'` holds what `s` holds, with the stamps of the mirror, and is to tell the same. -/
structure Mirrored (μ : Mirror) (s s' : Store) : Prop where
  objects : s'.objects = μ.file s.objects
  native : s.Native
  version : s'.version = s.version
  writes : s'.writes = s.writes
  issued : s'.issued = s.issued
  versionFrom : μ.versionFrom ≤ s.version
  issuedFrom : μ.issuedFrom ≤ s.issued
  log : μ.Logs s.log s'.log

theorem Native.exists_object {s : Store} (h : s.Native) {e : ObjectRef × Json}
    (he : e ∈ s.objects.entries) : ∃ o : e.1.kind.Object, e.2 = Resource.encode o :=
  h e.1 e.2 (SortedMap.mem_entries_iff.1 he)

theorem Native.list_eq {s : Store} (h : s.Native) (kind : Kind) (params : ListParams) :
    s.list kind params = .ok (((s.objects.entries.filter fun e ↦ e.1.kind = kind).filter
      (acceptsEntry params)).map (·.2)) :=
  select_eq_ok fun e he ↦ by
    obtain ⟨o, ho⟩ := h.exists_object (List.mem_filter.1 he).1
    exact ⟨Resource.metadata o, by rw [ho, metaOf_encode]⟩

namespace Mirrored

variable {μ : Mirror} {s s' : Store}

theorem get?_eq (h : Mirrored μ s s') (ref : ObjectRef) :
    s'.objects.get? ref = (s.objects.get? ref).map (μ.document ref.kind) := by
  rw [h.objects, μ.get?_file]

theorem entries_eq (h : Mirrored μ s s') :
    s'.objects.entries = s.objects.entries.map fun e ↦ (e.1, μ.document e.1.kind e.2) := by
  rw [h.objects]
  rfl

theorem ref_restamp {α : Type} [Resource α] [Resource.Stamped α] (ρ : Restamping) (a : α) :
    Resource.ref (restamp ρ a) = Resource.ref a := by
  simp [Resource.ref, Resource.key, Resource.Stamped.metadata_restamp]

theorem metaOf_document (kind : Kind) (μ : Mirror) {kind' : Kind} (o : kind'.Object) :
    metaOf kind (μ.document kind' (Resource.encode o)) = .ok (μ.metadata (Resource.metadata o)) := by
  rw [μ.document_object, metaOf_encode, Resource.Stamped.metadata_restamp]

theorem native_image (h : Mirrored μ s s') : s'.Native := by
  intro ref object hget
  rw [h.get?_eq] at hget
  obtain ⟨stored, hstored, rfl⟩ := Option.map_eq_some_iff.1 hget
  obtain ⟨o, rfl⟩ := h.native ref stored hstored
  exact ⟨restamp μ.toRestamping o, μ.document_object o⟩

theorem get?_ref_restamp {α : Type} [Resource α] [Resource.Stamped α] (h : Mirrored μ s s') (a : α) :
    s'.objects.get? (Resource.ref (restamp μ.toRestamping a)) =
      (s.objects.get? (Resource.ref a)).map (μ.document (Resource.kind α)) := by
  rw [ref_restamp, h.get?_eq]
  rfl

/-! ## Reading -/

theorem list_eq (h : Mirrored μ s s') (kind : Kind) (params : ListParams) :
    s'.list kind params = (s.list kind params).map (List.map (μ.document kind)) := by
  rw [h.native.list_eq, h.native_image.list_eq, h.entries_eq, List.filter_map, List.filter_map,
    List.map_map]
  refine congrArg Except.ok ?_
  rw [List.map_map]
  refine (congrArg (List.map _) (List.filter_congr fun e he ↦ ?_)).trans
    (List.map_congr_left fun e he ↦ ?_)
  · obtain ⟨o, ho⟩ := h.native.exists_object (List.mem_filter.1 he).1
    simp [acceptsEntry, ho, metaOf_document]
  · have hkind : e.1.kind = kind := by simpa using (List.mem_filter.1 (List.mem_filter.1 he).1).2
    simp [hkind]

/-! ## Writing -/

theorem publish (h : Mirrored μ s s') (type : EventType) (kind : Kind) {m m' : ObjectMeta}
    {object object' : Json} (hkeys : ∀ claims, Event.keys ⟨type, kind, m', object'⟩ claims =
      Event.keys ⟨type, kind, m, object⟩ claims) :
    Mirrored μ (s.publish type kind m object) (s'.publish type kind m' object') :=
  { h with log := h.log.push hkeys }

section Typed

variable {α : Type} [Resource α] [Resource.Stamped α] [Resource.Stamped.Native α]

theorem keys_restamp (ρ : Restamping) (type : EventType) (a : α) (claims : Claims) :
    Event.keys ⟨type, Resource.kind α, Resource.metadata (restamp ρ a),
      Resource.encode (restamp ρ a)⟩ claims =
    Event.keys ⟨type, Resource.kind α, Resource.metadata a, Resource.encode a⟩ claims := by
  obtain ⟨o, ho, hrestamp⟩ := Resource.Stamped.Native.exists_restamp a
  have hmeta : Resource.metadata o = Resource.metadata a := by
    have hread := congrArg (metaOf .tenant) ho
    rw [metaOf_encode, metaOf_encode] at hread
    exact Except.ok.inj hread
  rw [← hrestamp, Resource.Stamped.metadata_restamp, ← hmeta, ← ho]
  exact Event.keys_restamp ρ type o claims

theorem native_insert (h : s.Native) (a : α) :
    Native { s with objects := s.objects.insert (Resource.ref a) (Resource.encode a) } := by
  intro ref object hget
  rw [SortedMap.get?_insert_eq] at hget
  split at hget
  · next heq =>
    cases hget
    subst heq
    exact Resource.Native.exists_object a
  · exact h ref object hget

theorem recorded (h : Mirrored μ s s') (type : EventType) (a : α) {issued : Nat}
    (hissued : s.issued ≤ issued) :
    Mirrored μ (s.recorded type a issued) (s'.recorded type (restamp μ.toRestamping a) issued) := by
  have hfiled : Mirrored μ
      { s with
        objects := s.objects.insert (Resource.ref a) (Resource.encode a)
        version := s.version + 1
        writes := s.writes + 1
        issued }
      { s' with
        objects := s'.objects.insert (Resource.ref (restamp μ.toRestamping a))
          (Resource.encode (restamp μ.toRestamping a))
        version := s'.version + 1
        writes := s'.writes + 1
        issued } :=
    { h with
      objects := by
        change _ = μ.file (s.objects.insert (Resource.ref a) _)
        rw [ref_restamp, μ.file_insert, h.objects, Resource.ref, μ.document_encode]
      native := native_insert h.native a
      version := congrArg Nat.succ h.version
      writes := congrArg Nat.succ h.writes
      issued := rfl
      versionFrom := Nat.le_succ_of_le h.versionFrom
      issuedFrom := Nat.le_trans h.issuedFrom hissued }
  exact hfiled.publish type _ (keys_restamp μ.toRestamping type a)

end Typed

/-! ## What is stamped anew -/

section Stamps

variable {α : Type} [Resource α] [Resource.Stamped α]

theorem stampNew_eq (h : Mirrored μ s s') (m : ObjectMeta) :
    stampNew μ.there.ambient s' (μ.metadata m) = μ.metadata (stampNew μ.here.ambient s m) := by
  have hversion : μ.version (toString (s.version + 1)) = toString (s.version + 1) :=
    μ.version_later _ (Nat.lt_succ_of_le h.versionFrom)
  simp only [stampNew, Restamping.metadata, h.version, h.issued, Option.map_some, hversion,
    μ.now_there, μ.uid_there _ h.issuedFrom, μ.uid_eq_empty_iff, apply_ite μ.uid]

theorem asNew_eq (h : Mirrored μ s s') (a : α) :
    asNew μ.there.ambient s' (restamp μ.toRestamping a) =
      restamp μ.toRestamping (asNew μ.here.ambient s a) := by
  rw [asNew, asNew, Resource.Stamped.restamp_withMeta, Resource.Stamped.metadata_restamp, h.stampNew_eq]

theorem asUpdate_eq (h : Mirrored μ s s') (c : ObjectMeta) (a : α) :
    asUpdate s' (μ.metadata c) (restamp μ.toRestamping a) =
      restamp μ.toRestamping (asUpdate s c a) := by
  have hversion : μ.version (toString (s.version + 1)) = toString (s.version + 1) :=
    μ.version_later _ (Nat.lt_succ_of_le h.versionFrom)
  rw [asUpdate, asUpdate, Resource.Stamped.restamp_withMeta, Resource.Stamped.metadata_restamp]
  simp only [stampOver, Restamping.metadata, h.version, Option.map_some, hversion]

theorem issuedWith_eq (h : Mirrored μ s s') (m : ObjectMeta) :
    s'.issuedWith (μ.metadata m) = s.issuedWith m := by
  simp only [issuedWith, Restamping.uid_metadata, μ.uid_eq_empty_iff, h.issued]

end Stamps

/-! ## Deleting -/

theorem dependents_eq (h : Mirrored μ s s') (uid : String) :
    s'.dependents (μ.uid uid) = s.dependents uid := by
  unfold dependents
  rw [h.entries_eq, List.filter_map, List.map_map]
  refine congrArg (List.map _) (List.filter_congr fun e he ↦ ?_)
  obtain ⟨o, ho⟩ := h.native.exists_object he
  simp [ho, metaOf_document]

theorem without (h : Mirrored μ s s') (ref : ObjectRef) (o : ref.kind.Object) :
    Mirrored μ (s.without ref (Resource.metadata o) (Resource.encode o))
      (s'.without ref (μ.metadata (Resource.metadata o))
        (Resource.encode (restamp μ.toRestamping o))) := by
  have hfiled : Mirrored μ
      { s with objects := s.objects.erase ref, writes := s.writes + 1 }
      { s' with objects := s'.objects.erase ref, writes := s'.writes + 1 } :=
    { h with
      objects := by
        change _ = μ.file (s.objects.erase ref)
        rw [μ.file_erase, h.objects]
      native := fun ref' object hget ↦ by
        rw [SortedMap.get?_erase_eq] at hget
        split at hget
        · cases hget
        · exact h.native ref' object hget
      writes := congrArg Nat.succ h.writes }
  exact hfiled.publish .deleted ref.kind (Event.keys_restamp μ.toRestamping .deleted o)

theorem sweep (h : Mirrored μ s s') (work : List ObjectRef) :
    (s'.sweep work).1 = (s.sweep work).1 ∧ Mirrored μ (s.sweep work).2 (s'.sweep work).2 := by
  -- the induction follows the sweep here; there the same places are taken, as owners are told alike
  induction s, work using sweep.induct generalizing s' with
  | case1 s =>
    rw [sweep_nil, sweep_nil]
    exact ⟨rfl, h⟩
  | case2 s ref rest hnone ih =>
    have hnone' : s'.objects.get? ref = none := by rw [h.get?_eq, hnone, Option.map_none]
    rw [sweep_cons_of_none hnone, sweep_cons_of_none hnone']
    exact ih h
  | case3 s ref rest object hget e he =>
    obtain ⟨o, rfl⟩ := h.native ref object hget
    simp at he
  | case4 s ref rest object hget taken m hm told =>
    rename_i ih
    obtain ⟨o, rfl⟩ := h.native ref object hget
    rw [metaOf_encode] at hm
    cases hm
    have hget' : s'.objects.get? ref = some (Resource.encode (restamp μ.toRestamping o)) := by
      rw [h.get?_eq, hget, Option.map_some, μ.document_object]
    have hwithout := h.without ref o
    rw [sweep_cons_of_metaOf hget (metaOf_encode _ o), sweep_cons_of_metaOf hget' (metaOf_encode _ _),
      Resource.Stamped.metadata_restamp, Restamping.uid_metadata, hwithout.dependents_eq]
    exact ih hwithout

theorem delete (h : Mirrored μ s s') (ref : ObjectRef) :
    (s'.delete ref).1 = (s.delete ref).1 ∧ Mirrored μ (s.delete ref).2 (s'.delete ref).2 := by
  unfold Store.delete
  rw [h.get?_eq]
  cases s.objects.get? ref with
  | none => exact ⟨rfl, h⟩
  | some object => exact h.sweep [ref]

end Mirrored

end Store

end TenantAccess
